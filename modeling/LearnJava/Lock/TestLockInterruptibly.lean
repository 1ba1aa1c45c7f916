import LearnJava.Lock.LockRunnables

/-!
# `TestLockInterruptibly`

The program of `lock/TestLockInterruptibly.java`: three threads take one lock and none gives it
back, a fourth one interrupts the second and the third.  The first one to get the lock keeps it.
The second thread comes to its end in any case, as `lockInterruptibly` reacts to the interrupt;
`lock` does not, and the third thread waits for good unless the interrupt came to it in `await`
(`main_outcome`).
-/

namespace LearnJava

namespace TestLockInterruptibly

open LockRunnable

/-! ## The code -/

/-- `MatchaGetLockThread`, `MatchaGetLockInterruptiblyThread`, `MatchaOtherGetLockThread` and
`MatchaInterruptThread`. -/
inductive Thread
  | thread1
  | thread2
  | thread3
  | thread4
  deriving DecidableEq, Repr

instance : Fintype Thread :=
  ⟨{.thread1, .thread2, .thread3, .thread4}, by rintro (_ | _ | _ | _) <;> simp⟩

/-- `run()`; no thread unlocks. -/
def run : Thread → Runnable Thread
  | .thread1 => ⟨.lock, false, fun _ => false⟩
  | .thread2 => ⟨.lockInterruptibly, false, fun _ => false⟩
  | .thread3 => ⟨.lock, false, fun _ => false⟩
  | .thread4 => ⟨.interrupt [.thread2, .thread3], false, fun _ => false⟩

/-- The threads that `main` starts; they wait for one latch. -/
abbrev main : Machine (State Thread) (Act Thread) := machine run fun _ => 0

lemma run_rethrows (t : Thread) : (run t).rethrows = false := by cases t <;> rfl

lemma run_unlocks (t : Thread) (getLock : Bool) : (run t).unlocks getLock = false := by
  cases t <;> rfl

lemma run_pending (t : Thread) (caught : Bool) : (run t).pending caught = none := by
  simp [Runnable.pending, run_rethrows]

lemma run_call_ne_tryLock (t : Thread) : (run t).call ≠ .tryLock := by cases t <;> simp [run]

lemma run_call_interrupt_iff {t : Thread} {threads : List Thread} :
    (run t).call = .interrupt threads ↔ t = .thread4 ∧ threads = [.thread2, .thread3] := by
  cases t <;> simp [run, eq_comm]

/-! ## The invariant -/

/-- What the place of a thread says about the lock. -/
def Fits (t : Thread) (owns : Prop) : Place Thread → Prop
  | .new | .awaiting | .calling => ¬owns
  | .waiting => ¬owns ∧ t ≠ .thread4
  | .interrupting threads => ¬owns ∧ t = .thread4 ∧ threads <:+ [.thread2, .thread3]
  | .leaving getLock caught => getLock = true ∧ (owns ↔ caught = false ∧ t ≠ .thread4)
  | .ended result => result = none ∧ (owns → t ≠ .thread4)

/-- `thread4` has interrupted `thread2`. -/
def Passed : Place Thread → Prop
  | .interrupting threads => .thread2 ∉ threads
  | .leaving _ _ | .ended _ => True
  | _ => False

/-- The call is over. -/
def Done : Place Thread → Prop
  | .leaving _ _ | .ended _ => True
  | _ => False

/-- Only two threads are interrupted, and the second one stays so up to the end of its call. -/
structure Inv (s : State Thread) : Prop where
  fits : ∀ t, Fits t (s.owner = some t) (s.thread t).place
  calm : ∀ t, (s.thread t).interrupted = true → t = .thread2 ∨ t = .thread3
  passed : Passed (s.thread .thread4).place →
    (s.thread .thread2).interrupted = true ∨ Done (s.thread .thread2).place

variable {s s' : State Thread}

lemma inv_init (h : main.init s) : Inv s := by
  obtain rfl : s = .initial Thread := h
  exact ⟨fun t => by rintro ⟨⟩, fun t => by rintro ⟨⟩, False.elim⟩

/-- The place a thread comes to fits if the one it was at does. -/
lemma Fits.moves {t : Thread} {owns : Prop} {old place : Place Thread}
    (h : Moves run (fun _ => 0) s t old place) (hold : Fits t owns old) : Fits t owns place := by
  cases h with
  | enters | passes => exact hold
  | waits hcall => exact ⟨hold, fun ht => hcall _ (run_call_interrupt_iff.mpr ⟨ht, rfl⟩)⟩
  | begins hcall =>
      obtain ⟨ht, rfl⟩ := run_call_interrupt_iff.mp hcall
      exact ⟨hold, ht, List.suffix_rfl⟩
  | finishes => exact ⟨rfl, iff_of_false hold.1 fun hother => hother.2 hold.2.1⟩
  | timesOut hcall => exact absurd hcall (run_call_ne_tryLock t)
  | fails hunlocks => simp [run_unlocks] at hunlocks
  | ends => exact ⟨run_pending t _, fun howns => (hold.2.mp howns).2⟩

/-- `thread4` passes `thread2` by interrupting it only. -/
lemma Passed.of_moves {t : Thread} {old place : Place Thread}
    (h : Moves run (fun _ => 0) s t old place) (hpassed : Passed place) : Passed old := by
  cases h with
  | enters | passes | waits => exact hpassed
  | begins hcall =>
      obtain ⟨-, rfl⟩ := run_call_interrupt_iff.mp hcall
      exact absurd List.mem_cons_self hpassed
  | finishes => exact List.not_mem_nil
  | timesOut hcall => exact absurd hcall (run_call_ne_tryLock t)
  | fails | ends => trivial

lemma Done.moves {t : Thread} {old place : Place Thread}
    (h : Moves run (fun _ => 0) s t old place) (hdone : Done old) : Done place := by
  cases h with
  | fails | ends => trivial
  | _ => exact hdone.elim

/-- One thread comes to another place, and what the others have stays as it is. -/
lemma Inv.goTo (hs : Inv s) {t : Thread} {place : Place Thread} {owner : Option Thread}
    (hfits : Fits t (owner = some t) place)
    (hothers : ∀ u, u ≠ t → (owner = some u ↔ s.owner = some u))
    (hpassed : t = .thread4 → Passed place → Passed (s.thread t).place)
    (hdone : t = .thread2 → Done (s.thread t).place → Done place) :
    Inv { s.goTo t place with owner } := by
  have hplaces := fun u => goTo_place (s := s) t u place
  refine ⟨fun u => ?_, fun u hu => hs.calm u (goTo_interrupted (s := s) t u place ▸ hu), ?_⟩
  · rw [show _ = _ from hplaces u]
    split_ifs with hu
    · exact hu ▸ hfits
    · exact (propext (hothers u hu)) ▸ hs.fits u
  · rw [show _ = _ from hplaces .thread4, show _ = _ from hplaces .thread2,
      show _ = _ from goTo_interrupted (s := s) t .thread2 place]
    intro h
    have hbefore : Passed (s.thread .thread4).place := by
      split_ifs at h with ht
      · exact ht ▸ hpassed ht.symm h
      · exact h
    refine (hs.passed hbefore).imp_right fun hend => ?_
    split_ifs with ht
    · exact hdone ht.symm (ht ▸ hend)
    · exact hend

/-- The next thread that `thread4` interrupts. -/
lemma Inv.interruptsNext (hs : Inv s) {t u : Thread} {threads : List Thread}
    (hplace : (s.thread t).place = .interrupting (u :: threads)) :
    Inv ((s.goTo t (.interrupting threads)).interrupt u) := by
  have hfits := hs.fits t
  rw [hplace] at hfits
  obtain ⟨howner, rfl, hsuffix⟩ := hfits
  have hmem : u = .thread2 ∨ u = .thread3 := by
    simpa using hsuffix.subset List.mem_cons_self
  refine ⟨fun v => ?_, fun v hv => ?_, fun hpassed => ?_⟩
  · rw [interrupt_place, goTo_place]
    split_ifs with hv
    · subst hv
      exact ⟨howner, rfl, (List.suffix_cons u threads).trans hsuffix⟩
    · exact hs.fits v
  · rw [interrupt_interrupted, goTo_interrupted, Bool.or_eq_true, decide_eq_true_iff] at hv
    rcases hv with rfl | hv
    · exact hmem
    · exact hs.calm v hv
  · rw [interrupt_place, goTo_place, if_pos rfl] at hpassed
    rw [interrupt_interrupted, goTo_interrupted, interrupt_place, goTo_place, if_neg (by decide)]
    by_cases hu : u = .thread2
    · simp [hu]
    · have hbefore : Passed (s.thread .thread4).place := by
        rw [hplace]
        exact fun hin => (List.mem_cons.mp hin).elim (fun h => hu h.symm) hpassed
      exact (hs.passed hbefore).imp_left fun hint => by rw [hint, Bool.or_true]

/-- A thread whose exception can be thrown is not at its end, and does not have the lock. -/
lemma Fits.of_throws {t : Thread} {owns : Prop} {place : Place Thread}
    (hthrows : place.throws (run t).call = true) (h : Fits t owns place) : ¬owns := by
  cases place with
  | new | awaiting | calling => exact h
  | waiting => exact h.1
  | _ => cases hthrows

lemma Inv.throws (hs : Inv s) {t : Thread} (hinterrupted : (s.thread t).interrupted = true)
    (hthrows : (s.thread t).place.throws (run t).call = true) : Inv (s.catch t) := by
  have howner := (hs.fits t).of_throws hthrows
  have ht : t ≠ .thread4 := by
    rintro rfl
    obtain h | h := hs.calm _ hinterrupted <;> cases h
  refine ⟨fun u => ?_, fun u hu => ?_, fun hpassed => ?_⟩
  · rw [catch_place]
    split_ifs with hu
    · subst hu
      exact ⟨rfl, iff_of_false howner (by simp)⟩
    · exact hs.fits u
  · rw [catch_interrupted, Bool.and_eq_true] at hu
    exact hs.calm u hu.2
  · rw [catch_place, if_neg ht.symm] at hpassed
    rw [catch_place, catch_interrupted]
    split_ifs with h
    · exact .inr trivial
    · simpa [h] using hs.passed hpassed

/-- **Every move but an interrupt from outside keeps the invariant.** -/
lemma inv_step {a : Act Thread} (hs : Inv s) (h : main.step s a = some s') (ha : a.IsOwn) :
    Inv s' := by
  cases step_cases h with
  | moves t place _ hm =>
      exact hs.goTo ((hs.fits t).moves hm) (fun _ _ => Iff.rfl) (fun _ => Passed.of_moves hm)
        fun _ => Done.moves hm
  | acquires t hplace hfree =>
      have hfits := hs.fits t
      rw [hplace] at hfits
      refine hs.goTo ⟨rfl, iff_of_true rfl ⟨rfl, hfits.2⟩⟩ (fun u hu => ?_)
        (fun ht => absurd ht hfits.2) fun _ _ => trivial
      rw [hfree]
      exact iff_of_false (fun h => hu (Option.some.inj h).symm) (by simp)
  | interruptsNext t u threads hplace => exact hs.interruptsNext hplace
  | releases t getLock caught _ hunlocks => simp [run_unlocks] at hunlocks
  | throws t hinterrupted hthrows => exact hs.throws hinterrupted hthrows
  | interrupted t => exact absurd ha id
  | opens t => exact ⟨hs.fits, hs.calm, hs.passed⟩

/-! ## The thread that has the lock -/

/-- **The lock is never given back.** -/
lemma owner_step {a : Act Thread} {t : Thread} (h : main.step s a = some s')
    (ht : s.owner = some t) : s'.owner = some t := by
  cases step_cases h with
  | moves => exact ht
  | acquires _ _ hfree => rw [hfree] at ht; cases ht
  | interruptsNext => exact ht
  | releases _ _ _ _ hunlocks => simp [run_unlocks] at hunlocks
  | throws => exact ht
  | interrupted => exact ht
  | opens => exact ht

/-- What the place of a thread other than `thread4` says about its `InterruptedException`. -/
def Caught (owns : Prop) : Place Thread → Prop
  | .leaving _ caught => caught = true
  | .ended _ => ¬owns
  | _ => False

/-- An `InterruptedException` was thrown in the thread. -/
def Thrown (t : Thread) (s : State Thread) : Prop := Caught (s.owner = some t) (s.thread t).place

lemma Thrown.congr {t : Thread} (hplace : (s'.thread t).place = (s.thread t).place)
    (howner : s'.owner = some t ↔ s.owner = some t) : Thrown t s' ↔ Thrown t s := by
  rw [Thrown, Thrown, hplace, propext howner]

lemma caught_moves {t : Thread} {owns : Prop} {old place : Place Thread}
    (h : Moves run (fun _ => 0) s t old place) (hfits : Fits t owns old) (ht : t ≠ .thread4) :
    Caught owns place ↔ Caught owns old := by
  cases h with
  | enters | passes | waits | begins => exact Iff.rfl
  | finishes => exact absurd hfits.2.1 ht
  | timesOut hcall => exact absurd hcall (run_call_ne_tryLock t)
  | fails hunlocks => simp [run_unlocks] at hunlocks
  | ends => simp [Caught, hfits.2, ht]

/-- Nothing but a throw leads to one, and it is not forgotten. -/
lemma thrown_step {a : Act Thread} {t : Thread} (ht : t ≠ .thread4) (hs : Inv s)
    (h : main.step s a = some s') (ha : a.IsOwn) : Thrown t s' ↔ Thrown t s ∨ a = .throw t := by
  cases step_cases h with
  | moves u place ha' hm =>
      rw [or_iff_left (by rcases ha' with rfl | rfl <;> simp)]
      rcases eq_or_ne t u with rfl | hu
      · rw [Thrown, goTo_place, if_pos rfl]
        exact caught_moves hm (hs.fits t) ht
      · exact Thrown.congr (by rw [goTo_place, if_neg hu]) Iff.rfl
  | acquires u hplace hfree =>
      rw [or_iff_left (by simp)]
      have hplaces := goTo_place (s := s) u t (.leaving true false)
      rcases eq_or_ne t u with rfl | hu
      · rw [Thrown, Thrown, hplace, show _ = _ from hplaces, if_pos rfl]
        simp [Caught]
      · refine Thrown.congr (hplaces.trans (if_neg hu)) ?_
        rw [hfree]
        exact iff_of_false (fun h => hu (Option.some.inj h).symm) (by simp)
  | interruptsNext u v threads hplace =>
      have hfits := hs.fits u
      rw [hplace] at hfits
      rw [or_iff_left (by simp)]
      refine Thrown.congr ?_ Iff.rfl
      rw [interrupt_place, goTo_place, if_neg fun hu => ht (hu.trans hfits.2.1)]
  | releases u getLock caught _ hunlocks => simp [run_unlocks] at hunlocks
  | throws u =>
      rcases eq_or_ne t u with rfl | hu
      · refine iff_of_true ?_ (.inr rfl)
        rw [Thrown, catch_place, if_pos rfl]
        rfl
      · rw [or_iff_left fun h => hu (Act.throw.inj h).symm]
        exact Thrown.congr (by rw [catch_place, if_neg hu]) Iff.rfl
  | interrupted u => exact absurd ha id
  | opens u => exact (or_iff_left (by simp)).symm

/-! ## The results -/

lemma not_thrown_init {t : Thread} (h : main.init s) : ¬Thrown t s := by
  obtain rfl : s = .initial Thread := h
  exact id

variable {ms : List (Move (State Thread) (Act Thread))}

lemma inv_of_run (h : main.Run ms s) (hown : ∀ m ∈ ms, m.label.IsOwn) : Inv s :=
  h.invariant_of_moves (fun _ => inv_init) (fun _ _ _ => inv_step) hown

lemma thrown_iff (h : main.Run ms s) (hown : ∀ m ∈ ms, m.label.IsOwn) {t : Thread}
    (ht : t ≠ .thread4) : Thrown t s ↔ ∃ m ∈ ms, m.label = .throw t :=
  h.exists_move_iff (fun _ hinit => ⟨inv_init hinit, not_thrown_init hinit⟩)
    (fun _ _ _ => inv_step) (fun _ _ _ => thrown_step ht) hown

/-- Where nothing is possible, a thread has ended or waits, and then it was not interrupted or does
not react. -/
lemma Inv.place_of_quiet (hs : Inv s) (hquiet : main.Quiet Act.IsOwn s) (t : Thread) :
    (s.thread t).place = .ended none ∨
      (s.thread t).place = .waiting ∧ s.owner ≠ none ∧ s.owner ≠ some t ∧ t ≠ .thread4 ∧
        ((run t).call.isInterruptible = true → (s.thread t).interrupted = false) := by
  have hfits := hs.fits t
  obtain ⟨r, hplace⟩ | ⟨hplace, howner, hcall⟩ := LockRunnable.place_of_quiet hquiet t
  · rw [hplace] at hfits ⊢
    exact .inl (by rw [hfits.1])
  · rw [hplace] at hfits
    exact .inr ⟨hplace, howner, hfits.1, hfits.2, hcall⟩

/-- The threads that come to their end. -/
lemma Inv.ended_iff (hs : Inv s) (hquiet : main.Quiet Act.IsOwn s) {t : Thread} :
    (s.thread t).place = .ended none ↔ s.owner = some t ∨ Thrown t s := by
  obtain hplace | ⟨hplace, -, howner, -⟩ := hs.place_of_quiet hquiet t
  · refine iff_of_true hplace ?_
    rw [Thrown, hplace]
    exact em _
  · refine iff_of_false (by simp [hplace]) ?_
    rw [Thrown, hplace]
    exact not_or.mpr ⟨howner, id⟩

lemma Inv.thread4_ended (hs : Inv s) (hquiet : main.Quiet Act.IsOwn s) :
    (s.thread .thread4).place = .ended none := by
  obtain hplace | ⟨-, -, -, hne, -⟩ := hs.place_of_quiet hquiet .thread4
  · exact hplace
  · exact absurd rfl hne

lemma Inv.thread2_ended (hs : Inv s) (hquiet : main.Quiet Act.IsOwn s) :
    (s.thread .thread2).place = .ended none := by
  obtain hplace | ⟨hplace, -, -, -, hcalm⟩ := hs.place_of_quiet hquiet .thread2
  · exact hplace
  · -- it was interrupted, and has not left the call
    have hpassed : Passed (s.thread .thread4).place := by
      rw [hs.thread4_ended hquiet]
      trivial
    obtain hinterrupted | hdone := hs.passed hpassed
    · rw [hcalm rfl] at hinterrupted
      cases hinterrupted
    · rw [hplace] at hdone
      exact hdone.elim

lemma interrupted_of_throw {t : Thread} (h : main.step s (.throw t) = some s') :
    (s.thread t).interrupted = true := by
  cases step_cases h with
  | moves u place ha => obtain h | h := ha <;> cases h
  | throws _ hinterrupted => exact hinterrupted

/-- Nobody interrupts the first thread. -/
lemma not_throw_thread1 (h : main.Run ms s) (hown : ∀ m ∈ ms, m.label.IsOwn) :
    ¬∃ m ∈ ms, m.label = .throw .thread1 := by
  rintro ⟨m, hm, hlabel⟩
  obtain ⟨hs, hstep, -⟩ := h.move_of_mem (fun _ => inv_init) (fun _ _ _ => inv_step) hown hm
  obtain h | h := hs.calm _ (interrupted_of_throw (hlabel ▸ hstep)) <;> cases h

/-- **Who comes to its end.**  Where nothing is possible any more, and no one but `thread4` has
interrupted a thread: one of the first three threads has the lock and keeps it; the second and the
fourth have ended; the first has ended exactly if it has the lock, the third exactly if it has the
lock or its `InterruptedException` was thrown.  The others wait for good. -/
theorem main_outcome (h : main.Run ms s) (hown : ∀ m ∈ ms, m.label.IsOwn)
    (hquiet : main.Quiet Act.IsOwn s) :
    (∃ t, s.owner = some t ∧ t ≠ .thread4) ∧
    (∀ t, (s.thread t).place = .ended none ∨ (s.thread t).place = .waiting) ∧
    ((s.thread .thread1).place = .ended none ↔ s.owner = some .thread1) ∧
    (s.thread .thread2).place = .ended none ∧
    ((s.thread .thread3).place = .ended none ↔
      s.owner = some .thread3 ∨ ∃ m ∈ ms, m.label = .throw .thread3) ∧
    (s.thread .thread4).place = .ended none := by
  have hs := inv_of_run h hown
  have hthread1 : (s.thread .thread1).place = .ended none ↔ s.owner = some .thread1 := by
    rw [hs.ended_iff hquiet, thrown_iff h hown (by simp)]
    exact or_iff_left (not_throw_thread1 h hown)
  have htaken : s.owner ≠ none := by
    intro hfree
    obtain hplace | ⟨-, howner, -⟩ := hs.place_of_quiet hquiet .thread1
    · rw [hthread1.mp hplace] at hfree
      cases hfree
    · exact howner hfree
  refine ⟨?_, fun t => (hs.place_of_quiet hquiet t).imp_right And.left, hthread1,
    hs.thread2_ended hquiet, ?_, hs.thread4_ended hquiet⟩
  · obtain ⟨t, ht⟩ := Option.ne_none_iff_exists'.mp htaken
    refine ⟨t, ht, ?_⟩
    rintro rfl
    have hfits := hs.fits .thread4
    rw [hs.thread4_ended hquiet] at hfits
    exact hfits.2 ht rfl
  · rw [hs.ended_iff hquiet, thrown_iff h hown (by simp)]

/-- **The program comes to rest.**  In every run, interrupts from outside included, the lock is
never given back; the run has at most 26 moves besides these interrupts, and can be carried on until
nothing is possible. -/
theorem main_comes_to_rest (h : main.Run ms s) :
    (∀ m ∈ ms, ∀ t, m.post.owner = some t → s.owner = some t) ∧
    (ms.map fun m => m.label.steps).sum ≤ 26 ∧
    ∃ ms' s', main.Run (ms ++ ms') s' ∧ (∀ m ∈ ms', m.label.IsOwn) ∧
      main.Quiet Act.IsOwn s' := by
  refine ⟨fun m hm t ht => ?_, ?_, ?_⟩
  · exact h.stable (I := fun _ => True) (fun _ _ => trivial) (fun _ _ _ _ _ => trivial)
      (fun _ _ _ _ hstep howner => owner_step hstep howner) hm ht
  · have hinit : ∀ s : State Thread, main.init s → distance run (fun _ => 0) s ≤ 26 := by
      rintro s rfl
      decide
    have hstep : ∀ s a s', main.step s a = some s' →
        distance run (fun _ => 0) s' + a.steps ≤ distance run (fun _ => 0) s + 0 :=
      fun _ _ _ => distance_add_steps_le
    exact (Nat.le_add_right _ _).trans ((h.spent_le hinit hstep).trans (by simp))
  · exact h.exists_quiet (I := fun _ => True) Act.IsOwn (distance run fun _ => 0)
      (fun _ _ => trivial) (fun _ _ _ _ _ => trivial) fun _ _ _ _ ha hstep => distance_lt ha hstep

/-! ## A run -/

/-- The first thread has the lock, the second and the third wait for it and are interrupted. -/
def bothWait : List (Act Thread) :=
  [.go .thread1, .go .thread2, .go .thread3, .go .thread4, .countDown .thread1, .go .thread1,
    .go .thread1, .go .thread1, .go .thread1, .go .thread2, .go .thread2, .go .thread3,
    .go .thread3, .go .thread4, .go .thread4, .go .thread4, .go .thread4, .go .thread4,
    .go .thread4, .throw .thread2, .go .thread2]

lemma bothWait_quiet :
    main.Quiet Act.IsOwn ((main.play (.initial Thread) bothWait).getD (.initial Thread)) := by
  intro a ha
  refine Option.isNone_iff_eq_none.mp ?_
  cases a with
  | interrupt t => exact ha.elim
  | go t | throw t | timeOut t | countDown t => cases t <;> decide +kernel

theorem main_outcome_bothWait :
    (main.play (.initial Thread) bothWait).isSome ∧
      ∃ t, ((main.play (.initial Thread) bothWait).getD (.initial Thread)).owner = some t ∧
        t ≠ .thread4 := by
  refine ⟨by decide +kernel, (main_outcome (Machine.run_getD_of_play (M := main) (.initial Thread)
    rfl (by decide +kernel)) (fun m hm => ?_) bothWait_quiet).1⟩
  have hall : ∀ a ∈ bothWait, a.IsOwn := by
    simp [bothWait, Act.IsOwn]
  exact hall _ (Machine.label_mem_of_mem_moves hm)

theorem main_comes_to_rest_bothWait :
    (main.play (.initial Thread) bothWait).isSome ∧
      ((main.moves (.initial Thread) bothWait).map fun m => m.label.steps).sum ≤ 26 :=
  ⟨by decide +kernel, (main_comes_to_rest (Machine.run_getD_of_play (M := main) (.initial Thread)
    rfl (by decide +kernel))).2.1⟩

end TestLockInterruptibly

end LearnJava
