import LearnJava.Lock.LockRunnables

/-!
# `ReentrantLockCallable` and `ReentrantLockTryCallable`

The threads of `lock/LockTestClass.java` and of `DefaultThreadFacotry` in
`lock/LockTestClass2.java`.  Both classes unlock in their `finally` although an
`InterruptedException` may have been thrown before the lock was taken: `getLock` is true from the
beginning.  The `RuntimeException` of the `catch` is then lost, and the thread ends by the
`IllegalMonitorStateException` of `unlock` (`run_correct`).  The lock itself is always given back,
and no thread waits for good (`run_ends`).
-/

namespace LearnJava

namespace LockRunnable

/-! ## The two classes -/

/-- `lock/thread/ReentrantLockCallable.java`, and `ReentrantLockTryCallable.java` with its field. -/
inductive Callable
  | reentrantLockCallable
  | reentrantLockTryCallable (needTry : Bool)
  deriving DecidableEq, Repr

/-- `run()` -/
def Callable.run (τ : Type) : Callable → Runnable τ
  | .reentrantLockCallable => ⟨.lock, true, fun _ => true⟩
  | .reentrantLockTryCallable needTry =>
    ⟨if needTry then .tryLock else .lock, true, fun getLock => !needTry || getLock⟩

section Callables

variable {τ : Type} [DecidableEq τ] {kind : τ → Callable} {latch : τ → Latch} {s s' : State τ}

omit [DecidableEq τ] in
/-- Neither class interrupts, and both throw an `InterruptedException` again. -/
lemma run_facts (k : Callable) : (∀ threads, (k.run τ).call ≠ .interrupt threads) ∧
    (k.run τ).rethrows = true ∧ (k.run τ).unlocks true = true ∧
      ((k.run τ).call = .tryLock → (k.run τ).unlocks false = false) := by
  cases k with
  | reentrantLockCallable => exact ⟨by rintro _ ⟨⟩, rfl, rfl, by rintro ⟨⟩⟩
  | reentrantLockTryCallable needTry => cases needTry <;> simp [Callable.run]

/-- What a thread can be up to; the owner is the one that leaves without an exception. -/
structure Inv (kind : τ → Callable) (s : State τ) : Prop where
  owner : ∀ t, s.owner = some t ↔ (s.thread t).place = .leaving true false
  refused : ∀ t caught, (s.thread t).place = .leaving false caught →
    caught = false ∧ ((kind t).run τ).call = .tryLock
  interrupts : ∀ t threads, (s.thread t).place ≠ .interrupting threads
  result : ∀ t r, (s.thread t).place = .ended r →
    r = none ∨ r = some .illegalMonitorStateException

lemma inv_init (h : (machine (fun t => (kind t).run τ) latch).init s) : Inv kind s := by
  obtain rfl : s = .initial τ := h
  refine ⟨fun t => ?_, ?_, ?_, ?_⟩
  · simp [State.initial]
  · rintro t caught ⟨⟩
  · rintro t threads ⟨⟩
  · rintro t r ⟨⟩

omit [DecidableEq τ] in
/-- The invariant is about the owner and the places. -/
lemma Inv.of_places (hs : Inv kind s) (howner : s'.owner = s.owner)
    (hplaces : ∀ t, (s'.thread t).place = (s.thread t).place) : Inv kind s' :=
  ⟨fun t => by rw [howner, hplaces]; exact hs.owner t,
    fun t caught => by rw [hplaces]; exact hs.refused t caught,
    fun t threads => by rw [hplaces]; exact hs.interrupts t threads,
    fun t r => by rw [hplaces]; exact hs.result t r⟩

omit [DecidableEq τ] in
/-- The owner is at its `finally`. -/
lemma Inv.not_owner (hs : Inv kind s) {t : τ} (h : (s.thread t).place ≠ .leaving true false) :
    s.owner ≠ some t := fun howner => h ((hs.owner t).mp howner)

/-- A thread comes to another place, and nobody else takes or loses the lock. -/
lemma Inv.goTo_owner (hs : Inv kind s) {t : τ} {place : Place τ} {owner : Option τ}
    (howner : owner = some t ↔ place = .leaving true false)
    (hothers : ∀ u, u ≠ t → (owner = some u ↔ s.owner = some u))
    (hrefused : ∀ caught, place = .leaving false caught →
      caught = false ∧ ((kind t).run τ).call = .tryLock)
    (hinterrupts : ∀ threads, place ≠ .interrupting threads)
    (hresult : ∀ r, place = .ended r → r = none ∨ r = some .illegalMonitorStateException) :
    Inv kind { s.goTo t place with owner } := by
  have hplaces := fun u => goTo_place (s := s) t u place
  refine ⟨fun u => ?_, fun u caught => ?_, fun u threads => ?_, fun u r => ?_⟩
  all_goals rw [show _ = _ from hplaces u]
  all_goals rcases eq_or_ne u t with rfl | hu
  · rw [if_pos rfl]
    exact howner
  · rw [if_neg hu]
    exact (hothers u hu).trans (hs.owner u)
  · rw [if_pos rfl]
    exact hrefused caught
  · rw [if_neg hu]
    exact hs.refused u caught
  · rw [if_pos rfl]
    exact hinterrupts threads
  · rw [if_neg hu]
    exact hs.interrupts u threads
  · rw [if_pos rfl]
    exact hresult r
  · rw [if_neg hu]
    exact hs.result u r

/-- A thread that does not own the lock, and will not, comes to another place. -/
lemma Inv.goTo (hs : Inv kind s) {t : τ} {place : Place τ} (howner : s.owner ≠ some t)
    (hplace : place ≠ .leaving true false)
    (hrefused : ∀ caught, place = .leaving false caught →
      caught = false ∧ ((kind t).run τ).call = .tryLock)
    (hinterrupts : ∀ threads, place ≠ .interrupting threads)
    (hresult : ∀ r, place = .ended r → r = none ∨ r = some .illegalMonitorStateException) :
    Inv kind (s.goTo t place) :=
  hs.goTo_owner (iff_of_false howner hplace) (fun _ _ => Iff.rfl) hrefused hinterrupts hresult

/-- A thread goes on without touching the lock. -/
lemma Inv.moves (hs : Inv kind s) {t : τ} {place : Place τ}
    (h : Moves (fun t => (kind t).run τ) latch s t (s.thread t).place place) :
    Inv kind (s.goTo t place) := by
  obtain ⟨hcall, -, hunlocks, htry⟩ := run_facts (τ := τ) (kind t)
  have hother : (s.thread t).place ≠ .leaving true false → s.owner ≠ some t := hs.not_owner
  generalize hold : (s.thread t).place = old at h hother
  cases h with
  | enters => exact hs.goTo (hother (by simp)) (by simp) (by simp) (by simp) (by simp)
  | passes => exact hs.goTo (hother (by simp)) (by simp) (by simp) (by simp) (by simp)
  | waits => exact hs.goTo (hother (by simp)) (by simp) (by simp) (by simp) (by simp)
  | begins hbegins => exact absurd hbegins (hcall _)
  | finishes => exact absurd hold (hs.interrupts t _)
  | timesOut htimes =>
      refine hs.goTo (hother (by simp)) (by simp) (fun caught hcaught => ?_) (by simp) (by simp)
      exact ⟨(Place.leaving.inj hcaught).2.symm, htimes⟩
  | fails _ howner => exact hs.goTo howner (by simp) (by simp) (by simp) (by simp)
  | @ends getLock caught hnot =>
      cases getLock with
      | true => rw [hunlocks] at hnot; cases hnot
      | false =>
          obtain ⟨rfl, -⟩ := hs.refused t caught hold
          refine hs.goTo (hother (by simp)) (by simp) (by simp) (by simp) fun r hr => .inl ?_
          rw [← Place.ended.inj hr]
          rfl

/-- **Every move keeps the invariant.** -/
lemma inv_step {a : Act τ} (hs : Inv kind s)
    (h : (machine (fun t => (kind t).run τ) latch).step s a = some s') : Inv kind s' := by
  cases step_cases h with
  | moves t place _ hm => exact hs.moves hm
  | acquires t hplace hfree =>
      refine hs.goTo_owner (by simp) (fun u hu => ?_) (by simp) (by simp) (by simp)
      rw [hfree]
      exact iff_of_false (fun howner => hu (Option.some.inj howner).symm) (by simp)
  | interruptsNext t u threads hplace => exact absurd hplace (hs.interrupts t _)
  | releases t getLock caught hplace hunlocks howner =>
      have hwas := (hs.owner t).mp howner
      have hcaught : caught = false := by
        rw [hplace] at hwas
        exact (Place.leaving.inj hwas).2
      refine hs.goTo_owner (by simp) (fun u hu => ?_) (by simp) (by simp) fun r hr => .inl ?_
      · rw [howner]
        exact iff_of_false (by simp) fun hother => hu (Option.some.inj hother).symm
      · rw [← Place.ended.inj hr, hcaught]
        rfl
  | throws t _ hthrows =>
      have hother : (s.thread t).place ≠ .leaving true false := by
        intro hplace
        rw [hplace] at hthrows
        cases hthrows
      have hcaught : Inv kind (s.goTo t (.leaving true true)) :=
        hs.goTo (hs.not_owner hother) (by simp) (by simp) (by simp) (by simp)
      refine hcaught.of_places rfl fun u => ?_
      rw [catch_place, goTo_place]
  | interrupted t => exact hs.of_places rfl fun u => interrupt_place t u
  | opens t => exact ⟨hs.owner, hs.refused, hs.interrupts, hs.result⟩

/-! ## What an interrupt leads to -/

/-- An `InterruptedException` was thrown in the thread, and the lock not taken. -/
def Thrown (t : τ) (s : State τ) : Prop :=
  (s.thread t).place = .leaving true true ∨
    (s.thread t).place = .ended (some .illegalMonitorStateException)

omit [DecidableEq τ] in
lemma Thrown.congr {t : τ} (h : (s'.thread t).place = (s.thread t).place) :
    Thrown t s' ↔ Thrown t s := by
  rw [Thrown, Thrown, h]

/-- An exception that is on its way is not lost but for the one of `unlock`. -/
lemma thrown_step {a : Act τ} {t : τ} (hs : Inv kind s)
    (h : (machine (fun t => (kind t).run τ) latch).step s a = some s') (ht : Thrown t s) :
    Thrown t s' := by
  have hunlocks := (run_facts (τ := τ) (kind t)).2.2.1
  have hkept : ∀ {u}, u ≠ t → ∀ place, Thrown t (s.goTo u place) := fun hu place =>
    (Thrown.congr (by rw [goTo_place, if_neg hu.symm])).mpr ht
  cases step_cases h with
  | moves u place _ hm =>
      rcases eq_or_ne u t with rfl | hu
      · obtain hleaving | hended := ht
        · rw [hleaving] at hm
          cases hm with
          | fails => exact .inr (by rw [goTo_place, if_pos rfl])
          | ends hnot => rw [hunlocks] at hnot; cases hnot
        · rw [hended] at hm
          cases hm
      · exact hkept hu place
  | acquires u hplace =>
      have hu : u ≠ t := by
        rintro rfl
        obtain h | h := ht <;> rw [hplace] at h <;> cases h
      exact hkept hu _
  | interruptsNext u v threads hplace => exact absurd hplace (hs.interrupts u _)
  | releases u getLock caught hplace _ howner =>
      have hu : u ≠ t := by
        rintro rfl
        have hwas := (hs.owner u).mp howner
        obtain h | h := ht <;> rw [hwas] at h <;> cases h
      exact hkept hu _
  | throws u _ hthrows =>
      have hu : t ≠ u := by
        rintro rfl
        obtain h | h := ht <;> rw [h] at hthrows <;> cases hthrows
      exact (Thrown.congr (by rw [catch_place, if_neg hu])).mpr ht
  | interrupted u => exact (Thrown.congr (interrupt_place u t)).mpr ht
  | opens u => exact ht

/-- Nothing else leads to one. -/
lemma not_thrown_step {a : Act τ} {t : τ} (hs : Inv kind s)
    (h : (machine (fun t => (kind t).run τ) latch).step s a = some s') (ha : a ≠ .throw t)
    (ht : ¬Thrown t s) : ¬Thrown t s' := by
  obtain ⟨hcall, hrethrows, hunlocks, htry⟩ := run_facts (τ := τ) (kind t)
  have hpending : ∀ caught,
      ((kind t).run τ).pending caught ≠ some .illegalMonitorStateException := by
    intro caught
    cases caught <;> simp [Runnable.pending, hrethrows]
  have hkept : ∀ {u}, u ≠ t → ∀ place, ¬Thrown t (s.goTo u place) := fun hu place hthrown =>
    ht ((Thrown.congr (by rw [goTo_place, if_neg hu.symm])).mp hthrown)
  have hself : ∀ place, place ≠ .leaving true true →
      place ≠ .ended (some .illegalMonitorStateException) → ¬Thrown t (s.goTo t place) := by
    rintro place hleaving hended (h | h) <;> rw [goTo_place, if_pos rfl] at h
    · exact hleaving h
    · exact hended h
  cases step_cases h with
  | moves u place _ hm =>
      rcases eq_or_ne u t with rfl | hu
      · generalize hold : (s.thread u).place = old at hm
        cases hm with
        | @fails getLock caught hyes howner =>
            -- the lock was refused, or taken, or the exception thrown
            exfalso
            cases getLock with
            | false =>
                obtain ⟨-, hcalls⟩ := hs.refused u caught hold
                rw [htry hcalls] at hyes
                cases hyes
            | true =>
                cases caught with
                | false => exact howner ((hs.owner u).mpr hold)
                | true => exact ht (.inl hold)
        | ends => exact hself _ (by simp) fun hended => hpending _ (Place.ended.inj hended)
        | begins hbegins => exact absurd hbegins (hcall _)
        | _ => exact hself _ (by simp) (by simp)
      · exact hkept hu place
  | acquires u =>
      rcases eq_or_ne u t with rfl | hu
      · exact hself _ (by simp) (by simp)
      · exact hkept hu _
  | interruptsNext u v threads hplace => exact absurd hplace (hs.interrupts u _)
  | releases u getLock caught =>
      rcases eq_or_ne u t with rfl | hu
      · exact hself _ (by simp) fun hended => hpending _ (Place.ended.inj hended)
      · exact hkept hu _
  | throws u =>
      have hu : t ≠ u := fun heq => ha (by rw [heq])
      exact fun hthrown => ht ((Thrown.congr (by rw [catch_place, if_neg hu])).mp hthrown)
  | interrupted u => exact fun hthrown => ht ((Thrown.congr (interrupt_place u t)).mp hthrown)
  | opens u => exact ht

lemma thrown_of_throw {t : τ}
    (h : (machine (fun t => (kind t).run τ) latch).step s (.throw t) = some s') : Thrown t s' := by
  cases step_cases h with
  | moves u place ha => obtain h | h := ha <;> cases h
  | throws => exact .inl (by rw [catch_place, if_pos rfl])

lemma thrown_iff {ms : List (Move (State τ) (Act τ))} {t : τ}
    (h : (machine (fun t => (kind t).run τ) latch).Run ms s) :
    Thrown t s ↔ ∃ m ∈ ms, m.label = .throw t := by
  refine h.exists_move_iff (C := fun _ => True) (fun s hinit => ⟨inv_init hinit, ?_⟩)
    (fun _ _ _ hs hstep _ => inv_step hs hstep) (fun s a s' hs hstep _ => ⟨fun hthrown => ?_, ?_⟩)
    fun _ _ => trivial
  · obtain rfl : s = .initial τ := hinit
    rintro (h | h) <;> cases h
  · by_contra hnever
    obtain ⟨hbefore, hlabel⟩ := not_or.mp hnever
    exact not_thrown_step hs hstep hlabel hbefore hthrown
  · rintro (hbefore | hlabel)
    · exact thrown_step hs hstep hbefore
    · obtain rfl : a = .throw t := hlabel
      exact thrown_of_throw hstep

/-! ## Where nothing is possible -/

/-- A thread that waits for nothing but its latch and a lock that nobody keeps comes to its end. -/
lemma ended_of_quiet (hs : Inv kind s)
    (hquiet : (machine (fun t => (kind t).run τ) latch).Quiet Act.IsOwn s) :
    s.owner = none ∧ ∀ t, ∃ r, (s.thread t).place = .ended r := by
  have hgo : ∀ t, go (fun t => (kind t).run τ) latch s t = none := fun t => hquiet (.go t) trivial
  have hfree : s.owner = none := by
    by_contra howner
    obtain ⟨t, ht⟩ := Option.ne_none_iff_exists'.mp howner
    have hunlocks := (run_facts (τ := τ) (kind t)).2.2.1
    have hstep := hgo t
    simp [go, (hs.owner t).mp ht, hunlocks, ht] at hstep
  exact ⟨hfree, fun t => (place_of_quiet hquiet t).resolve_right fun hwaits => hwaits.2.1 hfree⟩

/-! ## The results -/

/-- **What the threads do with the lock.**  In every run, interrupts and time-outs at any moment
included: the thread that has the lock is about to release it; a thread ends normally, or by the
`IllegalMonitorStateException` of its `unlock`, which happens exactly if an `InterruptedException`
was thrown in it; and when all have ended the lock is free. -/
theorem run_correct {ms : List (Move (State τ) (Act τ))}
    (h : (machine (fun t => (kind t).run τ) latch).Run ms s) :
    (∀ t, s.owner = some t ↔ (s.thread t).place = .leaving true false) ∧
    (∀ t r, (s.thread t).place = .ended r →
      (r = none ∨ r = some .illegalMonitorStateException) ∧
        (r = some .illegalMonitorStateException ↔ ∃ m ∈ ms, m.label = .throw t)) ∧
    ((∀ t, ∃ r, (s.thread t).place = .ended r) → s.owner = none) := by
  have hs : Inv kind s := h.invariant (fun _ => inv_init) fun _ _ _ => inv_step
  refine ⟨hs.owner, fun t r hplace => ⟨hs.result t r hplace, ?_⟩, fun hended => ?_⟩
  · rw [← thrown_iff h, Thrown, hplace]
    simp
  · by_contra howner
    obtain ⟨t, ht⟩ := Option.ne_none_iff_exists'.mp howner
    obtain ⟨r, hr⟩ := hended t
    rw [(hs.owner t).mp ht] at hr
    cases hr

/-- **All threads end.**  A run of `n` threads has at most `6 n` moves besides the interrupts, and
can be carried on, by steps of the threads and openings of their latches, until all have ended and
the lock is free. -/
theorem run_ends [Fintype τ] {ms : List (Move (State τ) (Act τ))}
    (h : (machine (fun t => (kind t).run τ) latch).Run ms s) :
    (ms.map fun m => m.label.steps).sum ≤ 6 * Fintype.card τ ∧
    ∃ ms' s', (machine (fun t => (kind t).run τ) latch).Run (ms ++ ms') s' ∧
      (∀ m ∈ ms', m.label.IsOwn) ∧ s'.owner = none ∧
        ∀ t, ∃ r, (s'.thread t).place = .ended r := by
  refine ⟨?_, ?_⟩
  · have htargets : ∀ t, ((kind t).run τ).call.targets = 0 := fun t => by
      cases kind t with
      | reentrantLockCallable => rfl
      | reentrantLockTryCallable needTry => cases needTry <;> rfl
    have hinit : ∀ s : State τ, (machine (fun t => (kind t).run τ) latch).init s →
        distance (fun t => (kind t).run τ) latch s ≤ 6 * Fintype.card τ := by
      rintro s rfl
      simp [distance, State.initial, Place.left, htargets]
      omega
    have hstep : ∀ s a s', (machine (fun t => (kind t).run τ) latch).step s a = some s' →
        distance (fun t => (kind t).run τ) latch s' + a.steps ≤
          distance (fun t => (kind t).run τ) latch s + 0 := fun _ _ _ => distance_add_steps_le
    exact (Nat.le_add_right _ _).trans ((h.spent_le hinit hstep).trans (by simp))
  · obtain ⟨ms', s', hrun, hown, hquiet⟩ := h.exists_quiet (I := Inv kind) Act.IsOwn
      (distance (fun t => (kind t).run τ) latch) (fun _ => inv_init) (fun _ _ _ => inv_step)
      fun _ _ _ _ ha hstep => distance_lt ha hstep
    have hs' : Inv kind s' := hrun.invariant (fun _ => inv_init) fun _ _ _ => inv_step
    obtain ⟨hfree, hended⟩ := ended_of_quiet hs' hquiet
    exact ⟨ms', s', hrun, hown, hfree, hended⟩

/-! ## A run -/

/-- Two threads; the one with `tryLock` is interrupted in it while the other one has the lock. -/
def kinds : Duo → Callable
  | .first => .reentrantLockCallable
  | .second => .reentrantLockTryCallable true

def interruptedTry : List (Act Duo) :=
  [.go .first, .go .second, .countDown .first, .go .first, .go .second, .go .first, .go .second,
    .go .first, .interrupt .second, .throw .second, .go .second]

/-- The system they come from. -/
abbrev duo : Machine (State Duo) (Act Duo) := machine (fun t => (kinds t).run Duo) fun _ => 0

theorem run_correct_interruptedTry :
    (duo.play (.initial Duo) interruptedTry).isSome ∧
      (((duo.play (.initial Duo) interruptedTry).getD (.initial Duo)).owner = some .first ↔
        (((duo.play (.initial Duo) interruptedTry).getD (.initial Duo)).thread .first).place =
          .leaving true false) :=
  ⟨by decide +kernel, (run_correct (Machine.run_getD_of_play (M := duo) _ rfl
    (by decide +kernel))).1 .first⟩

theorem run_ends_interruptedTry :
    (duo.play (.initial Duo) interruptedTry).isSome ∧
      ((duo.moves (.initial Duo) interruptedTry).map fun m => m.label.steps).sum ≤ 12 :=
  ⟨by decide +kernel, (run_ends (Machine.run_getD_of_play (M := duo) (.initial Duo) rfl
    (by decide +kernel))).1⟩

end Callables

end LockRunnable

end LearnJava
