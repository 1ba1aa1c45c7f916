import LearnJava.Foundation.Progress
import LearnJava.Lock.TestTwinsLockQueue

/-!
# No wake-up of `TestTwinsLock` is lost

While a thread is queued first, has not been unparked and nobody is about to do it, there is no
permit (`QueuedInv.awake`).  The permits are then with other threads, and each of these goes on
until it has given its permit back and unparks the one that waits.  So a state in which no thread
has a step of its own is one in which all have ended (`ended_of_quiet`): there is no deadlock.
-/

namespace LearnJava

namespace TestTwinsLock

open TwinsLock (Kind Local Phase Outcome Share)

/-! ## The steps of the lock -/

/-- The phases before and after a step of the lock's code, with the state after it. -/
inductive Advances (state : ℤ) (queued : Bool) : Phase → ℤ → Phase → Prop
  | entered (k : Kind) : Advances state queued (.entered k) state (.trying k)
  | reentered (k : Kind) : Advances state queued (.trying k) state (.returned .acquired)
  | yielded (k : Kind) (h : queued = true) : Advances state queued (.trying k) state (.failed k)
  | competed (k : Kind) : Advances state queued (.trying k) state (.competing k)
  | refused (k : Kind) (h : state = 0) : Advances state queued (.competing k) state (.failed k)
  | read (k : Kind) :
      Advances state queued (.competing k) state (.swapping k state (state - 1))
  | took (k : Kind) :
      Advances state queued (.swapping k state (state - 1)) (state - 1) (.took k)
  | missed (k : Kind) (expected newState : ℤ) (h : state ≠ expected) :
      Advances state queued (.swapping k expected newState) state (.competing k)
  | created (k : Kind) : Advances state queued (.took k) state (.counting k)
  | counted (k : Kind) : Advances state queued (.counting k) state (.returned .acquired)
  | gaveUp : Advances state queued (.failed .tryLock) state (.returned .notAcquired)
  | retried (k : Kind) (h : k ≠ .tryLock) : Advances state queued (.failed k) state (.trying k)
  | unlocked (o : Outcome) : Advances state queued .unlocking state (.returned o)
  | dropped : Advances state queued .unlocking state .dropping
  | removed : Advances state queued .dropping state .releasing
  | readBack : Advances state queued .releasing state (.restoring state (state + 1))
  | restored :
      Advances state queued (.restoring state (state + 1)) (state + 1) (.returned .unlocked)
  | missedBack (expected newState : ℤ) (h : state ≠ expected) :
      Advances state queued (.restoring expected newState) state .releasing

section Lock

variable {queued : Bool} {state : ℤ} {l : Local} {q : ℤ × Local}

lemma advances_trying {k : Kind} (hphase : l.phase = .trying k) (hl : l.Ok)
    (h : TwinsLock.advance true queued state l = some q) :
    Advances state queued (.trying k) q.1 q.2.phase := by
  simp only [Local.Ok, hphase, Phase.Ok] at hl
  obtain ⟨hsame, ⟨n, hbegun, -⟩ | ⟨n, hbegun, hpos⟩, hlt⟩ := hl
  · have hcounter : l.share.counter = none := by rw [hsame, hbegun]
    simp only [TwinsLock.advance, hphase, hcounter] at h
    split_ifs at h with hshould <;> obtain rfl := Option.some.inj h
    · exact .competed k
    · refine .yielded k ?_
      simpa [TwinsLock.shouldAcquire] using hshould
  · have hcounter : l.share.counter = some l.depth := by rw [hsame, hbegun]
    simp only [TwinsLock.advance, hphase, hcounter,
      TwinsLock.incrementAndGet_eq (by omega) hlt] at h
    obtain rfl := Option.some.inj h
    exact .reentered k

lemma advances_unlocking (hphase : l.phase = .unlocking)
    (h : TwinsLock.advance true queued state l = some q) :
    Advances state queued .unlocking q.1 q.2.phase := by
  cases hcounter : l.share.counter with
  | none =>
      simp only [TwinsLock.advance, hphase, hcounter] at h
      obtain rfl := Option.some.inj h
      exact .unlocked _
  | some c =>
      simp only [TwinsLock.advance, hphase, hcounter] at h
      split_ifs at h <;> obtain rfl := Option.some.inj h
      · exact .unlocked _
      · exact .dropped

/-- Every step of the code is one of these. -/
lemma advances_of_advance (hl : l.Ok) (hlo : 0 ≤ state) (hhi : state + l.held < 2 ^ 31)
    (h : TwinsLock.advance true queued state l = some q) :
    Advances state queued l.phase q.1 q.2.phase := by
  cases hphase : l.phase with
  | entered k =>
      simp only [TwinsLock.advance, hphase] at h
      obtain rfl := Option.some.inj h
      exact .entered k
  | trying k => exact advances_trying hphase hl h
  | competing k =>
      have hwrap : wrap32 (state - 1) = state - 1 := wrap32_of_range (by omega) (by omega)
      simp only [TwinsLock.advance, hphase, hwrap] at h
      split_ifs at h with hneg <;> obtain rfl := Option.some.inj h
      · exact .refused k (by omega)
      · exact .read k
  | swapping k expected newState =>
      simp only [Local.Ok, hphase, Phase.Ok] at hl
      obtain ⟨-, rfl, -⟩ := hl
      simp only [TwinsLock.advance, hphase] at h
      split_ifs at h with hcas <;> obtain rfl := Option.some.inj h
      · subst hcas
        exact .took k
      · exact .missed k expected _ hcas
  | took k =>
      simp only [TwinsLock.advance, hphase] at h
      obtain rfl := Option.some.inj h
      exact .created k
  | counting k =>
      simp only [Local.Ok, hphase, Phase.Ok] at hl
      obtain ⟨n, -, hshare, -⟩ := hl
      simp only [TwinsLock.advance, hphase, hshare, Option.map_some,
        TwinsLock.incrementAndGet_eq le_rfl (show (0 : ℤ) + 1 < 2 ^ 31 by norm_num)] at h
      obtain rfl := Option.some.inj h
      exact .counted k
  | failed k =>
      simp only [TwinsLock.advance, hphase] at h
      split at h <;> obtain rfl := Option.some.inj h
      · exact .gaveUp
      · rename_i hk
        exact .retried k hk
  | unlocking => exact advances_unlocking hphase h
  | dropping =>
      simp only [TwinsLock.advance, hphase] at h
      obtain rfl := Option.some.inj h
      exact .removed
  | releasing =>
      simp only [Local.Ok, hphase, Phase.Ok] at hl
      obtain ⟨n, -, hshare, -⟩ := hl
      have hheld : l.held = 1 := by simp [Local.held, Share.Holds, hshare]
      have hwrap : wrap32 (state + 1) = state + 1 := wrap32_of_range (by omega) (by omega)
      simp only [TwinsLock.advance, hphase, hwrap] at h
      obtain rfl := Option.some.inj h
      exact .readBack
  | restoring expected newState =>
      simp only [Local.Ok, hphase, Phase.Ok] at hl
      obtain ⟨-, rfl⟩ := hl
      simp only [TwinsLock.advance, hphase] at h
      split_ifs at h with hcas <;> obtain rfl := Option.some.inj h
      · subst hcas
        exact .restored
      · exact .missedBack expected _ hcas
  | idle | returned o => simp [TwinsLock.advance, hphase] at h

/-- The end of a call by an interrupt or by its time-out. -/
lemma giveUp_cases {fair interrupted : Bool}
    (h : TwinsLock.act fair state l (.giveUp interrupted) = some q) :
    q.1 = state ∧ ((∃ k, l.phase = .entered k) ∨ ∃ k, l.phase = .failed k) ∧
      ∃ o, q.2.phase = .returned o := by
  simp only [TwinsLock.act] at h
  split at h
  · rename_i k hphase
    split_ifs at h
    obtain rfl := Option.some.inj h
    exact ⟨rfl, .inl ⟨k, hphase⟩, _, rfl⟩
  · rename_i k hphase
    split_ifs at h <;> obtain rfl := Option.some.inj h <;>
      exact ⟨rfl, .inr ⟨k, hphase⟩, _, rfl⟩
  · cases h

/-- A call that has ended lets the next thread try: its counter is positive if it has acquired the
lock. -/
lemma propagates_of_ok (hl : l.Ok) (hrest : l.phase.AtRest = true) : propagates l = true := by
  cases hphase : l.phase with
  | returned o =>
      cases o with
      | acquired =>
          simp only [Local.Ok, hphase, Phase.Ok, Outcome.Meets] at hl
          obtain ⟨⟨n, hshare, -⟩ | ⟨n, hshare, hpos⟩, -, hmeets⟩ := hl
          · cases hbegun : l.begun.counter <;> simp [hbegun, hshare] at hmeets
          · simp only [propagates, hphase, hshare, Option.getD_some, decide_eq_true_eq]
            omega
      | _ => simp [propagates, hphase]
  | idle => simp [propagates, hphase]
  | _ => simp [hphase, Phase.AtRest] at hrest

end Lock

/-! ## The steps of a thread -/

/-- An action in the call that acquires the lock: a step of the lock, a thread that gives up, or the
end of the call. -/
inductive AcquireStep (state : ℤ) (w : Worker) : Act → ℤ × Worker → Prop
  | inside {queued : Bool} {r : ℤ × Worker} (hplace : r.2.place = .acquiring)
      (h : Advances state queued w.lock.phase r.1 r.2.lock.phase) :
      AcquireStep state w (.go queued) r
  | givesUp {a : Act} {r : ℤ × Worker} (hplace : r.2.place = .acquiring) (hsame : r.1 = state)
      (h : (∃ k, w.lock.phase = .entered k) ∨ ∃ k, w.lock.phase = .failed k)
      (hreturned : ∃ o, r.2.lock.phase = .returned o) : AcquireStep state w a r
  | ends {queued : Bool} {o : Outcome} (hphase : w.lock.phase = .returned o) :
      AcquireStep state w (.go queued) (state, acquireEnded w o)

section Thread

variable {state : ℤ} {w : Worker} {a : Act} {r : ℤ × Worker}

lemma acquireStep_of_giveUp {interrupted : Bool}
    (h : inLock true state w .acquiring (.giveUp interrupted) = some r) :
    AcquireStep state w a r := by
  obtain ⟨q, hq, rfl⟩ := Option.map_eq_some_iff.mp h
  obtain ⟨hsame, hphase, hreturned⟩ := giveUp_cases hq
  exact .givesUp rfl hsame hphase hreturned

lemma acquireStep_of_act (hl : w.lock.Ok) (hlo : 0 ≤ state) (hhi : state + w.lock.held < 2 ^ 31)
    (hplace : w.place = .acquiring) (h : act true state w a = some r) :
    AcquireStep state w a r := by
  cases a with
  | go queued =>
      simp only [act, advance, hplace] at h
      split at h
      · obtain rfl := Option.some.inj h
        exact .ends (by assumption)
      · obtain ⟨q, hq, rfl⟩ := Option.map_eq_some_iff.mp h
        exact .inside rfl (advances_of_advance hl hlo hhi hq)
  | interrupt =>
      simp only [act, hplace] at h
      exact acquireStep_of_giveUp h
  | timeOut =>
      simp only [act, hplace] at h
      exact acquireStep_of_giveUp h

lemma unlockStep_of_act (hl : w.lock.Ok) (hlo : 0 ≤ state) (hhi : state + w.lock.held < 2 ^ 31)
    (hplace : w.place = .unlocking)
    (h : act true state w a = some r) :
    (∃ queued, r.2.place = .unlocking ∧ Advances state queued w.lock.phase r.1 r.2.lock.phase) ∨
      ∃ o, w.lock.phase = .returned o ∧ r = (state, unlockEnded w o) := by
  cases a with
  | go queued =>
      simp only [act, advance, hplace] at h
      split at h
      · obtain rfl := Option.some.inj h
        exact .inr ⟨_, by assumption, rfl⟩
      · obtain ⟨q, hq, rfl⟩ := Option.map_eq_some_iff.mp h
        exact .inl ⟨queued, rfl, advances_of_advance hl hlo hhi hq⟩
  | interrupt | timeOut => simp [act, hplace] at h

end Thread

/-! ## No wake-up is lost -/

/-- The thread is in an attempt, or waits for the next one. -/
def Attempting : Phase → Bool
  | .trying _ | .competing _ | .swapping _ _ _ | .took _ | .counting _ | .failed _ => true
  | _ => false

/-- What holds of the threads and of their queue. -/
structure QueuedInv {τ : Type} [Fintype τ] [DecidableEq τ] (count : ℕ) (s : QueuedState τ) :
    Prop where
  test : Inv count s.test
  nodup : s.queue.Nodup
  queued : ∀ t ∈ s.queue, (s.test.thread t).place = .acquiring ∧
    Attempting (s.test.thread t).lock.phase = true
  /-- If the thread that is queued first waits for a wake-up and nobody is about to give it one,
  then there is no permit. -/
  awake : s.unparked = false → (∀ u, s.unparking u = false) → ∀ t, s.First t = true →
    Failed (s.test.thread t).lock.phase = true → s.test.shared = 0

section Attempt

variable {state : ℤ} {w : Worker} {a : Act} {r : ℤ × Worker}

/-- A thread in the queue stays in its call until it leaves the queue. -/
lemma attempting_act (hl : w.lock.Ok) (hlo : 0 ≤ state) (hhi : state + w.lock.held < 2 ^ 31)
    (hplace : w.place = .acquiring) (hattempt : Attempting w.lock.phase = true)
    (h : act true state w a = some r) (hrest : r.2.lock.phase.AtRest = false) :
    r.2.place = .acquiring ∧ Attempting r.2.lock.phase = true := by
  cases acquireStep_of_act hl hlo hhi hplace h with
  | inside hplace' h' =>
      refine ⟨hplace', ?_⟩
      generalize w.lock.phase = p at h' hattempt
      generalize r.2.lock.phase = p' at h' hrest
      generalize r.1 = x at h'
      cases h' <;> first | rfl | exact hattempt | cases hrest
  | givesUp hplace' hsame hphase hreturned =>
      obtain ⟨o, ho⟩ := hreturned
      simp [ho, Phase.AtRest] at hrest
  | ends hphase => simp [hphase, Attempting] at hattempt

/-- An attempt of the thread that is queued first fails only without permits. -/
lemma failed_act (hl : w.lock.Ok) (hlo : 0 ≤ state) (hhi : state + w.lock.held < 2 ^ 31)
    (hplace : w.place = .acquiring) (hattempt : Attempting w.lock.phase = true)
    (hfirst : ∀ k queued, w.lock.phase = .trying k → a = .go queued → queued = false)
    (h : act true state w a = some r) (hafter : Failed r.2.lock.phase = true) : r.1 = 0 := by
  cases acquireStep_of_act hl hlo hhi hplace h with
  | @inside queued r hplace' h' =>
      have hqueued := fun k hk => hfirst k queued hk rfl
      generalize w.lock.phase = p at h' hqueued
      generalize r.2.lock.phase = p' at h' hafter
      generalize r.1 = x at h' ⊢
      cases h' with
      | yielded k htrue => exact absurd (hqueued k rfl) (by simp [htrue])
      | refused k hzero => exact hzero
      | _ => cases hafter
  | givesUp hplace' hsame hphase hreturned =>
      obtain ⟨o, ho⟩ := hreturned
      simp [ho, Failed] at hafter
  | ends hphase => simp [hphase, Attempting] at hattempt

/-- Permits come back only by a compare-and-set of `tryReleaseShared`. -/
lemma shared_act_le (hl : w.lock.Ok) (hlo : 0 ≤ state) (hhi : state + w.lock.held < 2 ^ 31)
    (h : act true state w a = some r)
    (hstays : releasesShared w.lock.phase r.2.lock.phase = false) : r.1 ≤ state := by
  have hadvances : ∀ queued, Advances state queued w.lock.phase r.1 r.2.lock.phase →
      r.1 ≤ state := by
    intro queued h'
    generalize w.lock.phase = p at h' hstays
    generalize r.2.lock.phase = p' at h' hstays
    generalize r.1 = x at h' ⊢
    cases h' with
    | restored => cases hstays
    | took k => omega
    | _ => exact le_rfl
  cases hplace : w.place with
  | acquiring =>
      cases acquireStep_of_act hl hlo hhi hplace h with
      | inside hplace' h' => exact hadvances _ h'
      | givesUp hplace' hsame hphase hreturned => exact hsame.le
      | ends hphase => exact le_rfl
  | unlocking =>
      obtain ⟨queued, -, h'⟩ | ⟨o, -, rfl⟩ := unlockStep_of_act hl hlo hhi hplace h
      · exact hadvances queued h'
      · exact le_rfl
  | _ =>
      cases act_cases h with
      | called hp hq | released hp hq =>
          simp only [TwinsLock.act] at hq
          split_ifs at hq
          obtain rfl := Option.some.inj hq
          exact le_rfl
      | woken hp => exact le_rfl
      | inside hp => simp [hplace, Place.InLock] at hp
      | acquireEnded hp | unlockEnded hp => simp [hplace] at hp

end Attempt

/-- There is no overflow. -/
lemma Inv.room {τ : Type} [Fintype τ] {count : ℕ} {s : TestState τ} (hs : Inv count s)
    (hcount : count < 2 ^ 31) (t : τ) :
    s.shared + (s.thread t).lock.held < 2 ^ 31 := by
  have hle := s.le_total (fun w => w.lock.held) t
  have hbalance := hs.balance
  omega

lemma place_of_failed {w : Worker} (hw : w.Ok) (hfailed : Failed w.lock.phase = true) :
    w.place = .acquiring := by
  simp only [Worker.Ok] at hw
  cases hphase : w.lock.phase with
  | failed k =>
      cases hplace : w.place with
      | acquiring => rfl
      | started => simp [hplace] at hw; simp [hw, Local.new] at hphase
      | _ => simp [hplace, hphase, Phase.AtRest, Unlocking] at hw
  | _ => simp [hphase, Failed] at hfailed

section Queue

variable {τ : Type} [DecidableEq τ] {s : QueuedState τ} {t : τ}

lemma head?_erase_of_ne {queue : List τ} (h : queue.head? ≠ some t) :
    (queue.erase t).head? = queue.head? := by
  cases queue with
  | nil => rfl
  | cons u queue =>
      have hne : u ≠ t := by simpa using h
      rw [List.erase_cons_tail (by simpa using hne)]
      rfl

/-- The thread that is queued first is told so. -/
lemma QueuedState.not_queued_of_admits {a : Act} {k : Kind} {queued : Bool}
    (h : s.admits t a = true) (hfirst : s.First t = true)
    (hphase : (s.test.thread t).lock.phase = .trying k) (ha : a = .go queued) :
    queued = false := by
  subst ha
  simp only [QueuedState.admits, hphase, hfirst, Bool.true_and, Bool.and_eq_true,
    Bool.not_eq_true'] at h
  exact h.2

/-- The queue after an action of a thread that is not first, or that stays first. -/
lemma first_acted {r : ℤ × Worker} {v : τ}
    (hstays : s.First t = true → r.2.lock.phase.AtRest = false) :
    (s.acted t (s.test.after t r)).First v = true ↔ s.First v = true := by
  simp only [QueuedState.first_iff, QueuedState.acted, Threads.State.after_thread_self]
  split
  · rename_i hrest
    rw [head?_erase_of_ne fun hfirst => ?_]
    simp [hstays (QueuedState.first_iff.mpr hfirst)] at hrest
  · rfl

end Queue

section Moves

variable {τ : Type} [Fintype τ] [DecidableEq τ] {count : ℕ} {s s' : QueuedState τ} {t : τ}

/-- Who is in the queue after an action of a thread is in an attempt. -/
lemma queued_acted {a : Act} {r : ℤ × Worker} (hcount : count < 2 ^ 31) (hs : QueuedInv count s)
    (hact : act true s.test.shared (s.test.thread t) a = some r) :
    ∀ u ∈ (s.acted t (s.test.after t r)).queue,
      ((s.test.after t r).thread u).place = .acquiring ∧
        Attempting ((s.test.after t r).thread u).lock.phase = true := by
  intro u hu
  simp only [QueuedState.acted, Threads.State.after_thread_self] at hu
  by_cases hut : u = t
  · subst hut
    rw [Threads.State.after_thread_self]
    split at hu
    · exact absurd hu hs.nodup.not_mem_erase
    · rename_i hrest
      obtain ⟨hplace, hattempt⟩ := hs.queued u hu
      exact attempting_act (hs.test.lock u) hs.test.nonneg (hs.test.room hcount u) hplace hattempt
        hact (by simpa using hrest)
  · rw [Threads.State.after_thread_of_ne _ hut]
    split at hu
    · exact hs.queued u (List.mem_of_mem_erase hu)
    · exact hs.queued u hu

/-- No wake-up is lost in an action of a thread. -/
lemma awake_acted {a : Act} {r : ℤ × Worker} (hcount : count < 2 ^ 31) (hs : QueuedInv count s)
    (htest : Inv count (s.test.after t r)) (hadmits : s.admits t a = true)
    (hfree : s.unparking t = false)
    (hact : act true s.test.shared (s.test.thread t) a = some r)
    (hparked : (s.acted t (s.test.after t r)).unparked = false)
    (hnobody : ∀ u, (s.acted t (s.test.after t r)).unparking u = false) {v : τ}
    (hv : (s.acted t (s.test.after t r)).First v = true)
    (hfailed : Failed ((s.test.after t r).thread v).lock.phase = true) : r.1 = 0 := by
  have hl := hs.test.lock t
  have hlo := hs.test.nonneg
  have hhi := hs.test.room hcount t
  have hself := hnobody t
  simp only [QueuedState.acted, Threads.State.after_thread_self, Function.update_self,
    Bool.or_eq_false_iff] at hself
  obtain ⟨hstays, hleaves⟩ := hself
  -- a thread that left the head of the queue would be about to unpark the next one
  have hrest : s.First t = true → r.2.lock.phase.AtRest = false := by
    intro hfirst
    by_contra hrest
    have hrest : r.2.lock.phase.AtRest = true := by simpa using hrest
    have hok : r.2.lock.Ok := by simpa using htest.lock t
    simp [hfirst, hrest, propagates_of_ok hok hrest] at hleaves
  have hv' : s.First v = true := (first_acted hrest).mp hv
  by_cases hfirst : s.First t = true
  · obtain rfl : v = t := Option.some.inj
      ((QueuedState.first_iff.mp hv').symm.trans (QueuedState.first_iff.mp hfirst))
    obtain ⟨hplace, hattempt⟩ :=
      hs.queued v (List.mem_of_mem_head? (QueuedState.first_iff.mp hfirst))
    exact failed_act hl hlo hhi hplace hattempt
      (fun k queued => QueuedState.not_queued_of_admits hadmits hfirst) hact
      (by simpa using hfailed)
  · have hne : v ≠ t := by
      rintro rfl
      exact hfirst hv'
    have hzero : s.test.shared = 0 := by
      refine hs.awake ?_ (fun u => ?_) v hv' (by simpa [hne] using hfailed)
      · simpa [QueuedState.acted, hfirst] using hparked
      · by_cases hut : u = t
        · rw [hut, hfree]
        · simpa [QueuedState.acted, hut] using hnobody u
    have hle := shared_act_le hl hlo hhi hact hstays
    exact le_antisymm (hzero ▸ hle) htest.nonneg

/-- **One move** keeps the queue as its threads need it. -/
lemma queuedInv_step {l : τ × QueuedAct} (hcount : count < 2 ^ 31) (hs : QueuedInv count s)
    (h : (queuedMachine τ count).step s l = some s') : QueuedInv count s' := by
  obtain ⟨t, b⟩ := l
  cases queuedStep_cases h with
  | @acted a r hadmits hfree hact =>
      have hmove : (machine τ true count).step s.test (t, a) = some (s.test.after t r) :=
        Threads.Program.step_iff.mpr ⟨r, hact, rfl⟩
      have htest : Inv count (s.test.after t r) := inv_step hcount hs.test hmove
      refine ⟨htest, ?_, queued_acted hcount hs hact, fun hparked hnobody v hv hfailed =>
        awake_acted hcount hs htest hadmits hfree hact hparked hnobody hv hfailed⟩
      simp only [QueuedState.acted]
      split
      · exact hs.nodup.erase t
      · exact hs.nodup
  | @enqueued k hphase hk hnew =>
      refine ⟨hs.test, ?_, fun u hu => ?_, fun hparked hnobody v hv hfailed => ?_⟩
      · rw [List.nodup_append_comm, List.singleton_append, List.nodup_cons]
        exact ⟨hnew, hs.nodup⟩
      · rcases List.mem_append.mp hu with hu | hu
        · exact hs.queued u hu
        · obtain rfl := List.mem_singleton.mp hu
          exact ⟨place_of_failed (hs.test.worker u) (by rw [hphase]; rfl), by rw [hphase]; rfl⟩
      · simp only [Bool.or_eq_false_iff, decide_eq_false_iff_not] at hparked
        refine hs.awake hparked.1 hnobody v ?_ hfailed
        rw [QueuedState.first_iff] at hv ⊢
        rwa [List.head?_append_of_ne_nil _ hparked.2] at hv
  | unparked hdue => exact ⟨hs.test, hs.nodup, hs.queued, fun hparked => by cases hparked⟩
  | parkReturned hfirst => exact ⟨hs.test, hs.nodup, hs.queued, fun hparked => by cases hparked⟩

lemma queuedInv_init (h : (queuedMachine τ count).init s) : QueuedInv count s := by
  obtain ⟨htest, hqueue, -, -⟩ := h
  refine ⟨inv_init htest, by simp [hqueue], by simp [hqueue], fun _ _ t hfirst => ?_⟩
  simp [QueuedState.First, hqueue] at hfirst

end Moves

/-! ## No deadlock -/

section Steps

variable (state : ℤ) {l : Local} {w : Worker}

lemma exists_advance (queued : Bool) (hl : l.Ok) (hrest : l.phase.AtRest = false) :
    ∃ q, TwinsLock.advance true queued state l = some q := by
  cases hphase : l.phase with
  | trying k =>
      simp only [TwinsLock.advance, hphase]
      cases l.share.counter with
      | some c => exact ⟨_, rfl⟩
      | none => dsimp only; split <;> exact ⟨_, rfl⟩
  | competing k | swapping k expected newState | restoring expected newState =>
      simp only [TwinsLock.advance, hphase]
      split <;> exact ⟨_, rfl⟩
  | counting k =>
      simp only [Local.Ok, hphase, Phase.Ok] at hl
      obtain ⟨n, -, hshare, -⟩ := hl
      simp [TwinsLock.advance, hphase, hshare]
  | failed k => cases k <;> simp [TwinsLock.advance, hphase]
  | unlocking =>
      simp only [TwinsLock.advance, hphase]
      cases l.share.counter with
      | none => exact ⟨_, rfl⟩
      | some c => dsimp only; split <;> exact ⟨_, rfl⟩
  | idle | returned o => simp [hphase, Phase.AtRest] at hrest
  | _ => simp [TwinsLock.advance, hphase]

/-- Only the queue can keep a thread from its next step. -/
lemma exists_go (hw : w.Ok) (hl : w.lock.Ok) (hend : ¬w.Ended) (queued : Bool) :
    ∃ r, act true state w (.go queued) = some r := by
  have hinside : ∀ place : Place, w.lock.phase ≠ .idle → (∀ o, w.lock.phase ≠ .returned o) →
      ∃ r, inLock true state w place (.go queued) = some r := by
    intro place hidle hreturned
    have hrest : w.lock.phase.AtRest = false := by
      cases hphase : w.lock.phase with
      | idle => exact absurd hphase hidle
      | returned o => exact absurd hphase (hreturned o)
      | _ => rfl
    obtain ⟨q, hq⟩ := exists_advance state queued hl hrest
    exact ⟨_, by simp only [inLock, TwinsLock.act, hq, Option.map_some]; rfl⟩
  simp only [Worker.Ok] at hw
  cases hplace : w.place with
  | started =>
      simp only [hplace] at hw
      simp [act, advance, hplace, inLock, TwinsLock.act, hw, Local.new, Phase.AtRest]
  | acquiring =>
      simp only [hplace] at hw
      simp only [act, advance, hplace]
      split
      · exact ⟨_, rfl⟩
      · rename_i hreturned
        exact hinside _ (fun hidle => by simpa [hidle] using hw.2) hreturned
  | sleeping => simp [act, advance, hplace]
  | leaving =>
      simp only [hplace] at hw
      simp [act, advance, hplace, inLock, TwinsLock.act, hw.1]
  | unlocking =>
      simp only [hplace] at hw
      simp only [act, advance, hplace]
      split
      · exact ⟨_, rfl⟩
      · rename_i hreturned
        exact hinside _ (fun hidle => by simp [Unlocking, hidle] at hw) hreturned
  | ended thrown => exact absurd ⟨thrown, hplace⟩ hend

end Steps

/-- A thread whose attempt has failed has no permit. -/
lemma held_of_failed {w : Worker} (hw : w.Ok) (hl : w.lock.Ok) (hfailed : Failed w.lock.phase = true) :
    w.lock.held = 0 := by
  have hplace := place_of_failed hw hfailed
  simp only [Worker.Ok, hplace] at hw
  obtain ⟨hreleased, hcall⟩ := hw
  cases hphase : w.lock.phase with
  | failed k =>
      simp only [hphase] at hcall
      simp only [Local.Ok, hphase, Phase.Ok] at hl
      obtain ⟨hsame, ⟨n, hbegun, -⟩ | ⟨n, -, hpos⟩, -⟩ := hl
      · simp [Local.held, Share.Holds, hsame, hbegun]
      · simp [Local.depth, hcall.2, hreleased] at hpos
  | _ => simp [hphase, Failed] at hfailed

section Quiet

variable {τ : Type} [DecidableEq τ] {count : ℕ} {s : QueuedState τ} {t : τ}

/-- The queue admits each step but another attempt of a thread that waits. -/
lemma exists_admitted (hready : ∀ k, (s.test.thread t).lock.phase = .failed k → k ≠ .tryLock →
    s.First t = true ∧ s.unparked = true) : ∃ queued, s.admits t (.go queued) = true := by
  refine ⟨TwinsLock.otherFirst s.queue t, ?_⟩
  simp only [QueuedState.admits, TwinsLock.admits]
  cases hphase : (s.test.thread t).lock.phase with
  | trying k =>
      by_cases hfirst : s.First t = true
      · simp [TwinsLock.otherFirst, QueuedState.first_iff.mp hfirst]
      · simp [hfirst]
  | failed k =>
      by_cases hk : k = .tryLock
      · subst hk
        rfl
      · obtain ⟨hfirst, hunparked⟩ := hready k hphase hk
        simp [QueuedState.first_iff.mp hfirst, hunparked]
  | _ => rfl

variable [Fintype τ]

/-- In a quiet state, a thread that has not ended waits in the queue. -/
lemma waits_of_quiet (hs : QueuedInv count s) (hquiet : (queuedMachine τ count).Quiet Own s)
    (hend : ¬(s.test.thread t).Ended) : t ∈ s.queue ∧
      Failed (s.test.thread t).lock.phase = true ∧ (s.First t = true → s.unparked = false) := by
  have hstep : ∀ b, Own (t, b) → queuedStep count s (t, b) = none := fun b hb => hquiet (t, b) hb
  have hfree : s.unparking t = false := by
    by_contra hdue
    have hunpark := hstep .unpark trivial
    simp [queuedStep, hdue] at hunpark
  have hrefused : ∀ queued, s.admits t (.go queued) = false := by
    intro queued
    by_contra hadmits
    have hadmits : s.admits t (.go queued) = true := by simpa using hadmits
    obtain ⟨r, hr⟩ := exists_go s.test.shared (hs.test.worker t) (hs.test.lock t) hend queued
    have hgo := hstep (.base (.go queued)) trivial
    simp only [queuedStep, hadmits, hfree, Bool.not_false, Bool.and_self, if_true,
      Option.map_eq_none_iff] at hgo
    have hsome := Threads.Program.step_iff (P := program true count) (s := s.test)
      (a := (t, .go queued)).mpr ⟨r, hr, rfl⟩
    exact absurd (hgo.symm.trans hsome) (by simp)
  obtain ⟨k, hphase, hk, hwaits⟩ : ∃ k, (s.test.thread t).lock.phase = .failed k ∧ k ≠ .tryLock ∧
      ¬(s.First t = true ∧ s.unparked = true) := by
    by_contra hnot
    push Not at hnot
    obtain ⟨queued, hadmits⟩ := exists_admitted fun k hphase hk => hnot k hphase hk
    exact absurd ((hrefused queued).symm.trans hadmits) Bool.false_ne_true
  refine ⟨?_, by rw [hphase]; rfl, fun hfirst => ?_⟩
  · by_contra hnew
    have henqueue := hstep .enqueue trivial
    simp [queuedStep, hphase, hk, hnew] at henqueue
  · simpa [hfirst] using hwaits

/-- **A quiet state is an end.**  Otherwise some thread would wait in the queue, and the one that is
queued first as well; there would be no permit, but nobody to hold one. -/
lemma ended_of_quiet (hpos : 0 < count) (hs : QueuedInv count s)
    (hquiet : (queuedMachine τ count).Quiet Own s) : ∀ t, (s.test.thread t).Ended := by
  by_contra hnot
  obtain ⟨t, ht⟩ := not_forall.mp hnot
  have hqueue : s.queue ≠ [] := List.ne_nil_of_mem (waits_of_quiet hs hquiet ht).1
  obtain ⟨u, hu⟩ : ∃ u, s.queue.head? = some u := ⟨_, List.head?_eq_some_head hqueue⟩
  have hfirst : s.First u = true := QueuedState.first_iff.mpr hu
  have hunended : ¬(s.test.thread u).Ended := by
    rintro ⟨thrown, hended⟩
    have hplace := (hs.queued u (List.mem_of_mem_head? hu)).1
    cases hended.symm.trans hplace
  obtain ⟨-, hfailed, hparked⟩ := waits_of_quiet hs hquiet hunended
  have hnobody : ∀ v, s.unparking v = false := by
    intro v
    by_contra hdue
    have hunpark : queuedStep count s (v, .unpark) = none := hquiet (v, .unpark) trivial
    simp [queuedStep, hdue] at hunpark
  have hzero : s.test.shared = 0 := hs.awake (hparked hfirst) hnobody u hfirst hfailed
  have hheld : s.test.total (fun w => w.lock.held) = 0 := by
    refine Threads.State.total_eq_zero fun v => ?_
    by_cases hv : (s.test.thread v).Ended
    · exact held_of_ended (hs.test.worker v) (hs.test.lock v) hv
    · exact held_of_failed (hs.test.worker v) (hs.test.lock v) (waits_of_quiet hs hquiet hv).2.1
  have hbalance := hs.test.balance
  rw [hzero, hheld] at hbalance
  simp at hbalance
  omega

end Quiet

end TestTwinsLock

end LearnJava
