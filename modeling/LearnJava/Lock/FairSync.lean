import LearnJava.Lock.TwinsLock

/-!
# The wait queue of a fair `TwinsLock`

`TwinsLock` leaves open when a thread tries again and what `hasQueuedPredecessors` answers.  Here
the lock of `new TwinsLock(true, count)` comes with the queue of its `AbstractQueuedSynchronizer`,
as far as that is documented:

* a thread whose attempt failed enters the queue at its end, unless its method is `tryLock`;
* only the thread that is queued first tries again;
* a thread leaves the queue when its call ends, with a permit or because it gives up;
* `hasQueuedPredecessors()` is `true` while another thread is queued first, and otherwise open.

A run of the fair lock is a run of the lock (`run_lock`), so that what holds of all those holds
here.
-/

namespace LearnJava

namespace TwinsLock

/-- A fair lock with its wait queue. -/
structure FairState (τ : Type) where
  lock : LockState τ
  queue : List τ

/-- An action of a thread: one of the lock, or its entry into the queue. -/
inductive FairAct
  | base (a : Act)
  | enqueue
  deriving DecidableEq, Repr

/-- A step of one thread. -/
abbrev FairMove (τ : Type) := Move (FairState τ) (τ × FairAct)

section Code

variable {τ : Type} [DecidableEq τ]

/-- Another thread is queued first. -/
def otherFirst (queue : List τ) (t : τ) : Bool :=
  match queue.head? with
  | some u => u ≠ t
  | none => false

/-- The queue allows the action of a thread: an answer of `hasQueuedPredecessors()`, or another
attempt after one that failed. -/
def admits (queue : List τ) (t : τ) : Phase → Act → Bool
  | .trying _, .go queued => otherFirst queue t → queued
  | .failed .tryLock, .go _ => true
  | .failed _, .go _ => queue.head? = some t
  | _, _ => true

/-- One action. -/
def fairStep (count : ℕ) (s : FairState τ) : τ × FairAct → Option (FairState τ)
  | (t, .base a) =>
    if admits s.queue t (s.lock.thread t).phase a then
      ((machine τ true count).step s.lock (t, a)).map fun lock =>
        ⟨lock, if (lock.thread t).phase.AtRest then s.queue.erase t else s.queue⟩
    else none
  | (t, .enqueue) =>
    match (s.lock.thread t).phase with
    | .failed k => if k ≠ .tryLock ∧ t ∉ s.queue then some ⟨s.lock, s.queue ++ [t]⟩ else none
    | _ => none

/-- Any interleaving of calls on `new TwinsLock(true, count)`. -/
def fairMachine (τ : Type) [DecidableEq τ] (count : ℕ) : Machine (FairState τ) (τ × FairAct) where
  init s := (machine τ true count).init s.lock ∧ s.queue = []
  step := fairStep count

/-- `new TwinsLock(true, count)`, with no thread in any of its methods. -/
def fairInitial (τ : Type) (count : ℕ) : FairState τ := ⟨initial τ count, []⟩

lemma init_fairInitial (count : ℕ) : (fairMachine τ count).init (fairInitial τ count) :=
  ⟨init_initial τ true count, rfl⟩

/-! ## What a move does -/

/-- A move of the fair lock is a step of the lock that the queue allows, or an entry into the
queue. -/
lemma fairStep_cases {count : ℕ} {s s' : FairState τ} {t : τ} {b : FairAct}
    (h : (fairMachine τ count).step s (t, b) = some s') :
    (∃ a r, b = .base a ∧ admits s.queue t (s.lock.thread t).phase a ∧
        act true s.lock.shared (s.lock.thread t) a = some r ∧
        s' = ⟨s.lock.after t r, if r.2.phase.AtRest then s.queue.erase t else s.queue⟩) ∨
      b = .enqueue ∧ (∃ k, (s.lock.thread t).phase = .failed k ∧ k ≠ .tryLock) ∧ t ∉ s.queue ∧
        s' = ⟨s.lock, s.queue ++ [t]⟩ := by
  cases b with
  | base a =>
      simp only [fairMachine, fairStep] at h
      split_ifs at h with hadmits
      obtain ⟨lock, hstep, rfl⟩ := Option.map_eq_some_iff.mp h
      obtain ⟨r, hact, rfl⟩ := Threads.Program.step_iff.mp hstep
      refine .inl ⟨a, r, rfl, hadmits, hact, ?_⟩
      simp only [Threads.State.after_thread_self]
  | enqueue =>
      simp only [fairMachine, fairStep] at h
      split at h
      · rename_i k hph
        split_ifs at h with hnew
        exact .inr ⟨rfl, ⟨k, hph, hnew.1⟩, hnew.2, (Option.some.inj h).symm⟩
      · cases h

/-- The lock goes through a run of its own. -/
lemma run_lock {count : ℕ} {ms : List (FairMove τ)} {s : FairState τ}
    (h : (fairMachine τ count).Run ms s) : ∃ ls, (machine τ true count).Run ls s.lock := by
  induction h with
  | start h => exact ⟨[], .start h.1⟩
  | @snoc ms s l s' hrun hstep ih =>
      obtain ⟨ls, hls⟩ := ih
      obtain ⟨t, b⟩ := l
      obtain ⟨a, r, rfl, -, hact, rfl⟩ | ⟨-, -, -, rfl⟩ := fairStep_cases hstep
      · exact ⟨_, hls.snoc (l := (t, a)) (Threads.Program.step_iff.mpr ⟨r, hact, rfl⟩)⟩
      · exact ⟨ls, hls⟩

end Code

end TwinsLock

end LearnJava
