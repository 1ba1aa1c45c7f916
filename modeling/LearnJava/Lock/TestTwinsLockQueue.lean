import LearnJava.Lock.FairSync
import LearnJava.Lock.TestTwinsLock

/-!
# The wait queue of `TestTwinsLock`

`main` builds `new TwinsLock(true, 2)`.  Here its threads come with the queue of the fair lock's
synchronizer.  Who enters it, who may try again and who leaves it is as in `FairSync`; in addition
nothing happens in it without a wake-up, as far as that is documented:

* a thread that enters an empty queue tries once more before it parks;
* for any other attempt the thread that is queued first must have been unparked, or `park` must have
  returned by itself;
* `releaseShared` unparks the thread that is queued first if `tryReleaseShared` returns `true`;
* a thread that leaves the head of the queue unparks the next one, unless `tryAcquireShared` gave
  it zero, which says that no further acquisition can succeed;
* `hasQueuedPredecessors()` is `false` for the thread that is queued first.

To unpark another thread is a step of its own, between the one that calls for it and the return of
the method.  A run with the queue is a run of the threads (`run_test`), so that what holds of all
those holds here.
-/

namespace LearnJava

namespace TestTwinsLock

open TwinsLock (Kind Local Phase)

/-! ## The queue -/

/-- The threads and the wait queue of their lock. -/
structure QueuedState (τ : Type) where
  test : TestState τ
  queue : List τ
  /-- The thread that is queued first has been unparked, or has not parked yet. -/
  unparked : Bool
  /-- The threads that are about to unpark the one that is queued first. -/
  unparking : τ → Bool

/-- An action of a thread: one of its code, or of the synchronizer. -/
inductive QueuedAct
  | base (a : Act)
  /-- The thread enters the queue. -/
  | enqueue
  /-- The thread unparks the one that is queued first. -/
  | unpark
  /-- `park` returns by itself, at the end of its time, or because of an interrupt that the method
  ignores. -/
  | parkReturns
  deriving DecidableEq, Repr

/-- A step of one thread. -/
abbrev QueuedMove (τ : Type) := Move (QueuedState τ) (τ × QueuedAct)

/-- `tryReleaseShared` returns `true` in the step between the two phases: its compare-and-set has
succeeded.  Where the counter does not reach zero it returns `false`. -/
def releasesShared : Phase → Phase → Bool
  | .restoring _ _, .returned _ => true
  | _, _ => false

/-- A thread that leaves the head of the queue in this way lets the next one try: it has given up,
or `tryAcquireShared` gave it a positive number, which is its counter. -/
def propagates (l : Local) : Bool :=
  match l.phase with
  | .returned .acquired => 0 < l.share.counter.getD 0
  | _ => true

/-- An attempt of the thread has failed. -/
def Failed : Phase → Bool
  | .failed _ => true
  | _ => false

section Code

variable {τ : Type} [DecidableEq τ]

/-- The thread is queued first. -/
def QueuedState.First (s : QueuedState τ) (t : τ) : Bool := s.queue.head? = some t

lemma QueuedState.first_iff {s : QueuedState τ} {t : τ} :
    s.First t = true ↔ s.queue.head? = some t := decide_eq_true_iff

/-- The queue allows the action of a thread: as in `FairSync`, but the thread that is queued first
is told so, and has been unparked before it tries again. -/
def QueuedState.admits (s : QueuedState τ) (t : τ) : Act → Bool
  | .go queued =>
    let phase := (s.test.thread t).lock.phase
    TwinsLock.admits s.queue t phase (.go queued) &&
      match phase with
      | .trying _ => !(s.First t && queued)
      | .failed .tryLock => true
      | .failed _ => s.unparked
      | _ => true
  | .interrupt | .timeOut => true

/-- The queue after an action of the thread `t`.  It leaves the queue when its call ends, and an
attempt of the first one uses up its wake-up. -/
def QueuedState.acted (s : QueuedState τ) (t : τ) (test : TestState τ) : QueuedState τ :=
  let before := (s.test.thread t).lock.phase
  let after := (test.thread t).lock
  { test
    queue := if after.phase.AtRest then s.queue.erase t else s.queue
    unparked := s.unparked && !(s.First t && (Failed before || after.phase.AtRest))
    unparking := Function.update s.unparking t
      (releasesShared before after.phase ||
        s.First t && after.phase.AtRest && propagates after) }

@[simp] lemma QueuedState.acted_test (s : QueuedState τ) (t : τ) (test : TestState τ) :
    (s.acted t test).test = test := rfl

/-- One action. -/
def queuedStep (count : ℕ) (s : QueuedState τ) : τ × QueuedAct → Option (QueuedState τ)
  | (t, .base a) =>
    if s.admits t a && !s.unparking t then
      ((machine τ true count).step s.test (t, a)).map (s.acted t)
    else none
  | (t, .enqueue) =>
    match (s.test.thread t).lock.phase with
    | .failed k =>
      if k ≠ .tryLock ∧ t ∉ s.queue then
        some { s with queue := s.queue ++ [t], unparked := s.unparked || s.queue = [] }
      else none
    | _ => none
  | (t, .unpark) =>
    if s.unparking t then
      some { s with unparked := true, unparking := Function.update s.unparking t false }
    else none
  | (t, .parkReturns) =>
    if s.First t && Failed (s.test.thread t).lock.phase then some { s with unparked := true }
    else none

/-- Any interleaving of the threads on `new TwinsLock(true, count)`. -/
def queuedMachine (τ : Type) [DecidableEq τ] (count : ℕ) :
    Machine (QueuedState τ) (τ × QueuedAct) where
  init s := (machine τ true count).init s.test ∧ s.queue = [] ∧ s.unparked = false ∧
    ∀ t, s.unparking t = false
  step := queuedStep count

/-- The threads before their first step. -/
def queuedInitial (count : ℕ) (runnable : τ → Runnable) : QueuedState τ :=
  ⟨initial count runnable, [], false, fun _ => false⟩

lemma init_queuedInitial (count : ℕ) (runnable : τ → Runnable) :
    (queuedMachine τ count).init (queuedInitial count runnable) :=
  ⟨init_initial true count runnable, rfl, rfl, fun _ => rfl⟩

/-- The steps of the threads themselves.  The others are what is done to a thread: an interrupt, the
end of its time-out, or a return of `park` without a wake-up. -/
def Own : τ × QueuedAct → Prop
  | (_, .base (.go _)) | (_, .enqueue) | (_, .unpark) => True
  | (_, .base .interrupt) | (_, .base .timeOut) | (_, .parkReturns) => False

/-! ## What a move does -/

/-- The effect of one action. -/
inductive QueuedEffect (s : QueuedState τ) (t : τ) : QueuedAct → QueuedState τ → Prop
  | acted {a : Act} {r : ℤ × Worker} (hadmits : s.admits t a = true)
      (hfree : s.unparking t = false) (hact : act true s.test.shared (s.test.thread t) a = some r) :
      QueuedEffect s t (.base a) (s.acted t (s.test.after t r))
  | enqueued {k : Kind} (hphase : (s.test.thread t).lock.phase = .failed k) (hk : k ≠ .tryLock)
      (hnew : t ∉ s.queue) :
      QueuedEffect s t .enqueue
        { s with queue := s.queue ++ [t], unparked := s.unparked || s.queue = [] }
  | unparked (hdue : s.unparking t = true) :
      QueuedEffect s t .unpark
        { s with unparked := true, unparking := Function.update s.unparking t false }
  | parkReturned (hfirst : s.First t = true) :
      QueuedEffect s t .parkReturns { s with unparked := true }

lemma queuedStep_cases {count : ℕ} {s s' : QueuedState τ} {t : τ} {b : QueuedAct}
    (h : (queuedMachine τ count).step s (t, b) = some s') : QueuedEffect s t b s' := by
  simp only [queuedMachine] at h
  cases b with
  | base a =>
      simp only [queuedStep] at h
      split_ifs at h with hallowed
      obtain ⟨test, hstep, rfl⟩ := Option.map_eq_some_iff.mp h
      obtain ⟨r, hact, rfl⟩ := Threads.Program.step_iff.mp hstep
      simp only [Bool.and_eq_true, Bool.not_eq_true'] at hallowed
      exact .acted hallowed.1 hallowed.2 hact
  | enqueue =>
      simp only [queuedStep] at h
      split at h
      · rename_i k hphase
        split_ifs at h with hnew
        obtain rfl := Option.some.inj h
        exact .enqueued hphase hnew.1 hnew.2
      · cases h
  | unpark =>
      simp only [queuedStep] at h
      split_ifs at h with hdue
      obtain rfl := Option.some.inj h
      exact .unparked hdue
  | parkReturns =>
      simp only [queuedStep] at h
      split_ifs at h with hfirst
      obtain rfl := Option.some.inj h
      exact .parkReturned (Bool.and_eq_true _ _ ▸ hfirst).1

/-- The threads go through a run of their own. -/
lemma run_test {count : ℕ} {ms : List (QueuedMove τ)} {s : QueuedState τ}
    (h : (queuedMachine τ count).Run ms s) : ∃ ls, (machine τ true count).Run ls s.test := by
  induction h with
  | start h => exact ⟨[], .start h.1⟩
  | @snoc ms s l s' hrun hstep ih =>
      obtain ⟨ls, hls⟩ := ih
      obtain ⟨t, b⟩ := l
      cases queuedStep_cases hstep with
      | @acted a r hadmits hfree hact =>
          exact ⟨_, hls.snoc (l := (t, a)) (Threads.Program.step_iff.mpr ⟨r, hact, rfl⟩)⟩
      | _ => exact ⟨ls, hls⟩

end Code

end TestTwinsLock

end LearnJava
