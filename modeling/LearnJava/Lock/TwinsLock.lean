import LearnJava.Foundation.Threads
import LearnJava.Java.Lang

/-!
# `TwinsLock`: a re-entrant lock with several permits

The lock of `lock/app/TwinsLock.java` keeps the number of free permits in the state of an
`AbstractQueuedSynchronizer` and, in a `ThreadLocal`, one counter for each thread that holds it.
`act` gives the atomic steps of its methods: the reads of the state, the compare-and-sets, and
the steps on the thread's own counter.

The synchronizer is used as documented.  `acquireShared`, `acquireSharedInterruptibly` and
`tryAcquireSharedNanos` call `tryAcquireShared` until it gives a number that is not negative;
between two attempts the last two can end with an `InterruptedException`, and the last one when
its time-out has elapsed.  When a thread tries again, and what `hasQueuedPredecessors` answers,
is left open.

Besides its counter every thread carries a record of what it did, which the code does not have:
how often its compare-and-sets took a permit and gave one back, how many of its calls acquired
and released the lock, and what its `Share` was when the current call began.
-/

namespace LearnJava

namespace TwinsLock

/-! ## Threads -/

/-- The methods that acquire the lock. -/
inductive Kind
  | lock
  | lockInterruptibly
  | tryLock
  | timedTryLock
  deriving DecidableEq, Repr

/-- `interrupt()` ends the method with an exception. -/
def Kind.interruptible : Kind → Bool
  | .lockInterruptibly | .timedTryLock => true
  | .lock | .tryLock => false

/-- How a call ended; `tryLock` gave `true` in `acquired` and `false` in `notAcquired`. -/
inductive Outcome
  | acquired
  | notAcquired
  | unlocked
  | thrown (e : Throwable)
  deriving DecidableEq, Repr

/-- Where a thread is. -/
inductive Phase
  | idle
  /-- In a method that acquires, before its first attempt. -/
  | entered (k : Kind)
  /-- At the beginning of `tryAcquireShared`. -/
  | trying (k : Kind)
  /-- At the head of the loop of `tryAcquireShared`. -/
  | competing (k : Kind)
  /-- At the `compareAndSetState` of `tryAcquireShared`. -/
  | swapping (k : Kind) (state newState : ℤ)
  /-- After that `compareAndSetState`, without a counter. -/
  | took (k : Kind)
  /-- With a new counter that has not been incremented. -/
  | counting (k : Kind)
  /-- `tryAcquireShared` gave a negative number. -/
  | failed (k : Kind)
  /-- At the beginning of `tryReleaseShared`. -/
  | unlocking
  /-- At `counterHolder.remove()`. -/
  | dropping
  /-- At the head of the loop of `tryReleaseShared`. -/
  | releasing
  /-- At the `compareAndSetState` of `tryReleaseShared`. -/
  | restoring (state newState : ℤ)
  | returned (o : Outcome)
  deriving DecidableEq, Repr

/-- What a thread has of the lock: its counter, and the compare-and-sets that took a permit for
it and gave one back. -/
structure Share where
  counter : Option ℤ
  taken : ℕ
  givenBack : ℕ
  deriving DecidableEq, Repr

/-- A thread. -/
structure Local where
  phase : Phase
  share : Share
  /-- The share when the last call began. -/
  begun : Share
  /-- The calls that acquired the lock. -/
  acquired : ℕ
  /-- The calls of `unlock` that returned. -/
  released : ℕ
  deriving DecidableEq, Repr

/-! ## The code -/

/-- `shouldAcquire()`, given what `hasQueuedPredecessors()` answers. -/
def shouldAcquire (fair queued : Bool) : Bool := if fair then !queued else true

/-- `counter.incrementAndGet()`, which `tryAcquireShared` returns. -/
def incrementAndGet (l : Local) (k : Kind) (c : ℤ) : Local :=
  let count := wrap32 (c + 1)
  let l := { l with share := { l.share with counter := some count } }
  if count ≥ 0 then { l with phase := .returned .acquired, acquired := l.acquired + 1 }
  else { l with phase := .failed k }

/-- An action of a thread: a call, the next step of its code — with the answer of
`hasQueuedPredecessors()` where it is asked —, or the end of a call by an interrupt or by its
time-out. -/
inductive Act
  | call (k : Kind)
  | unlock
  | go (queued : Bool)
  | giveUp (interrupted : Bool)
  deriving DecidableEq, Repr

/-- A thread that is in no call. -/
def Phase.AtRest : Phase → Bool
  | .idle | .returned _ => true
  | _ => false

/-- The next step of the code. -/
def advance (fair queued : Bool) (state : ℤ) (l : Local) : Option (ℤ × Local) :=
  match l.phase with
  | .entered k => some (state, { l with phase := .trying k })
  | .trying k =>
    match l.share.counter with
    | some c => some (state, incrementAndGet l k c)
    | none =>
      if shouldAcquire fair queued then some (state, { l with phase := .competing k })
      else some (state, { l with phase := .failed k })
  | .competing k =>
    let newState := wrap32 (state - 1)
    if newState < 0 then some (state, { l with phase := .failed k })
    else some (state, { l with phase := .swapping k state newState })
  | .swapping k expected newState =>
    if state = expected then
      some (newState, { l with
        phase := .took k, share := { l.share with taken := l.share.taken + 1 } })
    else some (state, { l with phase := .competing k })
  | .took k =>
    some (state, { l with phase := .counting k, share := { l.share with counter := some 0 } })
  | .counting k => l.share.counter.map fun c => (state, incrementAndGet l k c)
  | .failed k =>
    match k with
    | .tryLock => some (state, { l with phase := .returned .notAcquired })
    | _ => some (state, { l with phase := .trying k })
  | .unlocking =>
    match l.share.counter with
    | none => some (state, { l with phase := .returned (.thrown .nullPointerException) })
    | some c =>
      let count := wrap32 (c - 1)
      let l := { l with share := { l.share with counter := some count } }
      if count > 0 then
        some (state, { l with phase := .returned .unlocked, released := l.released + 1 })
      else some (state, { l with phase := .dropping })
  | .dropping =>
    some (state, { l with phase := .releasing, share := { l.share with counter := none } })
  | .releasing => some (state, { l with phase := .restoring state (wrap32 (state + 1)) })
  | .restoring expected newState =>
    if state = expected then
      some (newState, { l with
        phase := .returned .unlocked
        share := { l.share with givenBack := l.share.givenBack + 1 }
        released := l.released + 1 })
    else some (state, { l with phase := .releasing })
  | .idle | .returned _ => none

/-- One action. -/
def act (fair : Bool) (state : ℤ) (l : Local) : Act → Option (ℤ × Local)
  | .call k =>
    if l.phase.AtRest then some (state, { l with phase := .entered k, begun := l.share }) else none
  | .unlock =>
    if l.phase.AtRest then some (state, { l with phase := .unlocking, begun := l.share }) else none
  | .go queued => advance fair queued state l
  | .giveUp interrupted =>
    match l.phase with
    | .entered k =>
      if interrupted && k.interruptible then
        some (state, { l with phase := .returned (.thrown .interruptedException) })
      else none
    | .failed k =>
      if interrupted && k.interruptible then
        some (state, { l with phase := .returned (.thrown .interruptedException) })
      else if !interrupted && k == .timedTryLock then
        some (state, { l with phase := .returned .notAcquired })
      else none
    | _ => none

/-- A thread that has not called the lock yet. -/
def Local.new : Local := ⟨.idle, ⟨none, 0, 0⟩, ⟨none, 0, 0⟩, 0, 0⟩

/-- The threads of `new TwinsLock(fair, count)`. -/
def program (fair : Bool) (count : ℕ) : Threads.Program ℤ Local Act where
  initShared state := state = count
  initThread l := l = Local.new
  act := act fair

/-- The lock's state and its threads. -/
abbrev LockState (τ : Type) := Threads.State τ ℤ Local

/-- A step of one thread. -/
abbrev LockMove (τ : Type) := Move (LockState τ) (τ × Act)

/-- Any interleaving of calls on `new TwinsLock(fair, count)`. -/
def machine (τ : Type) [DecidableEq τ] (fair : Bool) (count : ℕ) :
    Machine (LockState τ) (τ × Act) := (program fair count).machine τ

/-- `new TwinsLock(fair, count)`, with no thread in any of its methods. -/
def initial (τ : Type) (count : ℕ) : LockState τ := ⟨count, fun _ => Local.new⟩

lemma init_initial (τ : Type) [DecidableEq τ] (fair : Bool) (count : ℕ) :
    (machine τ fair count).init (initial τ count) := ⟨rfl, fun _ => rfl⟩

/-! ## What the lock promises -/

/-- The thread took a permit by a compare-and-set and has not given it back by one. -/
def Share.Holds (sh : Share) : Prop := sh.givenBack < sh.taken

instance (sh : Share) : Decidable sh.Holds := inferInstanceAs (Decidable (_ < _))

/-- The calls of a thread that acquired the lock and were not undone. -/
def Local.depth (l : Local) : ℤ := l.acquired - l.released

/-- The threads that hold a permit. -/
def holders {τ : Type} [Fintype τ] (s : LockState τ) : Finset τ :=
  Finset.univ.filter fun t => (s.thread t).share.Holds

/-- The thread is not between a compare-and-set and the change of its counter. -/
def Phase.Settled : Phase → Bool
  | .took _ | .counting _ | .dropping | .releasing | .restoring _ _ => false
  | _ => true

/-- What an `unlock` that is not over yet has already taken off the counter. -/
def Phase.decremented : Phase → ℤ
  | .dropping | .releasing | .restoring _ _ => 1
  | _ => 0

/-- What a call that ended in `o` did to the share it began with: an acquisition takes a permit
only if the thread had none, `unlock` gives one back only if it is the outermost one, and any
other end changes nothing. -/
def Outcome.Meets (begun share : Share) : Outcome → Prop
  | .acquired =>
    share = match begun.counter with
      | none => ⟨some 1, begun.taken + 1, begun.givenBack⟩
      | some c => ⟨some (c + 1), begun.taken, begun.givenBack⟩
  | .unlocked => ∃ c, begun.counter = some c ∧
    share = if c = 1 then ⟨none, begun.taken, begun.givenBack + 1⟩
      else ⟨some (c - 1), begun.taken, begun.givenBack⟩
  | .notAcquired | .thrown _ => share = begun

/-- The promises about a state. -/
structure Correct {τ : Type} [Fintype τ] (count : ℕ) (s : LockState τ) : Prop where
  state_nonneg : 0 ≤ s.shared
  balance : s.shared + (holders s).card = count
  card_holders_le : (holders s).card ≤ count
  counter_eq : ∀ t, (s.thread t).share.counter.getD 0 + (s.thread t).phase.decremented =
    (s.thread t).depth
  counter_of_holder : ∀ t, (s.thread t).phase.Settled → t ∈ holders s →
    (s.thread t).share.counter = some (s.thread t).depth
  counter_of_stranger : ∀ t, (s.thread t).phase.Settled → t ∉ holders s →
    (s.thread t).share.counter = none ∧ (s.thread t).depth = 0
  failed : ∀ t k, (s.thread t).phase = .failed k → (s.thread t).share = (s.thread t).begun
  returned : ∀ t o, (s.thread t).phase = .returned o →
    o.Meets (s.thread t).begun (s.thread t).share

/-- The promises about a move: an attempt of a holder succeeds without touching the state, and
`unlock` by a thread that holds nothing throws and changes nothing. -/
structure MoveCorrect {τ : Type} [Fintype τ] (m : LockMove τ) : Prop where
  reentrant : ∀ k, (m.pre.thread m.label.1).phase = .trying k → m.label.1 ∈ holders m.pre →
    (m.post.thread m.label.1).phase = .returned .acquired ∧ m.post.shared = m.pre.shared
  stranger : (m.pre.thread m.label.1).phase = .unlocking → m.label.1 ∉ holders m.pre →
    (m.post.thread m.label.1).phase = .returned (.thrown .nullPointerException) ∧
      m.post.shared = m.pre.shared ∧
      ∀ u, (m.post.thread u).share.counter = (m.pre.thread u).share.counter

/-- No thread acquires the lock for the `2^31`-th time without releasing it. -/
def Nested {τ : Type} (m : LockMove τ) : Prop :=
  match m.label.2 with
  | .call _ => (m.pre.thread m.label.1).depth + 1 < 2 ^ 31
  | _ => True

instance {τ : Type} : DecidablePred (Nested : LockMove τ → Prop)
  | ⟨pre, (t, .call _), _⟩ => inferInstanceAs (Decidable ((pre.thread t).depth + 1 < 2 ^ 31))
  | ⟨_, (_, .unlock), _⟩ | ⟨_, (_, .go _), _⟩ | ⟨_, (_, .giveUp _), _⟩ => isTrue trivial

end TwinsLock

end LearnJava
