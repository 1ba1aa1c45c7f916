import LearnJava.Foundation.Threads
import LearnJava.Java.CountDownLatch
import LearnJava.Java.Lang

/-!
# A factory of threads that start together

`lock/factory/DefaultThreadFacotry.java`: `newThread` makes threads that wait at a latch, and
`startAllThread` opens it.  A latch that is open is replaced by the next `newThread`, which tests
the volatile field, sets it and reads it again in separate steps.

A step of a call is one access to a field of the factory or to a latch.  Any threads may call the
methods; `returned` records the threads that `newThread` has returned, and a call of
`startAllThread` remembers which those were when it began.
-/

namespace LearnJava

namespace DefaultThreadFacotry

/-- A thread with its `ReentrantLockTryCallable`. -/
structure CreatedThread where
  name : String
  countDownLatch : Latch
  needTry : Bool
  deriving DecidableEq, Repr

/-- The fields of the factory, the latches and the threads created so far. -/
structure Shared where
  threadIndex : ℤ
  countDownLatch : Latch
  flag : Bool
  latches : Latches
  threads : List CreatedThread
  returned : List CreatedThread

/-- Where a caller is: at the access that is named. -/
inductive Place
  | idle
  /-- `newThread`: reading `countDownLatch`. -/
  | testing
  /-- `countDownLatch.getCount() == 0` -/
  | counting (latch : Latch)
  /-- `countDownLatch = new CountDownLatch(1)` -/
  | replacing
  /-- `threadIndex.getAndIncrement()` -/
  | indexing
  /-- Reading `countDownLatch` for `new ReentrantLockTryCallable`. -/
  | taking (threadIndex : ℤ)
  /-- Reading `flag`, and `new Thread`. -/
  | creating (threadIndex : ℤ) (latch : Latch)
  /-- `return thread` -/
  | returning (thread : CreatedThread)
  /-- `startAllThread`: reading `countDownLatch`. -/
  | starting (before : List CreatedThread)
  /-- `countDownLatch.countDown()` -/
  | opening (before : List CreatedThread) (latch : Latch)
  /-- The end of `startAllThread`. -/
  | ending (before : List CreatedThread)
  deriving DecidableEq, Repr

def needTry (flag : Bool) (index : ℤ) : Bool :=
  if flag then index.tmod 2 == 0 else index.tmod 2 != 0

/-- `new Thread(new ReentrantLockTryCallable(lock, countDownLatch, needTry(flag, threadIndex)))`,
with its name. -/
def newCreatedThread (threadIndex : ℤ) (latch : Latch) (flag : Bool) : CreatedThread :=
  ⟨"MatchaThread - " ++ toString threadIndex, latch, needTry flag threadIndex⟩

/-- The next step of a call. -/
def advance (x : Shared) : Place → Option (Shared × Place)
  | .idle => none
  | .testing => some (x, .counting x.countDownLatch)
  | .counting latch => some (x, if x.latches.getCount latch = 0 then .replacing else .indexing)
  | .replacing => some ({ x with
      latches := x.latches.new 1
      countDownLatch := x.latches.created }, .indexing)
  | .indexing => some ({ x with threadIndex := wrap32 (x.threadIndex + 1) }, .taking x.threadIndex)
  | .taking threadIndex => some (x, .creating threadIndex x.countDownLatch)
  | .creating threadIndex latch =>
    let thread := newCreatedThread threadIndex latch x.flag
    some ({ x with threads := x.threads ++ [thread] }, .returning thread)
  | .returning thread => some ({ x with returned := x.returned ++ [thread] }, .idle)
  | .starting before => some (x, .opening before x.countDownLatch)
  | .opening before latch => some ({ x with latches := x.latches.countDown latch }, .ending before)
  | .ending _ => some (x, .idle)

/-- An action: a call is begun, or goes on. -/
inductive Act
  | newThread
  | startAllThread
  | setFlag (flag : Bool)
  | go
  deriving DecidableEq, Repr

/-- One action. -/
def act (x : Shared) (place : Place) : Act → Option (Shared × Place)
  | .newThread => if place = .idle then some (x, .testing) else none
  | .startAllThread => if place = .idle then some (x, .starting x.returned) else none
  | .setFlag flag => if place = .idle then some ({ x with flag }, .idle) else none
  | .go => advance x place

/-- The factory of `getInstance()`: its latch is the only one. -/
def Shared.initial : Shared := ⟨0, 0, true, Latches.empty.new 1, [], []⟩

/-- Any callers of one factory. -/
def program : Threads.Program Shared Place Act where
  initShared x := x = .initial
  initThread place := place = .idle
  act := act

/-- The factory and its callers. -/
abbrev FactoryState (τ : Type) := Threads.State τ Shared Place

/-- A step of a caller. -/
abbrev FactoryMove (τ : Type) := Move (FactoryState τ) (τ × Act)

/-- Any interleaving of the callers. -/
def machine (τ : Type) [DecidableEq τ] : Machine (FactoryState τ) (τ × Act) := program.machine τ

/-- Before the first call. -/
def initial (τ : Type) : FactoryState τ := ⟨.initial, fun _ => .idle⟩

lemma init_initial (τ : Type) [DecidableEq τ] : (machine τ).init (initial τ) :=
  ⟨rfl, fun _ => rfl⟩

/-! ## What one action does -/

/-- A place of a call that has neither a latch for a thread nor threads to start. -/
def Place.Free : Place → Bool
  | .idle | .testing | .counting _ | .replacing | .indexing | .taking _ => true
  | _ => false

/-- The effect of one action, with the place it is taken from. -/
inductive Effect (x : Shared) : Place → Act → Shared → Place → Prop
  | moved {place place' : Place} {a : Act} {threadIndex : ℤ} {flag : Bool}
      (hplace : place.Free = true) (hne : place ≠ .replacing) (hplace' : place'.Free = true) :
      Effect x place a { x with threadIndex, flag } place'
  | replaced : Effect x .replacing .go { x with
      latches := x.latches.new 1
      countDownLatch := x.latches.created } .indexing
  | took {threadIndex : ℤ} :
      Effect x (.taking threadIndex) .go x (.creating threadIndex x.countDownLatch)
  | created {threadIndex : ℤ} {latch : Latch} {thread : CreatedThread}
      (hthread : thread.countDownLatch = latch) :
      Effect x (.creating threadIndex latch) .go { x with threads := x.threads ++ [thread] }
        (.returning thread)
  | returned {thread : CreatedThread} :
      Effect x (.returning thread) .go { x with returned := x.returned ++ [thread] } .idle
  | began : Effect x .idle .startAllThread x (.starting x.returned)
  | read {before : List CreatedThread} :
      Effect x (.starting before) .go x (.opening before x.countDownLatch)
  | opened {before : List CreatedThread} {latch : Latch} :
      Effect x (.opening before latch) .go { x with latches := x.latches.countDown latch }
        (.ending before)
  | ended {before : List CreatedThread} : Effect x (.ending before) .go x .idle

section Inversion

variable {x x' : Shared} {place place' : Place}

lemma advance_cases (h : advance x place = some (x', place')) : Effect x place .go x' place' := by
  cases place with
  | idle => simp [advance] at h
  | testing =>
      obtain ⟨rfl, rfl⟩ := Prod.mk.inj (Option.some.inj h)
      exact .moved rfl nofun rfl
  | counting latch =>
      obtain ⟨rfl, rfl⟩ := Prod.mk.inj (Option.some.inj h)
      refine .moved rfl nofun ?_
      split_ifs <;> rfl
  | replacing =>
      obtain ⟨rfl, rfl⟩ := Prod.mk.inj (Option.some.inj h)
      exact .replaced
  | indexing =>
      obtain ⟨rfl, rfl⟩ := Prod.mk.inj (Option.some.inj h)
      exact .moved rfl nofun rfl
  | taking threadIndex =>
      obtain ⟨rfl, rfl⟩ := Prod.mk.inj (Option.some.inj h)
      exact .took
  | creating threadIndex latch =>
      obtain ⟨rfl, rfl⟩ := Prod.mk.inj (Option.some.inj h)
      exact .created rfl
  | returning thread =>
      obtain ⟨rfl, rfl⟩ := Prod.mk.inj (Option.some.inj h)
      exact .returned
  | starting before =>
      obtain ⟨rfl, rfl⟩ := Prod.mk.inj (Option.some.inj h)
      exact .read
  | opening before latch =>
      obtain ⟨rfl, rfl⟩ := Prod.mk.inj (Option.some.inj h)
      exact .opened
  | ending before =>
      obtain ⟨rfl, rfl⟩ := Prod.mk.inj (Option.some.inj h)
      exact .ended

/-- Every action has one of the effects. -/
lemma act_cases {a : Act} (h : act x place a = some (x', place')) :
    Effect x place a x' place' := by
  cases a with
  | go => exact advance_cases h
  | newThread =>
      simp only [act] at h
      split_ifs at h with hplace
      obtain ⟨rfl, rfl⟩ := Prod.mk.inj (Option.some.inj h)
      subst hplace
      exact .moved rfl nofun rfl
  | startAllThread =>
      simp only [act] at h
      split_ifs at h with hplace
      obtain ⟨rfl, rfl⟩ := Prod.mk.inj (Option.some.inj h)
      subst hplace
      exact .began
  | setFlag flag =>
      simp only [act] at h
      split_ifs at h with hplace
      obtain ⟨rfl, rfl⟩ := Prod.mk.inj (Option.some.inj h)
      subst hplace
      exact .moved rfl nofun rfl

/-- What a move of the machine does. -/
lemma step_cases {τ : Type} [DecidableEq τ] {s s' : FactoryState τ} {t : τ} {a : Act}
    (h : (machine τ).step s (t, a) = some s') :
    ∃ x place, Effect s.shared (s.thread t) a x place ∧ s' = s.after t (x, place) := by
  obtain ⟨⟨x, place⟩, hact, rfl⟩ := Threads.Program.step_iff.mp h
  exact ⟨x, place, act_cases hact, rfl⟩

end Inversion

end DefaultThreadFacotry

end LearnJava
