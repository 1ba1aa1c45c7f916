import LearnJava.Foundation.Threads
import LearnJava.Java.CountDownLatch
import LearnJava.Java.Lang

/-!
# A factory whose threads read the latch themselves

`lock/factory/ReadWriteThreadFacotry.java`: `newGetThread` and `newPutThread` create and start a
thread that waits at a latch before it works with the cache; `startAllThread` opens the latch in the
volatile field and puts a new one in its place.  The `GetRunnable` or `PutRunnable` of a thread is
an inner object of the factory: it reads the field in its own first step, whenever the scheduler
comes to it.

Any threads may call the methods.  A created thread is the number of those created before it, and a
call of `startAllThread` remembers how many there were when it began.
-/

namespace LearnJava

namespace ReadWriteThreadFacotry

/-- A created thread: its runnable, its name, whether it was started, the latch that it has read and
whether its `await` has returned. -/
structure CreatedThread where
  puts : Bool
  name : Option String
  started : Bool
  latch : Option Latch
  past : Bool
  deriving DecidableEq, Repr

/-- `new Thread(new GetRunnable())` or `new Thread(new PutRunnable())` -/
def CreatedThread.new (puts : Bool) : CreatedThread := ⟨puts, none, false, none, false⟩

/-- The fields of the factory, the latches and the created threads. -/
structure Shared where
  getThreadNumber : ℤ
  putThreadNumber : ℤ
  countDownLatch : Latch
  latches : Latches
  threads : List CreatedThread

/-- Where a caller is: at the call or the access that is named. -/
inductive Place
  | idle
  /-- `getThreadNumber.getAndIncrement()`, or that of `putThreadNumber`, and `setName`. -/
  | naming (puts : Bool) (thread : ℕ)
  /-- `start()` -/
  | launching (thread : ℕ)
  /-- `startAllThread`: reading `countDownLatch`. -/
  | reading (before : ℕ)
  /-- `countDownLatch.countDown()` -/
  | opening (before : ℕ) (latch : Latch)
  /-- `countDownLatch = new CountDownLatch(1)` -/
  | replacing (before : ℕ) (latch : Latch)
  /-- The end of `startAllThread`. -/
  | ending (before : ℕ)
  deriving DecidableEq, Repr

/-- `String.format(getThreadFormatter, n)` or `String.format(putThreadFormatter, n)` -/
def threadName (puts : Bool) (n : ℤ) : String :=
  (if puts then "Matcha_Put_Thread - " else "Matcha_Get_Thread - ") ++ toString n

/-- The next step of a call. -/
def advance (x : Shared) : Place → Option (Shared × Place)
  | .idle => none
  | .naming puts thread =>
    let number := if puts then x.putThreadNumber else x.getThreadNumber
    let next := wrap32 (number + 1)
    some ({ x with
      getThreadNumber := if puts then x.getThreadNumber else next
      putThreadNumber := if puts then next else x.putThreadNumber
      threads := x.threads.modify thread fun r =>
        { r with name := some (threadName puts number) } }, .launching thread)
  | .launching thread =>
    some ({ x with threads := x.threads.modify thread fun r => { r with started := true } }, .idle)
  | .reading before => some (x, .opening before x.countDownLatch)
  | .opening before latch =>
    some ({ x with latches := x.latches.countDown latch }, .replacing before latch)
  | .replacing before _ => some ({ x with
      latches := x.latches.new 1
      countDownLatch := x.latches.created }, .ending before)
  | .ending _ => some (x, .idle)

/-- An action of a caller: a call is begun, or goes on. -/
inductive Act
  | newGetThread
  | newPutThread
  | startAllThread
  | go
  deriving DecidableEq, Repr

/-- `newGetThread` or `newPutThread` begins with the new thread. -/
def create (x : Shared) (puts : Bool) : Shared × Place :=
  ({ x with threads := x.threads ++ [.new puts] }, .naming puts x.threads.length)

/-- One action of a caller. -/
def act (x : Shared) (place : Place) : Act → Option (Shared × Place)
  | .newGetThread => if place = .idle then some (create x false) else none
  | .newPutThread => if place = .idle then some (create x true) else none
  | .startAllThread => if place = .idle then some (x, .reading x.threads.length) else none
  | .go => advance x place

/-- The next step of `run` of either runnable, up to the work with the cache: reading
`countDownLatch`, and the return of its `await`. -/
def CreatedThread.run (x : Shared) (thread : CreatedThread) : Option CreatedThread :=
  if thread.started then
    match thread.latch with
    | none => some { thread with latch := some x.countDownLatch }
    | some latch =>
      if thread.past = false ∧ x.latches.Open latch then some { thread with past := true } else none
  else none

/-- The scheduler comes to a created thread. -/
def schedule (x : Shared) (i : ℕ) : Option Shared :=
  (x.threads[i]?.bind fun thread => thread.run x).map fun thread =>
    { x with threads := x.threads.set i thread }

/-- The factory of `getInstance()`: its latch is the only one. -/
def Shared.initial : Shared := ⟨0, 0, 0, Latches.empty.new 1, []⟩

/-- The factory and its callers. -/
abbrev FactoryState (τ : Type) := Threads.State τ Shared Place

/-- Who takes a step. -/
inductive Label (τ : Type)
  | caller (t : τ) (a : Act)
  | created (i : ℕ)
  deriving DecidableEq, Repr

/-- A step of a caller or of a created thread. -/
abbrev FactoryMove (τ : Type) := Move (FactoryState τ) (Label τ)

/-- Any interleaving of any callers and the threads they create. -/
def machine (τ : Type) [DecidableEq τ] : Machine (FactoryState τ) (Label τ) where
  init s := s.shared = .initial ∧ ∀ t, s.thread t = .idle
  step s
    | .caller t a => (act s.shared (s.thread t) a).map (s.after t)
    | .created i => (schedule s.shared i).map fun shared => { s with shared }

/-- Before the first call. -/
def initial (τ : Type) : FactoryState τ := ⟨.initial, fun _ => .idle⟩

lemma init_initial (τ : Type) [DecidableEq τ] : (machine τ).init (initial τ) :=
  ⟨rfl, fun _ => rfl⟩

/-! ## What one step does -/

/-- The latch that a thread has read, and whether it is past it; none if there is no such thread. -/
def Shared.status (x : Shared) (i : ℕ) : Option (Option Latch × Bool) :=
  x.threads[i]?.map fun thread => (thread.latch, thread.past)

/-- The effect of one action of a caller, with the place it is taken from. -/
inductive Effect (x : Shared) : Place → Act → Shared → Place → Prop
  | created {a : Act} {puts : Bool} :
      Effect x .idle a { x with threads := x.threads ++ [.new puts] }
        (.naming puts x.threads.length)
  | named {puts : Bool} {thread : ℕ} {getThreadNumber putThreadNumber : ℤ} {name : String} :
      Effect x (.naming puts thread) .go { x with
        getThreadNumber, putThreadNumber
        threads := x.threads.modify thread fun r => { r with name := some name } }
        (.launching thread)
  | launched {thread : ℕ} :
      Effect x (.launching thread) .go { x with
        threads := x.threads.modify thread fun r => { r with started := true } } .idle
  | began : Effect x .idle .startAllThread x (.reading x.threads.length)
  | read {before : ℕ} : Effect x (.reading before) .go x (.opening before x.countDownLatch)
  | opened {before : ℕ} {latch : Latch} :
      Effect x (.opening before latch) .go { x with latches := x.latches.countDown latch }
        (.replacing before latch)
  | replaced {before : ℕ} {latch : Latch} :
      Effect x (.replacing before latch) .go { x with
        latches := x.latches.new 1
        countDownLatch := x.latches.created } (.ending before)
  | ended {before : ℕ} : Effect x (.ending before) .go x .idle

section Inversion

variable {x x' : Shared} {place place' : Place}

lemma advance_cases (h : advance x place = some (x', place')) : Effect x place .go x' place' := by
  cases place with
  | idle => simp [advance] at h
  | naming puts thread =>
      obtain ⟨rfl, rfl⟩ := Prod.mk.inj (Option.some.inj h)
      exact .named
  | launching thread =>
      obtain ⟨rfl, rfl⟩ := Prod.mk.inj (Option.some.inj h)
      exact .launched
  | reading before =>
      obtain ⟨rfl, rfl⟩ := Prod.mk.inj (Option.some.inj h)
      exact .read
  | opening before latch =>
      obtain ⟨rfl, rfl⟩ := Prod.mk.inj (Option.some.inj h)
      exact .opened
  | replacing before latch =>
      obtain ⟨rfl, rfl⟩ := Prod.mk.inj (Option.some.inj h)
      exact .replaced
  | ending before =>
      obtain ⟨rfl, rfl⟩ := Prod.mk.inj (Option.some.inj h)
      exact .ended

/-- Every action of a caller has one of the effects. -/
lemma act_cases {a : Act} (h : act x place a = some (x', place')) :
    Effect x place a x' place' := by
  cases a with
  | go => exact advance_cases h
  | newGetThread =>
      simp only [act] at h
      split_ifs at h with hplace
      obtain ⟨rfl, rfl⟩ := Prod.mk.inj (Option.some.inj h)
      subst hplace
      exact .created
  | newPutThread =>
      simp only [act] at h
      split_ifs at h with hplace
      obtain ⟨rfl, rfl⟩ := Prod.mk.inj (Option.some.inj h)
      subst hplace
      exact .created
  | startAllThread =>
      simp only [act] at h
      split_ifs at h with hplace
      obtain ⟨rfl, rfl⟩ := Prod.mk.inj (Option.some.inj h)
      subst hplace
      exact .began

/-- What a created thread does: it reads the field, or gets past the latch that it has read. -/
lemma schedule_cases {i : ℕ} (h : schedule x i = some x') :
    x'.latches = x.latches ∧ x'.countDownLatch = x.countDownLatch ∧
      (∀ j, j ≠ i → x'.status j = x.status j) ∧
      ((∃ past, x.status i = some (none, past) ∧
          x'.status i = some (some x.countDownLatch, past)) ∨
        ∃ latch, x.latches.Open latch ∧ x.status i = some (some latch, false) ∧
          x'.status i = some (some latch, true)) := by
  obtain ⟨thread', hrun, rfl⟩ := Option.map_eq_some_iff.mp h
  obtain ⟨thread, hthread, hrun⟩ := Option.bind_eq_some_iff.mp hrun
  have hi : i < x.threads.length := (List.getElem?_eq_some_iff.mp hthread).1
  refine ⟨rfl, rfl, fun j hj => ?_, ?_⟩
  · simp [Shared.status, List.getElem?_set_ne hj.symm]
  · simp only [Shared.status, hthread, List.getElem?_set_self hi, Option.map_some]
    unfold CreatedThread.run at hrun
    split_ifs at hrun
    cases hlatch : thread.latch with
    | none =>
        simp only [hlatch] at hrun
        obtain rfl := Option.some.inj hrun
        exact .inl ⟨_, rfl, rfl⟩
    | some latch =>
        simp only [hlatch] at hrun
        split_ifs at hrun with hopen
        obtain rfl := Option.some.inj hrun
        exact .inr ⟨latch, hopen.2, by rw [hopen.1], rfl⟩

/-- What a move of the machine does. -/
lemma step_cases {τ : Type} [DecidableEq τ] {s s' : FactoryState τ} {l : Label τ}
    (h : (machine τ).step s l = some s') :
    (∃ t a x place, l = .caller t a ∧ Effect s.shared (s.thread t) a x place ∧
        s' = s.after t (x, place)) ∨
      ∃ i x, l = .created i ∧ schedule s.shared i = some x ∧ s' = { s with shared := x } := by
  cases l with
  | caller t a =>
      obtain ⟨⟨x, place⟩, hact, rfl⟩ := Option.map_eq_some_iff.mp h
      exact .inl ⟨t, a, x, place, rfl, act_cases hact, rfl⟩
  | created i =>
      obtain ⟨x, hschedule, rfl⟩ := Option.map_eq_some_iff.mp h
      exact .inr ⟨i, x, rfl, hschedule, rfl⟩

end Inversion

end ReadWriteThreadFacotry

end LearnJava
