import LearnJava.Semaphore.SimulateConnectionPool

/-!
# `GetConnectionRunnable`

The threads of `semaphore/TestSemaphore.java`.  Each runs
`semaphore/thread/GetConnectionRunnable.java` once: it waits for the latch, acquires a permit, takes
a connection, and in `finally` closes its handler, if it has one, and releases a permit.  The latch
is counted down by the main thread, at any moment.

A thread that is interrupted while it waits comes to `finally` as well, and releases a permit that
it never acquired.  `acquired` and `released` count for the statements what a thread did.
-/

namespace LearnJava

namespace GetConnectionRunnable

open SimulateConnectionPool

/-- The semaphore, the latch and the pool. -/
structure Shared where
  /-- The permits of `semaphore`. -/
  permits : ℕ
  /-- The count of `countDownLatch`. -/
  latch : ℕ
  pool : Pool

/-- Where a thread is: at the call that is named. -/
inductive Phase
  /-- `countDownLatch.await()` -/
  | awaiting
  /-- `semaphore.acquire()` -/
  | acquiring
  /-- `connectionPool.getConnection()` -/
  | getting
  /-- `connection.close()` in `finally` -/
  | closing (connection : ℕ)
  /-- `semaphore.release()` in `finally`, with the exception that was thrown. -/
  | releasing (e : Option Throwable)
  | ended (e : Option Throwable)
  deriving DecidableEq, Repr

/-- A thread, and how many permits it acquired and released. -/
structure Local where
  phase : Phase
  acquired : ℕ
  released : ℕ
  deriving DecidableEq, Repr

/-- An action: the next step of the thread's code, an interrupt that reaches it while it waits, or
`countDown()` of the main thread. -/
inductive Act
  | go
  | interrupt
  | countDown
  deriving DecidableEq, Repr

/-- What `run` throws for an exception that it catches. -/
def wrapped (e : Throwable) : Throwable := .runtimeException e

/-- The next step of the code. -/
def advance (x : Shared) (l : Local) : Option (Shared × Local) :=
  match l.phase with
  | .awaiting => if x.latch = 0 then some (x, { l with phase := .acquiring }) else none
  | .acquiring =>
    if 0 < x.permits then
      some ({ x with permits := x.permits - 1 },
        { l with phase := .getting, acquired := l.acquired + 1 })
    else none
  | .getting =>
    match getConnection x.pool with
    | .ok (connection, pool) => some ({ x with pool }, { l with phase := .closing connection })
    | .error e => some (x, { l with phase := .releasing (some (wrapped e)) })
  | .closing connection =>
    (close x.pool connection).map fun pool => ({ x with pool }, { l with phase := .releasing none })
  | .releasing e =>
    if x.permits + 1 < 2 ^ 31 then
      some ({ x with permits := x.permits + 1 },
        { l with phase := .ended e, released := l.released + 1 })
    else some (x, { l with phase := .ended (some (.error "Maximum permit count exceeded")) })
  | .ended _ => none

/-- One action. -/
def act (x : Shared) (l : Local) : Act → Option (Shared × Local)
  | .go => advance x l
  | .interrupt =>
    match l.phase with
    | .awaiting | .acquiring =>
      some (x, { l with phase := .releasing (some (wrapped .interruptedException)) })
    | _ => none
  | .countDown => some ({ x with latch := x.latch - 1 }, l)

/-- The threads of a `Semaphore(permits)`, a `CountDownLatch(latch)` and a pool of `size`
connections. -/
def program (permits latch size : ℕ) : Threads.Program Shared Local Act where
  initShared x := x = ⟨permits, latch, newPool size⟩
  initThread l := l = ⟨.awaiting, 0, 0⟩
  act := act

/-- The shared objects and the threads. -/
abbrev RunnableState (τ : Type) := Threads.State τ Shared Local

/-- A step of one thread. -/
abbrev RunnableMove (τ : Type) := Move (RunnableState τ) (τ × Act)

/-- Any interleaving of the threads. -/
def machine (τ : Type) [DecidableEq τ] (permits latch size : ℕ) :
    Machine (RunnableState τ) (τ × Act) := (program permits latch size).machine τ

/-- The threads before any of them has moved. -/
def initial (τ : Type) (permits latch size : ℕ) : RunnableState τ :=
  ⟨⟨permits, latch, newPool size⟩, fun _ => ⟨.awaiting, 0, 0⟩⟩

lemma init_initial (τ : Type) [DecidableEq τ] (permits latch size : ℕ) :
    (machine τ permits latch size).init (initial τ permits latch size) := ⟨rfl, fun _ => rfl⟩

/-! ## What one action does -/

/-- The effect of one action of a thread, with the place it is taken from. -/
inductive Effect (x : Shared) (l : Local) : Act → Shared → Local → Prop
  | opened (hph : l.phase = .awaiting) : Effect x l .go x { l with phase := .acquiring }
  | acquired (hph : l.phase = .acquiring) (h : 0 < x.permits) :
      Effect x l .go { x with permits := x.permits - 1 }
        { l with phase := .getting, acquired := l.acquired + 1 }
  | got {connection : ℕ} {pool : Pool} (hph : l.phase = .getting)
      (h : getConnection x.pool = .ok (connection, pool)) :
      Effect x l .go { x with pool } { l with phase := .closing connection }
  | foundNone {e : Throwable} (hph : l.phase = .getting) (h : getConnection x.pool = .error e) :
      Effect x l .go x { l with phase := .releasing (some (wrapped e)) }
  | closed {connection : ℕ} {pool : Pool} (hph : l.phase = .closing connection)
      (h : close x.pool connection = some pool) :
      Effect x l .go { x with pool } { l with phase := .releasing none }
  | released {e : Option Throwable} (hph : l.phase = .releasing e) (h : x.permits + 1 < 2 ^ 31) :
      Effect x l .go { x with permits := x.permits + 1 }
        { l with phase := .ended e, released := l.released + 1 }
  | overflowed {e : Option Throwable} (hph : l.phase = .releasing e)
      (h : ¬x.permits + 1 < 2 ^ 31) :
      Effect x l .go x { l with phase := .ended (some (.error "Maximum permit count exceeded")) }
  | interrupted (hph : l.phase = .awaiting ∨ l.phase = .acquiring) :
      Effect x l .interrupt x { l with phase := .releasing (some (wrapped .interruptedException)) }
  | countedDown : Effect x l .countDown { x with latch := x.latch - 1 } l

section Inversion

variable {x x' : Shared} {l l' : Local}

lemma advance_cases (h : advance x l = some (x', l')) : Effect x l .go x' l' := by
  cases hph : l.phase with
  | awaiting =>
      simp only [advance, hph] at h
      split_ifs at h
      obtain ⟨rfl, rfl⟩ := Prod.mk.inj (Option.some.inj h)
      exact .opened hph
  | acquiring =>
      simp only [advance, hph] at h
      split_ifs at h with hpos
      obtain ⟨rfl, rfl⟩ := Prod.mk.inj (Option.some.inj h)
      exact .acquired hph hpos
  | getting =>
      simp only [advance, hph] at h
      split at h <;> obtain ⟨rfl, rfl⟩ := Prod.mk.inj (Option.some.inj h)
      · exact .got hph ‹_›
      · exact .foundNone hph ‹_›
  | closing connection =>
      simp only [advance, hph] at h
      obtain ⟨pool, hclose, hr⟩ := Option.map_eq_some_iff.mp h
      obtain ⟨rfl, rfl⟩ := Prod.mk.inj hr
      exact .closed hph hclose
  | releasing e =>
      simp only [advance, hph] at h
      split_ifs at h with hroom <;> obtain ⟨rfl, rfl⟩ := Prod.mk.inj (Option.some.inj h)
      · exact .released hph hroom
      · exact .overflowed hph hroom
  | ended e => simp [advance, hph] at h

/-- Every action has one of the effects. -/
lemma act_cases {a : Act} (h : act x l a = some (x', l')) : Effect x l a x' l' := by
  cases a with
  | go => exact advance_cases h
  | interrupt =>
      simp only [act] at h
      split at h
      · rename_i hph
        obtain ⟨rfl, rfl⟩ := Prod.mk.inj (Option.some.inj h)
        exact .interrupted (.inl hph)
      · rename_i hph
        obtain ⟨rfl, rfl⟩ := Prod.mk.inj (Option.some.inj h)
        exact .interrupted (.inr hph)
      · cases h
  | countDown =>
      obtain ⟨rfl, rfl⟩ := Prod.mk.inj (Option.some.inj h)
      exact .countedDown

/-- What a move of the machine does. -/
lemma step_cases {τ : Type} [DecidableEq τ] {permits latch size : ℕ} {s s' : RunnableState τ}
    {t : τ} {a : Act} (h : (machine τ permits latch size).step s (t, a) = some s') :
    ∃ x l, Effect s.shared (s.thread t) a x l ∧ s' = s.after t (x, l) := by
  obtain ⟨⟨x, l⟩, hact, rfl⟩ := Threads.Program.step_iff.mp h
  exact ⟨x, l, act_cases hact, rfl⟩

end Inversion

end GetConnectionRunnable

end LearnJava
