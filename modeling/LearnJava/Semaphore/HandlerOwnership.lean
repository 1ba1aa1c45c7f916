import LearnJava.Semaphore.SimulateConnectionPool

/-!
# One place for each connection

`close` does not remember that it was called.  The second `close` of a handler queues its connection
again, although it is in the queue already or with a later handler, and two handlers get to share
it.  As long as no handler is closed twice the pool is conserved; so `one_place_iff` shows, for
every interleaving of calls, that each connection is always in one place exactly when that is so.
-/

namespace LearnJava

namespace SimulateConnectionPool

/-! ## Threads -/

/-- What a thread's last call ended with. -/
inductive Reply
  | handler (i : ℕ)
  | closed
  | thrown (e : Throwable)
  deriving DecidableEq, Repr

/-- A call of a thread: `getConnection` of the pool, or `close` of any handler. -/
inductive Call
  | getConnection
  | close (handler : ℕ)
  deriving DecidableEq, Repr

/-- A call, as one step. -/
def act (p : Pool) (_ : Option Reply) : Call → Option (Pool × Option Reply)
  | .getConnection =>
    match getConnection p with
    | .ok (handler, p') => some (p', some (.handler handler))
    | .error e => some (p, some (.thrown e))
  | .close handler => (close p handler).map fun p' => (p', some .closed)

/-- The threads of a pool. -/
def program (size : ℕ) : Threads.Program Pool (Option Reply) Call where
  initShared p := p = newPool size
  initThread r := r = none
  act := act

/-- The pool, and what each thread got last. -/
abbrev HandlerState (τ : Type) := Threads.State τ Pool (Option Reply)

/-- A call. -/
abbrev HandlerMove (τ : Type) := Move (HandlerState τ) (τ × Call)

/-- Any interleaving of calls on `new SimulateConnectionPool(size)` and its handlers. -/
def machine (τ : Type) [DecidableEq τ] (size : ℕ) : Machine (HandlerState τ) (τ × Call) :=
  (program size).machine τ

/-- The new pool. -/
def initial (τ : Type) (size : ℕ) : HandlerState τ := ⟨newPool size, fun _ => none⟩

lemma init_initial (τ : Type) [DecidableEq τ] (size : ℕ) :
    (machine τ size).init (initial τ size) := ⟨rfl, fun _ => rfl⟩

/-! ## The property, and its condition -/

/-- Each connection is in one place: once in the queue, or with one handler that was not closed. -/
structure OnePlace (size : ℕ) (p : Pool) : Prop where
  each_once : ∀ connection < size, p.concurrentLinkedQueue.count connection +
    p.handlers.countP (fun h => h.closed = false ∧ h.connection = connection) = 1
  not_shared : ∀ i j connection, p.IsOpen i connection → p.IsOpen j connection → i = j
  same_size : p.concurrentLinkedQueue.length + p.handlers.countP (fun h => h.closed = false) = size

/-- A handler that is closed was not closed before. -/
def ClosesOnce {τ : Type} (m : HandlerMove τ) : Prop :=
  ∀ handler, m.label.2 = .close handler → ∃ connection, m.pre.shared.IsOpen handler connection

/-! ## Conservation -/

section Conservation

variable {size : ℕ} {p : Pool}

lemma count_owned (p : Pool) (connection : ℕ) : p.owned.count connection =
    p.handlers.countP (fun h => h.closed = false ∧ h.connection = connection) := by
  rw [Pool.owned, List.count_filterMap]
  refine List.countP_congr fun h _ => ?_
  cases hclosed : h.closed <;> simp [ConnectionHandler.owned, hclosed]

lemma length_owned (p : Pool) :
    p.owned.length = p.handlers.countP (fun h => h.closed = false) := by
  rw [Pool.owned, List.length_filterMap_eq_countP]
  refine List.countP_congr fun h _ => ?_
  cases hclosed : h.closed <;> simp [ConnectionHandler.owned, hclosed]

lemma Conserved.nodup (hp : Conserved size p) :
    (p.concurrentLinkedQueue ++ p.owned).Nodup :=
  hp.nodup_iff.mpr List.nodup_range

/-- No connection is with two open handlers. -/
lemma Conserved.not_lt (hp : Conserved size p) {i j connection : ℕ} (hi : p.IsOpen i connection)
    (hj : p.IsOpen j connection) : ¬i < j := by
  intro hij
  have hnodup := (List.nodup_append.mp hp.nodup).2.1
  rw [Pool.owned, List.Nodup, List.pairwise_filterMap, List.pairwise_iff_getElem] at hnodup
  obtain ⟨hilt, higet⟩ := List.getElem?_eq_some_iff.mp hi
  obtain ⟨hjlt, hjget⟩ := List.getElem?_eq_some_iff.mp hj
  refine hnodup i j hilt hjlt hij connection ?_ connection ?_ rfl
  · rw [higet]
    rfl
  · rw [hjget]
    rfl

lemma Conserved.onePlace (hp : Conserved size p) : OnePlace size p := by
  refine ⟨fun connection hlt => ?_, fun i j connection hi hj => ?_, ?_⟩
  · rw [← count_owned, ← List.count_append, hp.count_eq]
    exact List.count_eq_one_of_mem List.nodup_range (List.mem_range.mpr hlt)
  · exact Nat.le_antisymm (Nat.not_lt.mp (hp.not_lt hj hi)) (Nat.not_lt.mp (hp.not_lt hi hj))
  · rw [← length_owned, ← List.length_append, hp.length_eq, List.length_range]

end Conservation

section Machine

variable {τ : Type} [DecidableEq τ] {size : ℕ} {s s' : HandlerState τ} {a : τ × Call}

/-- What a move does to the pool. -/
lemma step_cases (h : (machine τ size).step s a = some s') :
    (a.2 = .getConnection ∧ ∃ handler, getConnection s.shared = .ok (handler, s'.shared)) ∨
      (a.2 = .getConnection ∧ s'.shared = s.shared) ∨
      ∃ handler, a.2 = .close handler ∧ close s.shared handler = some s'.shared := by
  obtain ⟨⟨p, r⟩, hact, rfl⟩ := Threads.Program.step_iff.mp h
  simp only [Threads.State.after_shared]
  simp only [program, act] at hact
  split at hact
  · rename_i hcall
    refine .imp (fun h => ⟨hcall, h⟩) (fun h => .inl ⟨hcall, h⟩) ?_
    split at hact
    · rename_i handler p' hget
      obtain ⟨rfl, -⟩ := Prod.mk.inj (Option.some.inj hact)
      exact .inl ⟨handler, hget⟩
    · obtain ⟨rfl, -⟩ := Prod.mk.inj (Option.some.inj hact)
      exact .inr rfl
  · rename_i handler hcall
    obtain ⟨p', hclose, hp'⟩ := Option.map_eq_some_iff.mp hact
    obtain ⟨rfl, -⟩ := Prod.mk.inj hp'
    exact .inr (.inr ⟨handler, hcall, hclose⟩)

lemma conserved_init (h : (machine τ size).init s) : Conserved size s.shared := by
  rw [show s.shared = newPool size from h.1]
  exact newPool_conserved size

/-- **One move conserves the connections**, unless it closes a handler again. -/
lemma conserved_step (hs : Conserved size s.shared) (h : (machine τ size).step s a = some s')
    (honce : ClosesOnce ⟨s, a, s'⟩) : Conserved size s'.shared := by
  obtain ⟨-, handler, hget⟩ | ⟨-, hsame⟩ | ⟨handler, hcall, hclose⟩ := step_cases h
  · exact getConnection_conserved hs hget
  · rwa [hsame]
  · obtain ⟨connection, hopen⟩ := honce handler hcall
    exact close_conserved hs hopen hclose

/-- **One move leaves each connection in one place exactly when it closes no handler again.** -/
lemma onePlace_iff (hs : Conserved size s.shared) (h : (machine τ size).step s a = some s') :
    OnePlace size s'.shared ↔ ClosesOnce ⟨s, a, s'⟩ := by
  refine ⟨fun hone handler hcall => ?_, fun honce => (conserved_step hs h honce).onePlace⟩
  obtain ⟨hget, -⟩ | ⟨hget, -⟩ | ⟨i, hi, hclose⟩ := step_cases h
  · cases hget.symm.trans hcall
  · cases hget.symm.trans hcall
  obtain rfl := Call.close.inj (hi.symm.trans hcall)
  obtain ⟨⟨connection, closed⟩, hg, hp'⟩ := close_some hclose
  cases closed with
  | false => exact ⟨connection, hg⟩
  | true =>
      -- the handler stays as it is, and the queue gets longer
      have hbefore := hs.onePlace.same_size
      have hafter := hone.same_size
      rw [hp'] at hafter
      obtain ⟨hlt, hget⟩ := List.getElem?_eq_some_iff.mp hg
      simp only [← hget, List.set_getElem_self, List.length_append, List.length_singleton] at hafter
      omega

/-- In every interleaving of calls: each of the pool's connections is at every moment in one place,
once in the queue or with one handler that was not closed, exactly when no handler is closed
twice. -/
theorem one_place_iff {ms : List (HandlerMove τ)} (h : (machine τ size).Run ms s) :
    (∀ m ∈ ms, OnePlace size m.post.shared) ↔ ∀ m ∈ ms, ClosesOnce m :=
  h.moves_iff (P := fun m => OnePlace size m.post.shared) (fun _ => conserved_init)
    (fun _ _ _ => conserved_step) fun _ _ _ => onePlace_iff

/-- A connection that is taken, given back and taken again. -/
def takenAgain : List (HandlerMove Duo) :=
  (machine Duo 1).moves (initial Duo 1)
    [(.first, .getConnection), (.second, .getConnection), (.first, .close 0),
      (.second, .getConnection)]

theorem one_place_iff_takenAgain :
    (∀ m ∈ takenAgain, OnePlace 1 m.post.shared) ↔ ∀ m ∈ takenAgain, ClosesOnce m :=
  one_place_iff (Machine.run_of_play (init_initial Duo 1) rfl)

/-- A handler that is closed twice. -/
def closedTwice : List (HandlerMove Unit) :=
  (machine Unit 10).moves (initial Unit 10)
    [((), .getConnection), ((), .close 0), ((), .close 0)]

/-- Its connection is in the queue twice. -/
theorem closedTwice_queues_twice :
    (∃ s, (machine Unit 10).Run closedTwice s) ∧
      ¬∀ m ∈ closedTwice, OnePlace 10 m.post.shared := by
  refine ⟨⟨_, Machine.run_of_play (init_initial Unit 10) rfl⟩, fun h => ?_⟩
  have hlast := (h (closedTwice.getLast (by decide)) (List.getLast_mem _)).each_once 0 (by decide)
  exact absurd hlast (by decide)

end Machine

end SimulateConnectionPool

end LearnJava
