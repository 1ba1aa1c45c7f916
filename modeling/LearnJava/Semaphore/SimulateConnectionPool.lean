import LearnJava.Foundation.Threads
import LearnJava.Java.Lang

/-!
# `SimulateConnectionPool`

The pool of `semaphore/app/SimulateConnectionPool.java` with the handlers of
`semaphore/app/handler/ConnectionHandler.java`: a queue of a fixed number of connections, and the
handlers that `getConnection` has made, each for the connection it took from the queue.  `close`
queues the connection of its handler, without regard to what was closed before.

`getConnection` and `close` access the queue once each, and the rest of what they do concerns their
own handler only, so that each is one atomic step.  A pool is `Conserved` when the connections in
the queue and those of the handlers not closed yet are all connections, once each.
-/

namespace LearnJava

namespace SimulateConnectionPool

/-- A `ConnectionHandler`; `closed` records for the statements that `close` was called. -/
structure ConnectionHandler where
  connection : ℕ
  closed : Bool
  deriving DecidableEq, Repr

/-- The queue of the pool, and the handlers of its connections.  Connections are named by their
number, handlers by their place in the list. -/
structure Pool where
  concurrentLinkedQueue : List ℕ
  handlers : List ConnectionHandler
  deriving DecidableEq, Repr

/-- `new SimulateConnectionPool(size)` -/
def newPool (size : ℕ) : Pool := ⟨List.range size, []⟩

/-- `getConnection()`: the new handler, and the pool without its connection. -/
def getConnection (p : Pool) : Except Throwable (ℕ × Pool) :=
  match p.concurrentLinkedQueue with
  | [] => .error .noConnectionException
  | connection :: rest =>
    .ok (p.handlers.length, ⟨rest, p.handlers ++ [⟨connection, false⟩]⟩)

/-- `releaseConnection(connection)`, for a connection that is not `null`. -/
def releaseConnection (p : Pool) (connection : ℕ) : Pool :=
  { p with concurrentLinkedQueue := p.concurrentLinkedQueue ++ [connection] }

/-- `close()` of a handler; `none` where there is no such handler. -/
def close (p : Pool) (handler : ℕ) : Option Pool :=
  p.handlers[handler]?.map fun h =>
    let q := releaseConnection p h.connection
    { q with handlers := q.handlers.set handler { h with closed := true } }

/-! ## Where the connections are -/

/-- The connection a handler owns. -/
def ConnectionHandler.owned (h : ConnectionHandler) : Option ℕ :=
  if h.closed then none else some h.connection

/-- The connections of the handlers that were not closed. -/
def Pool.owned (p : Pool) : List ℕ := p.handlers.filterMap ConnectionHandler.owned

/-- A handler that was made and not closed. -/
def Pool.IsOpen (p : Pool) (handler connection : ℕ) : Prop :=
  p.handlers[handler]? = some ⟨connection, false⟩

/-- Each connection is in the queue or with a handler that is open. -/
def Conserved (size : ℕ) (p : Pool) : Prop :=
  (p.concurrentLinkedQueue ++ p.owned).Perm (List.range size)

section Operations

variable {size : ℕ} {p p' : Pool} {handler connection : ℕ}

lemma newPool_conserved (size : ℕ) : Conserved size (newPool size) := by
  rw [Conserved, Pool.owned, newPool, List.filterMap_nil, List.append_nil]

/-- What `getConnection` does when there is a connection. -/
lemma getConnection_ok (h : getConnection p = .ok (handler, p')) :
    ∃ connection rest, p.concurrentLinkedQueue = connection :: rest ∧
      handler = p.handlers.length ∧ p' = ⟨rest, p.handlers ++ [⟨connection, false⟩]⟩ := by
  unfold getConnection at h
  split at h
  · cases h
  · rename_i connection rest hqueue
    obtain ⟨rfl, rfl⟩ := Prod.mk.inj (Except.ok.inj h)
    exact ⟨connection, rest, hqueue, rfl, rfl⟩

/-- `getConnection` throws when the queue is empty. -/
lemma getConnection_error {e : Throwable} (h : getConnection p = .error e) :
    p.concurrentLinkedQueue = [] ∧ e = .noConnectionException := by
  unfold getConnection at h
  split at h
  · rename_i hqueue
    exact ⟨hqueue, (Except.error.inj h).symm⟩
  · cases h

/-- What `close` does. -/
lemma close_some (h : close p handler = some p') :
    ∃ g, p.handlers[handler]? = some g ∧
      p' = ⟨p.concurrentLinkedQueue ++ [g.connection],
        p.handlers.set handler { g with closed := true }⟩ := by
  obtain ⟨g, hg, rfl⟩ := Option.map_eq_some_iff.mp h
  exact ⟨g, hg, rfl⟩

lemma getConnection_conserved (hp : Conserved size p)
    (h : getConnection p = .ok (handler, p')) : Conserved size p' := by
  obtain ⟨connection, rest, hqueue, -, rfl⟩ := getConnection_ok h
  refine List.Perm.trans ?_ hp
  simp only [Pool.owned, hqueue, List.filterMap_append, List.filterMap_cons, List.filterMap_nil,
    ConnectionHandler.owned, Bool.false_eq_true, if_false]
  rw [← List.append_assoc]
  exact List.perm_append_singleton _ _

/-- Closing an open handler queues its connection and takes it from the handler. -/
lemma close_conserved (hp : Conserved size p) (hopen : p.IsOpen handler connection)
    (h : close p handler = some p') : Conserved size p' := by
  obtain ⟨g, hg, rfl⟩ := close_some h
  obtain rfl := Option.some.inj (hopen.symm.trans hg)
  refine List.Perm.trans ?_ hp
  obtain ⟨hlt, hget⟩ := List.getElem?_eq_some_iff.mp hopen
  have howned : p.owned = (p.handlers.take handler).filterMap ConnectionHandler.owned ++
      connection :: (p.handlers.drop (handler + 1)).filterMap ConnectionHandler.owned := by
    conv_lhs => rw [Pool.owned, ← List.take_append_drop handler p.handlers,
      List.drop_eq_getElem_cons hlt, hget]
    simp [ConnectionHandler.owned]
  rw [Pool.owned, List.set_eq_take_append_cons_drop, if_pos hlt, howned]
  simp only [List.filterMap_append, List.filterMap_cons, ConnectionHandler.owned, if_true,
    List.append_assoc]
  apply List.Perm.append_left _
  rw [List.singleton_append]
  exact List.perm_middle.symm

/-- The handler `getConnection` makes is open and was not there before. -/
lemma getConnection_isOpen (h : getConnection p = .ok (handler, p')) :
    (∃ connection, p'.IsOpen handler connection) ∧ ∀ connection, ¬p.IsOpen handler connection := by
  obtain ⟨connection, rest, -, rfl, rfl⟩ := getConnection_ok h
  refine ⟨⟨connection, by simp [Pool.IsOpen]⟩, fun other hopen => ?_⟩
  rw [Pool.IsOpen, List.getElem?_eq_none le_rfl] at hopen
  cases hopen

lemma isOpen_getConnection {other : ℕ} (hopen : p.IsOpen other connection)
    (h : getConnection p = .ok (handler, p')) : p'.IsOpen other connection := by
  obtain ⟨c, rest, -, -, rfl⟩ := getConnection_ok h
  obtain ⟨hlt, -⟩ := List.getElem?_eq_some_iff.mp hopen
  rw [Pool.IsOpen, List.getElem?_append_left hlt]
  exact hopen

lemma isOpen_close {other : ℕ} (hopen : p.IsOpen other connection) (hne : other ≠ handler)
    (h : close p handler = some p') : p'.IsOpen other connection := by
  obtain ⟨g, -, rfl⟩ := close_some h
  rw [Pool.IsOpen, List.getElem?_set_ne hne.symm]
  exact hopen

end Operations

end SimulateConnectionPool

end LearnJava
