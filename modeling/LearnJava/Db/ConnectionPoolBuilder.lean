import LearnJava.Foundation.ReadWriteLock
import LearnJava.Java.Lang
import LearnJava.Java.Text

/-!
# `ConnectionPoolBuilder`

The builder of `db/ConnectionPoolBuilder.java`.  All builders share one map from keys to pools and
one read–write lock: `build` looks its key up under the read lock and, if that finds nothing, again
under the write lock, where it makes the pool that is missing.  `act` gives the atomic steps, one
for each call on the lock and on the map and for the constructor.

A pool is what `new` made: the objects are numbered in the order in which they were made, and each
has the arguments of its constructor.  Making the first one loads the class of the JDBC driver in a
static block; `driver` is what this throws where the driver is missing.  The class is not
initialised again then, and the constructor throws a `NoClassDefFoundError` from there on.
-/

namespace LearnJava

namespace ConnectionPoolBuilder

open ReadWriteLock

/-- The fields of a builder. -/
structure Builder where
  dbConnectionUrl : Option Text
  userName : Option Text
  password : Option Text
  deriving DecidableEq, Repr

/-- `String.format("%s@%s", dbConnectionUrl, userName)` -/
def buildDbKey (dbConnectionUrl userName : Option Text) : Text :=
  formatString dbConnectionUrl ++ text "@" ++ formatString userName

/-- The key of a builder. -/
def Builder.dbKey (b : Builder) : Text := buildDbKey b.dbConnectionUrl b.userName

/-- A `ConnectionPool` object. -/
structure PoolObject where
  id : ℕ
  dbConnectionUrl : Option Text
  userName : Option Text
  password : Option Text
  maxConnectionCount : ℕ
  deriving DecidableEq, Repr

/-- The key of the builders that make such a pool. -/
def PoolObject.dbKey (p : PoolObject) : Text := buildDbKey p.dbConnectionUrl p.userName

/-- The static fields, and the pools that were constructed. -/
structure Shared where
  readWriteLock : ReadWriteLock
  connectionPoolMap : Text → Option PoolObject
  pools : List PoolObject
  /-- The static block of `ConnectionPool` has thrown. -/
  erroneous : Bool

/-- `new ConnectionPool(dbConnectionUrl, userName, password, 5)`. -/
def Shared.newConnectionPool (x : Shared) (b : Builder) : PoolObject :=
  ⟨x.pools.length, b.dbConnectionUrl, b.userName, b.password, 5⟩

@[simp] lemma Shared.newConnectionPool_dbKey (x : Shared) (b : Builder) :
    (x.newConnectionPool b).dbKey = b.dbKey := rfl

/-- What the constructor throws where the static block throws `e`. -/
def Shared.loadFailure (x : Shared) (e : Throwable) : Throwable :=
  if x.erroneous then .error "NoClassDefFoundError" else e

/-- What a call of `build` ended with. -/
abbrev Result := Except Throwable PoolObject

/-- Where a thread is: at the call that is named. -/
inductive Phase
  | idle
  /-- `readLock.lock()` -/
  | readLocking (b : Builder)
  /-- `connectionPoolMap.get(dbKey)` in `build` -/
  | lookingUp (b : Builder)
  /-- `readLock.unlock()` -/
  | readUnlocking (b : Builder) (connectionPool : Option PoolObject)
  /-- `writeLock.lock()` -/
  | writeLocking (b : Builder)
  /-- `connectionPoolMap.get(dbKey)` in `buildConnectionPool` -/
  | rechecking (b : Builder)
  /-- `new ConnectionPool(…)` -/
  | constructing (b : Builder)
  /-- `connectionPoolMap.put(dbKey, connectionPool)` -/
  | putting (b : Builder) (connectionPool : PoolObject)
  /-- `writeLock.unlock()` -/
  | writeUnlocking (b : Builder) (r : Result)
  | ended (b : Builder) (r : Result)

/-- A thread, with its holds of the lock. -/
structure Local where
  phase : Phase
  holds : Holds

/-- An action of a thread: a call, or the next step of the code. -/
inductive Act
  | build (b : Builder)
  | go
  deriving DecidableEq, Repr

/-- A thread that is in no call. -/
def Phase.AtRest : Phase → Bool
  | .idle | .ended _ _ => true
  | _ => false

/-- Where a `build` goes on after its read-locked look-up. -/
def afterLookUp (b : Builder) : Option PoolObject → Phase
  | some connectionPool => .ended b (.ok connectionPool)
  | none => .writeLocking b

/-- Where a `build` goes on after its write-locked look-up. -/
def afterRecheck (b : Builder) : Option PoolObject → Phase
  | some connectionPool => .writeUnlocking b (.ok connectionPool)
  | none => .constructing b

section Code

variable (driver : Option Throwable)

/-- The next step of the code. -/
def advance (x : Shared) (l : Local) : Option (Shared × Local) :=
  match l.phase with
  | .idle | .ended _ _ => none
  | .readLocking b =>
    (x.readWriteLock.readLock l.holds).map fun r =>
      ({ x with readWriteLock := r.1 }, ⟨.lookingUp b, r.2⟩)
  | .lookingUp b => some (x, ⟨.readUnlocking b (x.connectionPoolMap b.dbKey), l.holds⟩)
  | .readUnlocking b connectionPool =>
    match x.readWriteLock.readUnlock l.holds with
    | some r => some ({ x with readWriteLock := r.1 }, ⟨afterLookUp b connectionPool, r.2⟩)
    | none => some (x, ⟨.ended b (.error .illegalMonitorStateException), l.holds⟩)
  | .writeLocking b =>
    (x.readWriteLock.writeLock l.holds).map fun r =>
      ({ x with readWriteLock := r.1 }, ⟨.rechecking b, r.2⟩)
  | .rechecking b => some (x, ⟨afterRecheck b (x.connectionPoolMap b.dbKey), l.holds⟩)
  | .constructing b =>
    match driver with
    | none =>
      some ({ x with pools := x.pools ++ [x.newConnectionPool b] },
        ⟨.putting b (x.newConnectionPool b), l.holds⟩)
    | some e =>
      some ({ x with erroneous := true }, ⟨.writeUnlocking b (.error (x.loadFailure e)), l.holds⟩)
  | .putting b connectionPool =>
    some ({ x with
      connectionPoolMap := Function.update x.connectionPoolMap b.dbKey (some connectionPool) },
      ⟨.writeUnlocking b (.ok connectionPool), l.holds⟩)
  | .writeUnlocking b r =>
    match x.readWriteLock.writeUnlock l.holds with
    | some k => some ({ x with readWriteLock := k.1 }, ⟨.ended b r, k.2⟩)
    | none => some (x, ⟨.ended b (.error .illegalMonitorStateException), l.holds⟩)

/-- One action. -/
def act (x : Shared) (l : Local) : Act → Option (Shared × Local)
  | .build b => if l.phase.AtRest then some (x, ⟨.readLocking b, l.holds⟩) else none
  | .go => advance driver x l

/-- The static fields after the class was loaded. -/
def Shared.initial : Shared := ⟨free, fun _ => none, [], false⟩

/-- The threads that call `build`. -/
def program : Threads.Program Shared Local Act where
  initShared x := x = Shared.initial
  initThread l := l = ⟨.idle, Holds.none⟩
  act := act driver

end Code

/-- The builders' class and the threads. -/
abbrev BuilderState (τ : Type) := Threads.State τ Shared Local

/-- A step of one thread. -/
abbrev BuilderMove (τ : Type) := Move (BuilderState τ) (τ × Act)

/-- Any interleaving of calls of `build`. -/
def machine (τ : Type) [DecidableEq τ] (driver : Option Throwable) :
    Machine (BuilderState τ) (τ × Act) := (program driver).machine τ

/-- The loaded class, with no thread in `build`. -/
def initial (τ : Type) : BuilderState τ := ⟨.initial, fun _ => ⟨.idle, Holds.none⟩⟩

lemma init_initial (τ : Type) [DecidableEq τ] (driver : Option Throwable) :
    (machine τ driver).init (initial τ) := ⟨rfl, fun _ => rfl⟩

/-- The move ends a call of `build` on `b`, with `r`. -/
def Ends {τ : Type} (m : BuilderMove τ) (b : Builder) (r : Result) : Prop :=
  m.label.2 = .go ∧ (m.post.thread m.label.1).phase = .ended b r

/-! ## What one action does -/

/-- The effect of one action of a thread, with the place it is taken from. -/
inductive Effect (driver : Option Throwable) (x : Shared) (l : Local) :
    Act → Shared → Local → Prop
  | called {b : Builder} (hrest : l.phase.AtRest) :
      Effect driver x l (.build b) x ⟨.readLocking b, l.holds⟩
  | readLocked {b : Builder} {k : ReadWriteLock} {h : Holds} (hph : l.phase = .readLocking b)
      (hop : x.readWriteLock.readLock l.holds = some (k, h)) :
      Effect driver x l .go { x with readWriteLock := k } ⟨.lookingUp b, h⟩
  | lookedUp {b : Builder} (hph : l.phase = .lookingUp b) :
      Effect driver x l .go x ⟨.readUnlocking b (x.connectionPoolMap b.dbKey), l.holds⟩
  | readUnlocked {b : Builder} {connectionPool : Option PoolObject} {k : ReadWriteLock} {h : Holds}
      (hph : l.phase = .readUnlocking b connectionPool)
      (hop : x.readWriteLock.readUnlock l.holds = some (k, h)) :
      Effect driver x l .go { x with readWriteLock := k } ⟨afterLookUp b connectionPool, h⟩
  | readRefused {b : Builder} {connectionPool : Option PoolObject}
      (hph : l.phase = .readUnlocking b connectionPool)
      (hop : x.readWriteLock.readUnlock l.holds = none) :
      Effect driver x l .go x ⟨.ended b (.error .illegalMonitorStateException), l.holds⟩
  | writeLocked {b : Builder} {k : ReadWriteLock} {h : Holds} (hph : l.phase = .writeLocking b)
      (hop : x.readWriteLock.writeLock l.holds = some (k, h)) :
      Effect driver x l .go { x with readWriteLock := k } ⟨.rechecking b, h⟩
  | rechecked {b : Builder} (hph : l.phase = .rechecking b) :
      Effect driver x l .go x ⟨afterRecheck b (x.connectionPoolMap b.dbKey), l.holds⟩
  | constructed {b : Builder} (hph : l.phase = .constructing b) (hdriver : driver = none) :
      Effect driver x l .go { x with pools := x.pools ++ [x.newConnectionPool b] }
        ⟨.putting b (x.newConnectionPool b), l.holds⟩
  | notLoaded {b : Builder} {e : Throwable} (hph : l.phase = .constructing b)
      (hdriver : driver = some e) :
      Effect driver x l .go { x with erroneous := true }
        ⟨.writeUnlocking b (.error (x.loadFailure e)), l.holds⟩
  | put {b : Builder} {connectionPool : PoolObject} (hph : l.phase = .putting b connectionPool) :
      Effect driver x l .go { x with
        connectionPoolMap := Function.update x.connectionPoolMap b.dbKey (some connectionPool) }
        ⟨.writeUnlocking b (.ok connectionPool), l.holds⟩
  | writeUnlocked {b : Builder} {r : Result} {k : ReadWriteLock} {h : Holds}
      (hph : l.phase = .writeUnlocking b r)
      (hop : x.readWriteLock.writeUnlock l.holds = some (k, h)) :
      Effect driver x l .go { x with readWriteLock := k } ⟨.ended b r, h⟩
  | writeRefused {b : Builder} {r : Result} (hph : l.phase = .writeUnlocking b r)
      (hop : x.readWriteLock.writeUnlock l.holds = none) :
      Effect driver x l .go x ⟨.ended b (.error .illegalMonitorStateException), l.holds⟩

section Inversion

variable {driver : Option Throwable} {x x' : Shared} {l l' : Local}

lemma advance_cases (h : advance driver x l = some (x', l')) : Effect driver x l .go x' l' := by
  cases hph : l.phase with
  | idle | ended b r => simp [advance, hph] at h
  | readLocking b =>
      simp only [advance, hph, Option.map_eq_some_iff, Prod.mk.injEq] at h
      obtain ⟨⟨k, holds⟩, hop, rfl, rfl⟩ := h
      exact .readLocked hph hop
  | lookingUp b =>
      simp only [advance, hph, Option.some.injEq, Prod.mk.injEq] at h
      obtain ⟨rfl, rfl⟩ := h
      exact .lookedUp hph
  | readUnlocking b connectionPool =>
      simp only [advance, hph] at h
      split at h <;> obtain ⟨rfl, rfl⟩ := Prod.mk.inj (Option.some.inj h)
      · exact .readUnlocked hph ‹_›
      · exact .readRefused hph ‹_›
  | writeLocking b =>
      simp only [advance, hph, Option.map_eq_some_iff, Prod.mk.injEq] at h
      obtain ⟨⟨k, holds⟩, hop, rfl, rfl⟩ := h
      exact .writeLocked hph hop
  | rechecking b =>
      simp only [advance, hph, Option.some.injEq, Prod.mk.injEq] at h
      obtain ⟨rfl, rfl⟩ := h
      exact .rechecked hph
  | constructing b =>
      simp only [advance, hph] at h
      split at h <;> obtain ⟨rfl, rfl⟩ := Prod.mk.inj (Option.some.inj h)
      · exact .constructed hph rfl
      · exact .notLoaded hph rfl
  | putting b connectionPool =>
      simp only [advance, hph, Option.some.injEq, Prod.mk.injEq] at h
      obtain ⟨rfl, rfl⟩ := h
      exact .put hph
  | writeUnlocking b r =>
      simp only [advance, hph] at h
      split at h <;> obtain ⟨rfl, rfl⟩ := Prod.mk.inj (Option.some.inj h)
      · exact .writeUnlocked hph ‹_›
      · exact .writeRefused hph ‹_›

/-- Every action has one of the effects. -/
lemma act_cases {a : Act} (h : act driver x l a = some (x', l')) : Effect driver x l a x' l' := by
  cases a with
  | build b =>
      simp only [act] at h
      split_ifs at h with hrest
      obtain ⟨rfl, rfl⟩ := Prod.mk.inj (Option.some.inj h)
      exact .called hrest
  | go => exact advance_cases h

/-- What a move of the machine does. -/
lemma step_cases {τ : Type} [DecidableEq τ] {s s' : BuilderState τ} {t : τ} {a : Act}
    (h : (machine τ driver).step s (t, a) = some s') :
    ∃ x l, Effect driver s.shared (s.thread t) a x l ∧ s' = s.after t (x, l) := by
  obtain ⟨⟨x, l⟩, hact, rfl⟩ := Threads.Program.step_iff.mp h
  exact ⟨x, l, act_cases hact, rfl⟩

/-- An action does one thing to the lock. -/
lemma Effect.lockAction {a : Act} (h : Effect driver x l a x' l') :
    Action x.readWriteLock l.holds x'.readWriteLock l'.holds := by
  cases h with
  | readLocked _ hop => exact .readLock hop
  | readUnlocked _ hop => exact .readUnlock hop
  | writeLocked _ hop => exact .writeLock hop
  | writeUnlocked _ hop => exact .writeUnlock hop
  | _ => exact .none

end Inversion

end ConnectionPoolBuilder

end LearnJava
