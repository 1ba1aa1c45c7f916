import LearnJava.Foundation.ReadWriteLock
import LearnJava.Java.Lang
import Mathlib.Data.List.AList

/-!
# `Session`

The session of `nio/session/Session.java`: a map that its methods read and write under a
read–write lock.  All of them are of one shape: get one of the two locks, with a time-out or without
one, use the map, and give a lock up in `finally`.  `SessionMethod` is the shape, and each method is
given by its locks and by what it does to the map.

The timed `get` gets the read lock and gives up the *write* lock.

A thread carries two records for the statements: the holds it had when its call began, and the map
as it was when the call got its lock.
-/

namespace LearnJava

namespace Session

open ReadWriteLock

/-- The two locks of a read–write lock. -/
inductive Side
  | read
  | write
  deriving DecidableEq, Repr

/-- `lock()`, and `tryLock(time, timeUnit)` where it gets the lock. -/
def Side.lock : Side → ReadWriteLock → Holds → Option (ReadWriteLock × Holds)
  | .read => readLock
  | .write => writeLock

/-- `unlock()`; `none` where the thread does not hold the lock. -/
def Side.unlock : Side → ReadWriteLock → Holds → Option (ReadWriteLock × Holds)
  | .read => readUnlock
  | .write => writeUnlock

/-- What a method returns; `none` is `null`. -/
inductive Reply (ν : Type)
  | object (value : Option ν)
  | boolean (b : Bool)
  deriving DecidableEq, Repr

/-- `sessionInfo`, a map in which keys and values may be `null`. -/
abbrev SessionInfo (κ ν : Type) := AList fun _ : Option κ => Option ν

/-- A method of the class. -/
structure SessionMethod (κ ν : Type) where
  /-- The lock it gets. -/
  locks : Side
  /-- For a timed method, what it returns when the time is over. -/
  late : Option (Reply ν)
  /-- What it does with the lock. -/
  body : SessionInfo κ ν → Reply ν × SessionInfo κ ν
  /-- The lock it gives up in `finally`. -/
  unlocks : Side

section Methods

variable {κ ν : Type} [DecidableEq κ] [DecidableEq ν]

/-- `sessionInfo.get(key)` -/
def valueOf (sessionInfo : SessionInfo κ ν) (key : Option κ) : Option ν :=
  (sessionInfo.lookup key).getD none

/-- `sessionInfo.put(key, value)` -/
def putValue (key : Option κ) (value : Option ν) (sessionInfo : SessionInfo κ ν) :
    Reply ν × SessionInfo κ ν :=
  (.object (valueOf sessionInfo key), sessionInfo.insert key value)

/-- `value == null ? defaultValue : value`, for the value under a key. -/
def valueOrDefault (key : Option κ) (defaultValue : Option ν) (sessionInfo : SessionInfo κ ν) :
    Reply ν × SessionInfo κ ν :=
  (.object ((valueOf sessionInfo key).or defaultValue), sessionInfo)

/-- `put(key, value, time, timeUnit)` -/
def putTimed (key : Option κ) (value : Option ν) : SessionMethod κ ν :=
  { locks := .write, late := some (.object none), body := putValue key value, unlocks := .write }

/-- `put(key, value)` -/
def put (key : Option κ) (value : Option ν) : SessionMethod κ ν :=
  { locks := .write, late := none, body := putValue key value, unlocks := .write }

/-- `get(key, defaultValue, time, timeUnit)` -/
def getOrDefaultTimed (key : Option κ) (defaultValue : Option ν) : SessionMethod κ ν :=
  { locks := .read, late := some (.object defaultValue), body := valueOrDefault key defaultValue
    unlocks := .write }

/-- `get(key, time, timeUnit)` -/
def getTimed (key : Option κ) : SessionMethod κ ν := getOrDefaultTimed key none

/-- `get(key, defaultValue)` -/
def getOrDefault (key : Option κ) (defaultValue : Option ν) : SessionMethod κ ν :=
  { locks := .read, late := none, body := valueOrDefault key defaultValue, unlocks := .read }

/-- `get(key)` -/
def get (key : Option κ) : SessionMethod κ ν :=
  { locks := .read, late := none, body := fun m => (.object (valueOf m key), m), unlocks := .read }

/-- `containsKey(key)` -/
def containsKey (key : Option κ) : SessionMethod κ ν :=
  { locks := .read, late := none, body := fun m => (.boolean (m.lookup key).isSome, m)
    unlocks := .read }

/-- `containsValue(value)` -/
def containsValue (value : Option ν) : SessionMethod κ ν :=
  { locks := .read, late := none
    body := fun m => (.boolean (m.entries.any fun e => e.2 = value), m), unlocks := .read }

end Methods

/-- A call of one of the methods. -/
inductive Call (κ ν : Type)
  | putTimed (key : Option κ) (value : Option ν)
  | put (key : Option κ) (value : Option ν)
  | getOrDefaultTimed (key : Option κ) (defaultValue : Option ν)
  | getTimed (key : Option κ)
  | getOrDefault (key : Option κ) (defaultValue : Option ν)
  | get (key : Option κ)
  | containsKey (key : Option κ)
  | containsValue (value : Option ν)
  deriving DecidableEq, Repr

section Call

variable {κ ν : Type}

/-- The method that is called. -/
def Call.method [DecidableEq κ] [DecidableEq ν] : Call κ ν → SessionMethod κ ν
  | .putTimed key value => Session.putTimed key value
  | .put key value => Session.put key value
  | .getOrDefaultTimed key defaultValue => Session.getOrDefaultTimed key defaultValue
  | .getTimed key => Session.getTimed key
  | .getOrDefault key defaultValue => Session.getOrDefault key defaultValue
  | .get key => Session.get key
  | .containsKey key => Session.containsKey key
  | .containsValue value => Session.containsValue value

/-- The same call without a time-out. -/
def Call.untimed : Call κ ν → Call κ ν
  | .putTimed key value => .put key value
  | .getOrDefaultTimed key defaultValue => .getOrDefault key defaultValue
  | .getTimed key => .get key
  | c => c

/-- The call is a `get` with a time-out. -/
def Call.IsTimedGet : Call κ ν → Bool
  | .getOrDefaultTimed _ _ | .getTimed _ => true
  | _ => false

end Call

/-! ## Threads -/

/-- The lock and the map. -/
structure Shared (κ ν : Type) where
  readWriteLock : ReadWriteLock
  sessionInfo : SessionInfo κ ν

/-- What a call ended with. -/
abbrev Result (ν : Type) := Except Throwable (Reply ν)

/-- Where a thread is. -/
inductive Phase (κ ν : Type)
  | idle
  /-- At `lock()` or `tryLock(time, timeUnit)`. -/
  | locking (c : Call κ ν)
  /-- With the lock, before the map is used. -/
  | working (c : Call κ ν)
  /-- In `finally` with the lock, and with what the method is about to return. -/
  | unlocking (c : Call κ ν) (r : Reply ν)
  | ended (c : Call κ ν) (r : Result ν)

/-- A thread with its holds, and the records of its call. -/
structure Local (κ ν : Type) where
  phase : Phase κ ν
  holds : Holds
  /-- The holds when the call began. -/
  before : Holds
  /-- The map when the call got its lock. -/
  seen : Option (SessionInfo κ ν)

/-- An action of a thread: a call, the next step of the code, or a `tryLock` that ends without the
lock. -/
inductive Act (κ ν : Type)
  | call (c : Call κ ν)
  | go
  | timeOut
  | interrupt
  deriving DecidableEq, Repr

/-- A thread that is in no call. -/
def Phase.AtRest {κ ν : Type} : Phase κ ν → Bool
  | .idle | .ended _ _ => true
  | _ => false

section Code

variable {κ ν : Type} [DecidableEq κ] [DecidableEq ν]

/-- The next step of the code. -/
def advance (x : Shared κ ν) (l : Local κ ν) : Option (Shared κ ν × Local κ ν) :=
  match l.phase with
  | .idle | .ended _ _ => none
  | .locking c =>
    (c.method.locks.lock x.readWriteLock l.holds).map fun r =>
      ({ x with readWriteLock := r.1 },
        { l with phase := .working c, holds := r.2, seen := some x.sessionInfo })
  | .working c =>
    some ({ x with sessionInfo := (c.method.body x.sessionInfo).2 },
      { l with phase := .unlocking c (c.method.body x.sessionInfo).1 })
  | .unlocking c r =>
    match c.method.unlocks.unlock x.readWriteLock l.holds with
    | some k => some ({ x with readWriteLock := k.1 },
        { l with phase := .ended c (.ok r), holds := k.2 })
    | none => some (x, { l with phase := .ended c (.error .illegalMonitorStateException) })

/-- One action. -/
def act (x : Shared κ ν) (l : Local κ ν) : Act κ ν → Option (Shared κ ν × Local κ ν)
  | .call c =>
    if l.phase.AtRest then some (x, ⟨.locking c, l.holds, l.holds, none⟩) else none
  | .go => advance x l
  | .timeOut =>
    match l.phase with
    | .locking c => c.method.late.map fun r => (x, { l with phase := .ended c (.ok r) })
    | _ => none
  | .interrupt =>
    match l.phase with
    | .locking c => c.method.late.map fun _ =>
        (x, { l with phase := .ended c (.error (.matchaUnCheckException .interruptedException)) })
    | _ => none

variable (κ ν) in
/-- The threads of a new session. -/
def program : Threads.Program (Shared κ ν) (Local κ ν) (Act κ ν) where
  initShared x := x = ⟨free, ∅⟩
  initThread l := l = ⟨.idle, Holds.none, Holds.none, none⟩
  act := act

end Code

/-- The session and its threads. -/
abbrev SessionState (τ κ ν : Type) := Threads.State τ (Shared κ ν) (Local κ ν)

/-- A step of one thread. -/
abbrev SessionMove (τ κ ν : Type) := Move (SessionState τ κ ν) (τ × Act κ ν)

section Machine

variable (τ κ ν : Type) [DecidableEq τ] [DecidableEq κ] [DecidableEq ν]

/-- Any interleaving of calls on a new session. -/
def machine : Machine (SessionState τ κ ν) (τ × Act κ ν) := (program κ ν).machine τ

omit [DecidableEq τ] [DecidableEq κ] [DecidableEq ν] in
/-- The new session, with no thread in any of its methods. -/
def initial : SessionState τ κ ν :=
  ⟨⟨free, ∅⟩, fun _ => ⟨.idle, Holds.none, Holds.none, none⟩⟩

lemma init_initial : (machine τ κ ν).init (initial τ κ ν) := ⟨rfl, fun _ => rfl⟩

end Machine

/-! ## What one action does -/

section Effect

variable {κ ν : Type} [DecidableEq κ] [DecidableEq ν]

/-- The effect of one action of a thread, with the place it is taken from. -/
inductive Effect (x : Shared κ ν) (l : Local κ ν) : Act κ ν → Shared κ ν → Local κ ν → Prop
  | called {c : Call κ ν} (hrest : l.phase.AtRest) :
      Effect x l (.call c) x ⟨.locking c, l.holds, l.holds, none⟩
  | locked {c : Call κ ν} {k : ReadWriteLock} {h : Holds} (hph : l.phase = .locking c)
      (hop : c.method.locks.lock x.readWriteLock l.holds = some (k, h)) :
      Effect x l .go { x with readWriteLock := k }
        { l with phase := .working c, holds := h, seen := some x.sessionInfo }
  | used {c : Call κ ν} (hph : l.phase = .working c) :
      Effect x l .go { x with sessionInfo := (c.method.body x.sessionInfo).2 }
        { l with phase := .unlocking c (c.method.body x.sessionInfo).1 }
  | unlocked {c : Call κ ν} {r : Reply ν} {k : ReadWriteLock} {h : Holds}
      (hph : l.phase = .unlocking c r)
      (hop : c.method.unlocks.unlock x.readWriteLock l.holds = some (k, h)) :
      Effect x l .go { x with readWriteLock := k } { l with phase := .ended c (.ok r), holds := h }
  | refused {c : Call κ ν} {r : Reply ν} (hph : l.phase = .unlocking c r)
      (hop : c.method.unlocks.unlock x.readWriteLock l.holds = none) :
      Effect x l .go x { l with phase := .ended c (.error .illegalMonitorStateException) }
  | timedOut {c : Call κ ν} {r : Reply ν} (hph : l.phase = .locking c)
      (hlate : c.method.late = some r) :
      Effect x l .timeOut x { l with phase := .ended c (.ok r) }
  | interrupted {c : Call κ ν} (hph : l.phase = .locking c) :
      Effect x l .interrupt x
        { l with phase := .ended c (.error (.matchaUnCheckException .interruptedException)) }

variable {x x' : Shared κ ν} {l l' : Local κ ν}

lemma advance_cases (h : advance x l = some (x', l')) : Effect x l .go x' l' := by
  cases hph : l.phase with
  | idle | ended c r => simp [advance, hph] at h
  | locking c =>
      simp only [advance, hph, Option.map_eq_some_iff, Prod.mk.injEq] at h
      obtain ⟨⟨k, holds⟩, hop, rfl, rfl⟩ := h
      exact .locked hph hop
  | working c =>
      simp only [advance, hph, Option.some.injEq, Prod.mk.injEq] at h
      obtain ⟨rfl, rfl⟩ := h
      exact .used hph
  | unlocking c r =>
      simp only [advance, hph] at h
      split at h <;> obtain ⟨rfl, rfl⟩ := Prod.mk.inj (Option.some.inj h)
      · exact .unlocked hph ‹_›
      · exact .refused hph ‹_›

/-- Every action has one of the effects. -/
lemma act_cases {a : Act κ ν} (h : act x l a = some (x', l')) : Effect x l a x' l' := by
  cases a with
  | call c =>
      simp only [act] at h
      split_ifs at h with hrest
      obtain ⟨rfl, rfl⟩ := Prod.mk.inj (Option.some.inj h)
      exact .called hrest
  | go => exact advance_cases h
  | timeOut =>
      simp only [act] at h
      split at h
      · rename_i c hph
        obtain ⟨r, hlate, hr⟩ := Option.map_eq_some_iff.mp h
        obtain ⟨rfl, rfl⟩ := Prod.mk.inj hr
        exact .timedOut hph hlate
      · cases h
  | interrupt =>
      simp only [act] at h
      split at h
      · rename_i c hph
        obtain ⟨r, -, hr⟩ := Option.map_eq_some_iff.mp h
        obtain ⟨rfl, rfl⟩ := Prod.mk.inj hr
        exact .interrupted hph
      · cases h

/-- What a move of the machine does. -/
lemma step_cases {τ : Type} [DecidableEq τ] {s s' : SessionState τ κ ν} {t : τ} {a : Act κ ν}
    (h : (machine τ κ ν).step s (t, a) = some s') :
    ∃ x l, Effect s.shared (s.thread t) a x l ∧ s' = s.after t (x, l) := by
  obtain ⟨⟨x, l⟩, hact, rfl⟩ := Threads.Program.step_iff.mp h
  exact ⟨x, l, act_cases hact, rfl⟩

lemma Side.lock_action {d : Side} {k k' : ReadWriteLock} {h h' : Holds}
    (hop : d.lock k h = some (k', h')) : Action k h k' h' := by
  cases d with
  | read => exact .readLock hop
  | write => exact .writeLock hop

lemma Side.unlock_action {d : Side} {k k' : ReadWriteLock} {h h' : Holds}
    (hop : d.unlock k h = some (k', h')) : Action k h k' h' := by
  cases d with
  | read => exact .readUnlock hop
  | write => exact .writeUnlock hop

/-- An action does one thing to the lock. -/
lemma Effect.lockAction {a : Act κ ν} (h : Effect x l a x' l') :
    Action x.readWriteLock l.holds x'.readWriteLock l'.holds := by
  cases h with
  | locked _ hop => exact Side.lock_action hop
  | unlocked _ hop => exact Side.unlock_action hop
  | _ => exact .none

end Effect

end Session

end LearnJava
