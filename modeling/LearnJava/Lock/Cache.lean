import LearnJava.Foundation.ReadWriteLock
import LearnJava.Java.Lang

/-!
# The cache of the read–write threads

`lock/app/Cache.java` is a `HashMap` behind a `ReentrantReadWriteLock`: `get` takes the read lock
and `set` the write lock.  The threads of `lock/factory/ReadWriteThreadFacotry.java` call them from
the moment on at which their latch is open: each draws three keys below the size of the map `data`,
and then a `GetRunnable` gets them and a `PutRunnable` sets them.

A drawn key can be `0`, which is no key of `data`, and a `PutRunnable` sets its first key three
times, to the values of its three keys.  So the cache agrees with `data` exactly as long as every
`set` is one of a key other than `0`, to a value that this key has as well (`cache_agrees_iff`).

The `HashMap` itself is read and written in one step; `put_alone` says that no other thread comes
between.
-/

namespace LearnJava

namespace Cache

open ReadWriteLock

variable {V τ : Type}

/-! ## The maps -/

/-- A `HashMap<Integer, String>`: a key that is present can be mapped to `null`. -/
abbrev IntMap (V : Type) : Type := ℤ → Option (Option V)

def IntMap.get (map : IntMap V) (key : ℤ) : Option V := (map key).join

def IntMap.put (map : IntMap V) (key : ℤ) (value : Option V) : IntMap V :=
  Function.update map key (some value)

/-- The map `data`, whose keys are `1`, …, `size`. -/
structure Data (V : Type) where
  size : ℕ
  map : IntMap V
  isSome_iff : ∀ key, (map key).isSome ↔ 1 ≤ key ∧ key ≤ size

/-! ## The threads -/

inductive Runnable
  | getRunnable
  | putRunnable
  deriving DecidableEq, Repr

/-- The lock that the thread's calls take. -/
def Runnable.lock : Runnable → ReadWriteLock → Holds → Option (ReadWriteLock × Holds)
  | getRunnable => readLock
  | putRunnable => writeLock

/-- The lock that the thread's calls give back. -/
def Runnable.unlock : Runnable → ReadWriteLock → Holds → Option (ReadWriteLock × Holds)
  | getRunnable => readUnlock
  | putRunnable => writeUnlock

/-- `key1`, `key2` and `key3` -/
abbrev Keys : Type := Fin 3 → ℤ

/-- Where a thread is; the `i`-th of its three calls is made. -/
inductive Place
  /-- `random.nextInt(size)`, three times. -/
  | drawing
  /-- `readLock.lock()` or `writeLock.lock()` -/
  | locking (keys : Keys) (i : Fin 3)
  /-- `map.get(key)` or `map.put(key, value)` -/
  | accessing (keys : Keys) (i : Fin 3)
  /-- `unlock()` in `finally` -/
  | unlocking (keys : Keys) (i : Fin 3)
  | ended (thrown : Option Throwable)
  deriving DecidableEq

/-- After the `i`-th call. -/
def Place.next (keys : Keys) (i : Fin 3) : Place :=
  if i = 2 then .ended none else .locking keys (i + 1)

/-- A thread: `got` is what it has got for which keys. -/
structure Local (V : Type) where
  runnable : Runnable
  place : Place
  holds : Holds
  got : List (ℤ × Option V)

/-- The cache. -/
structure Shared (V : Type) where
  map : IntMap V
  readWriteLock : ReadWriteLock

/-- An action of a thread: it draws its keys, or goes on. -/
inductive Act
  | draw (keys : Keys)
  | go
  deriving DecidableEq

variable (data : Data V)

/-- `random.nextInt(size)` throws if `size` is `0`. -/
def draw (x : Shared V) (l : Local V) (keys : Keys) : Option (Shared V × Local V) :=
  if data.size = 0 then some (x, { l with place := .ended (some .illegalArgumentException) })
  else if ∀ i, 0 ≤ keys i ∧ keys i < data.size then some (x, { l with place := .locking keys 0 })
  else none

/-- The access of the `i`-th call: `cache.get(key_i)`, or `cache.set(key1, data.get(key_i))`. -/
def access (x : Shared V) (l : Local V) (keys : Keys) (i : Fin 3) : Shared V × Local V :=
  match l.runnable with
  | .getRunnable =>
    (x, { l with
      place := .unlocking keys i
      got := l.got ++ [(keys i, x.map.get (keys i))] })
  | .putRunnable =>
    ({ x with map := x.map.put (keys 0) (data.map.get (keys i)) },
      { l with place := .unlocking keys i })

/-- One action of a thread. -/
def act (x : Shared V) (l : Local V) (a : Act) : Option (Shared V × Local V) :=
  match l.place, a with
  | .drawing, .draw keys => draw data x l keys
  | .locking keys i, .go =>
    (l.runnable.lock x.readWriteLock l.holds).map fun r =>
      ({ x with readWriteLock := r.1 }, { l with place := .accessing keys i, holds := r.2 })
  | .accessing keys i, .go => some (access data x l keys i)
  | .unlocking keys i, .go =>
    (l.runnable.unlock x.readWriteLock l.holds).map fun r =>
      ({ x with readWriteLock := r.1 }, { l with place := .next keys i, holds := r.2 })
  | _, _ => none

/-- A thread whose `await` has returned. -/
def Local.new (runnable : Runnable) : Local V := ⟨runnable, .drawing, Holds.none, []⟩

def program : Threads.Program (Shared V) (Local V) Act where
  initShared x := x = ⟨fun _ => none, free⟩
  initThread l := ∃ runnable, l = .new runnable
  act := act data

/-- The cache and the threads. -/
abbrev CacheState (τ V : Type) : Type := Threads.State τ (Shared V) (Local V)

/-- A step of a thread. -/
abbrev CacheMove (τ V : Type) : Type := Move (CacheState τ V) (τ × Act)

/-- Any interleaving of any number of both kinds of threads. -/
abbrev machine (τ : Type) [DecidableEq τ] : Machine (CacheState τ V) (τ × Act) :=
  (program data).machine τ

/-! ## The property, and its condition -/

/-- A key that is present is a key of `data` and has its value. -/
def Agrees (map : IntMap V) : Prop := ∀ key value, map key = some value → data.map key = some value

/-- The cache agrees with `data`, and for each key the threads have got `null` or the value of
`data`. -/
structure FromData (s : CacheState τ V) : Prop where
  agrees : Agrees data s.shared.map
  got : ∀ t key value, (key, value) ∈ (s.thread t).got →
    value = none ∨ value = data.map.get key

/-- A `PutRunnable` that sets a value has drawn another first key than `0`, and this key has the
same value as the one whose value is set. -/
def PutsOwnValue (m : CacheMove τ V) : Prop :=
  ∀ keys i, (m.pre.thread m.label.1).runnable = .putRunnable →
    (m.pre.thread m.label.1).place = .accessing keys i →
    keys 0 ≠ 0 ∧ data.map.get (keys i) = data.map.get (keys 0)

/-! ## What a step does -/

/-- The effect of one action of a thread. -/
inductive Effect (x : Shared V) (l : Local V) : Shared V → Local V → Prop
  | refused (hplace : l.place = .drawing) :
      Effect x l x { l with place := .ended (some .illegalArgumentException) }
  | drawn {keys : Keys} (hplace : l.place = .drawing)
      (hkeys : ∀ i, 0 ≤ keys i ∧ keys i < data.size) :
      Effect x l x { l with place := .locking keys 0 }
  | locked {keys : Keys} {i : Fin 3} {k : ReadWriteLock} {h : Holds}
      (hplace : l.place = .locking keys i)
      (hlock : l.runnable.lock x.readWriteLock l.holds = some (k, h)) :
      Effect x l { x with readWriteLock := k } { l with place := .accessing keys i, holds := h }
  | got {keys : Keys} {i : Fin 3} (hplace : l.place = .accessing keys i)
      (hrunnable : l.runnable = .getRunnable) :
      Effect x l x { l with
        place := .unlocking keys i
        got := l.got ++ [(keys i, x.map.get (keys i))] }
  | put {keys : Keys} {i : Fin 3} (hplace : l.place = .accessing keys i)
      (hrunnable : l.runnable = .putRunnable) :
      Effect x l { x with map := x.map.put (keys 0) (data.map.get (keys i)) }
        { l with place := .unlocking keys i }
  | unlocked {keys : Keys} {i : Fin 3} {k : ReadWriteLock} {h : Holds}
      (hplace : l.place = .unlocking keys i)
      (hunlock : l.runnable.unlock x.readWriteLock l.holds = some (k, h)) :
      Effect x l { x with readWriteLock := k } { l with place := .next keys i, holds := h }

section Step

variable {data} {x x' : Shared V} {l l' : Local V} {a : Act}

lemma draw_cases {keys : Keys} (hplace : l.place = .drawing)
    (h : draw data x l keys = some (x', l')) : Effect data x l x' l' := by
  unfold draw at h
  split_ifs at h with hsize hkeys
  · obtain ⟨rfl, rfl⟩ := Prod.mk.inj (Option.some.inj h)
    exact .refused hplace
  · obtain ⟨rfl, rfl⟩ := Prod.mk.inj (Option.some.inj h)
    exact .drawn hplace hkeys

lemma access_cases {keys : Keys} {i : Fin 3} (hplace : l.place = .accessing keys i)
    (h : access data x l keys i = (x', l')) : Effect data x l x' l' := by
  unfold access at h
  split at h
  · rename_i hrunnable
    obtain ⟨rfl, rfl⟩ := Prod.mk.inj h
    exact .got hplace hrunnable
  · rename_i hrunnable
    obtain ⟨rfl, rfl⟩ := Prod.mk.inj h
    exact .put hplace hrunnable

/-- Every action has one of the effects. -/
lemma act_cases (h : act data x l a = some (x', l')) : Effect data x l x' l' := by
  unfold act at h
  split at h
  · rename_i hplace
    exact draw_cases hplace h
  · rename_i hplace
    obtain ⟨⟨k, holds⟩, hlock, hr⟩ := Option.map_eq_some_iff.mp h
    obtain ⟨rfl, rfl⟩ := Prod.mk.inj hr
    exact .locked hplace hlock
  · rename_i hplace
    exact access_cases hplace (Option.some.inj h)
  · rename_i hplace
    obtain ⟨⟨k, holds⟩, hunlock, hr⟩ := Option.map_eq_some_iff.mp h
    obtain ⟨rfl, rfl⟩ := Prod.mk.inj hr
    exact .unlocked hplace hunlock
  · cases h

end Step

/-! ## The values -/

section Values

variable {data} {x x' : Shared V} {l l' : Local V} {map : IntMap V}

/-- A drawn key other than `0` is one of `data`. -/
lemma Data.map_eq_some_iff {key : ℤ} {value : Option V} (hlow : 0 ≤ key) (hhigh : key < data.size) :
    data.map key = some value ↔ key ≠ 0 ∧ value = data.map.get key := by
  have hkey := data.isSome_iff key
  unfold IntMap.get
  cases hentry : data.map key with
  | none =>
      rw [hentry] at hkey
      have hzero : ¬ (1 ≤ key ∧ key ≤ data.size) := fun h => by simpa using hkey.mpr h
      refine iff_of_false (by simp) fun h => hzero ⟨?_, hhigh.le⟩
      exact Int.lt_iff_add_one_le.mp (lt_of_le_of_ne hlow (Ne.symm h.1))
  | some entry =>
      rw [hentry] at hkey
      have hpos := (hkey.mp rfl).1
      simp only [Option.some.injEq, Option.join_some]
      exact ⟨fun h => ⟨by omega, h.symm⟩, fun h => h.2.symm⟩

lemma Agrees.get (hmap : Agrees data map) (key : ℤ) :
    map.get key = none ∨ map.get key = data.map.get key := by
  unfold IntMap.get
  cases hentry : map key with
  | none => exact .inl rfl
  | some value =>
      rw [hmap key value hentry]
      exact .inr rfl

/-- One `put` keeps the agreement exactly if it puts an entry of `data`. -/
lemma agrees_put_iff (hmap : Agrees data map) {key : ℤ} {value : Option V} :
    Agrees data (map.put key value) ↔ data.map key = some value := by
  constructor
  · intro hput
    exact hput key value (Function.update_self _ _ _)
  · intro hentry other otherValue hother
    unfold IntMap.put at hother
    by_cases heq : other = key
    · subst heq
      rw [Function.update_self] at hother
      exact hentry.trans hother
    · rw [Function.update_of_ne heq] at hother
      exact hmap other otherValue hother

/-- The keys of a thread that has drawn them. -/
def Place.keys : Place → Option Keys
  | drawing | ended _ => none
  | locking keys _ | accessing keys _ | unlocking keys _ => some keys

/-- What a thread has drawn and got, as long as the cache agrees with `data`. -/
structure Sound (data : Data V) (l : Local V) : Prop where
  keys : ∀ keys, l.place.keys = some keys → ∀ i, 0 ≤ keys i ∧ keys i < data.size
  got : ∀ key value, (key, value) ∈ l.got → value = none ∨ value = data.map.get key

lemma Place.next_keys {keys keys' : Keys} {i : Fin 3} (h : (next keys i).keys = some keys') :
    keys' = keys := by
  unfold next at h
  split_ifs at h
  · cases h
  · exact (Option.some.inj h).symm

/-- Only a `put` of a `PutRunnable` changes the map. -/
lemma Effect.map_cases (h : Effect data x l x' l') :
    (x'.map = x.map ∧ ∀ keys i, l.runnable = .putRunnable → l.place ≠ .accessing keys i) ∨
      ∃ keys i, l.runnable = .putRunnable ∧ l.place = .accessing keys i ∧
        x'.map = x.map.put (keys 0) (data.map.get (keys i)) := by
  cases h with
  | refused hplace => exact .inl ⟨rfl, fun _ _ _ => by simp [hplace]⟩
  | drawn hplace hkeys => exact .inl ⟨rfl, fun _ _ _ => by simp [hplace]⟩
  | locked hplace hlock => exact .inl ⟨rfl, fun _ _ _ => by simp [hplace]⟩
  | got hplace hrunnable => exact .inl ⟨rfl, fun _ _ hother => by simp [hrunnable] at hother⟩
  | put hplace hrunnable => exact .inr ⟨_, _, hrunnable, hplace, rfl⟩
  | unlocked hplace hunlock => exact .inl ⟨rfl, fun _ _ _ => by simp [hplace]⟩

/-- **One action**: the cache agrees with `data` afterwards exactly if it is no `put` of another
value. -/
lemma Effect.agrees_iff (h : Effect data x l x' l') (hmap : Agrees data x.map) (hl : Sound data l) :
    Agrees data x'.map ↔ ∀ keys i, l.runnable = .putRunnable → l.place = .accessing keys i →
      keys 0 ≠ 0 ∧ data.map.get (keys i) = data.map.get (keys 0) := by
  obtain ⟨hsame, hnone⟩ | ⟨keys, i, hrunnable, hplace, hput⟩ := h.map_cases
  · rw [hsame]
    exact iff_of_true hmap fun keys i hput hplace => absurd hplace (hnone keys i hput)
  · obtain ⟨hlow, hhigh⟩ := hl.keys keys (by rw [hplace]; rfl) 0
    rw [hput, agrees_put_iff hmap, Data.map_eq_some_iff hlow hhigh]
    constructor
    · intro hown keys' i' _ hplace'
      obtain ⟨rfl, rfl⟩ := Place.accessing.inj (hplace.symm.trans hplace')
      exact hown
    · exact fun hown => hown keys i hrunnable hplace

/-- The keys of a thread are those it had, or it has just drawn them. -/
lemma Effect.keys_cases (h : Effect data x l x' l') {keys : Keys}
    (hkeys : l'.place.keys = some keys) :
    l.place.keys = some keys ∨ ∀ i, 0 ≤ keys i ∧ keys i < data.size := by
  cases h with
  | refused hplace => cases hkeys
  | drawn hplace hrange =>
      obtain rfl := Option.some.inj hkeys
      exact .inr hrange
  | locked hplace hlock => exact .inl (hplace ▸ hkeys)
  | got hplace hrunnable => exact .inl (hplace ▸ hkeys)
  | put hplace hrunnable => exact .inl (hplace ▸ hkeys)
  | unlocked hplace hunlock =>
      obtain rfl := Place.next_keys hkeys
      exact .inl (hplace ▸ rfl)

/-- What a thread gets is the value of the cache. -/
lemma Effect.got_cases (h : Effect data x l x' l') :
    l'.got = l.got ∨ ∃ key, l'.got = l.got ++ [(key, x.map.get key)] := by
  cases h with
  | got => exact .inr ⟨_, rfl⟩
  | _ => exact .inl rfl

lemma Effect.sound (h : Effect data x l x' l') (hmap : Agrees data x.map) (hl : Sound data l) :
    Sound data l' := by
  refine ⟨fun keys hkeys => ?_, fun key value hgot => ?_⟩
  · rcases h.keys_cases hkeys with hbefore | hdrawn
    · exact hl.keys keys hbefore
    · exact hdrawn
  · rcases h.got_cases with hsame | ⟨newKey, hnew⟩
    · rw [hsame] at hgot
      exact hl.got key value hgot
    · rw [hnew] at hgot
      rcases List.mem_append.mp hgot with hold | hlast
      · exact hl.got key value hold
      · obtain ⟨rfl, rfl⟩ := Prod.mk.inj (List.mem_singleton.mp hlast)
        exact hmap.get _

end Values

/-! ## The lock -/

section Lock

variable {data} {x x' : Shared V} {l l' : Local V}

/-- The hold of a runnable while it accesses the map. -/
def Runnable.hold : Runnable → Holds
  | getRunnable => ⟨1, 0⟩
  | putRunnable => ⟨0, 1⟩

def Place.holds (runnable : Runnable) : Place → Holds
  | drawing | locking _ _ | ended _ => Holds.none
  | accessing _ _ | unlocking _ _ => runnable.hold

lemma Place.next_holds (runnable : Runnable) (keys : Keys) (i : Fin 3) :
    (next keys i).holds runnable = Holds.none := by
  unfold next
  split_ifs <;> rfl

lemma Runnable.lock_none {runnable : Runnable} {k k' : ReadWriteLock} {h : Holds}
    (hlock : runnable.lock k Holds.none = some (k', h)) : h = runnable.hold := by
  cases runnable with
  | getRunnable =>
      obtain ⟨-, -, rfl⟩ := readLock_iff.mp hlock
      rfl
  | putRunnable =>
      obtain ⟨-, -, rfl⟩ := writeLock_iff.mp hlock
      rfl

lemma Runnable.unlock_hold {runnable : Runnable} {k k' : ReadWriteLock} {h : Holds}
    (hunlock : runnable.unlock k runnable.hold = some (k', h)) : h = Holds.none := by
  cases runnable with
  | getRunnable =>
      obtain ⟨-, -, rfl⟩ := readUnlock_iff.mp hunlock
      rfl
  | putRunnable =>
      obtain ⟨-, -, rfl⟩ := writeUnlock_iff.mp hunlock
      rfl

lemma Runnable.action_lock {runnable : Runnable} {k k' : ReadWriteLock} {h h' : Holds}
    (hlock : runnable.lock k h = some (k', h')) : Action k h k' h' := by
  cases runnable with
  | getRunnable => exact .readLock hlock
  | putRunnable => exact .writeLock hlock

lemma Runnable.action_unlock {runnable : Runnable} {k k' : ReadWriteLock} {h h' : Holds}
    (hunlock : runnable.unlock k h = some (k', h')) : Action k h k' h' := by
  cases runnable with
  | getRunnable => exact .readUnlock hunlock
  | putRunnable => exact .writeUnlock hunlock

/-- Each place is reached with the holds it should have. -/
lemma Effect.holds_eq (h : Effect data x l x' l') (hl : l.holds = l.place.holds l.runnable) :
    l'.holds = l'.place.holds l'.runnable := by
  cases h with
  | refused hplace => rw [hl, hplace]; rfl
  | drawn hplace hkeys => rw [hl, hplace]; rfl
  | locked hplace hlock =>
      rw [hl, hplace] at hlock
      exact Runnable.lock_none hlock
  | got hplace hrunnable => rw [hl, hplace]; rfl
  | put hplace hrunnable => rw [hl, hplace]; rfl
  | unlocked hplace hunlock =>
      rw [hl, hplace] at hunlock
      rw [Place.next_holds]
      exact Runnable.unlock_hold hunlock

/-- An action does one of the four operations of the lock, or none. -/
lemma Effect.action (h : Effect data x l x' l') :
    Action x.readWriteLock l.holds x'.readWriteLock l'.holds := by
  cases h with
  | locked hplace hlock => exact Runnable.action_lock hlock
  | unlocked hplace hunlock => exact Runnable.action_unlock hunlock
  | _ => exact .none

variable [Fintype τ] [DecidableEq τ]

/-- The invariant of the lock. -/
structure Locked (s : CacheState τ V) : Prop where
  balanced : Balanced Shared.readWriteLock Local.holds s
  holds : ∀ t, (s.thread t).holds = (s.thread t).place.holds (s.thread t).runnable

lemma locked_of_run {ms : List (CacheMove τ V)} {s : CacheState τ V}
    (h : (machine data τ).Run ms s) : Locked s := by
  apply h.invariant
  · rintro s ⟨hshared, hthread⟩
    have hnew : ∀ t, (s.thread t).holds = Holds.none ∧
        (s.thread t).holds = (s.thread t).place.holds (s.thread t).runnable := by
      intro t
      obtain ⟨runnable, hnew⟩ := hthread t
      rw [hnew]
      exact ⟨rfl, rfl⟩
    refine ⟨Balanced.init ?_ fun t => (hnew t).1, fun t => (hnew t).2⟩
    rw [show s.shared = _ from hshared]
  · intro s b s' hs hstep
    obtain ⟨⟨x, l⟩, hact, rfl⟩ := Threads.Program.step_iff.mp hstep
    have heffect := act_cases hact
    refine ⟨hs.balanced.after heffect.action, ?_⟩
    exact Threads.State.forall_after
      (J := fun _ (l : Local V) => l.holds = l.place.holds l.runnable)
      (heffect.holds_eq (hs.holds b.1)) fun u _ => hs.holds u

/-- **Exclusion.**  While a `PutRunnable` accesses the map, no other thread does. -/
theorem put_alone {ms : List (CacheMove τ V)} {s : CacheState τ V} (h : (machine data τ).Run ms s)
    {t u : τ} (htu : t ≠ u) (hput : (s.thread t).runnable = .putRunnable) {keys : Keys} {i : Fin 3}
    (hplace : (s.thread t).place = .accessing keys i) (keys' : Keys) (i' : Fin 3) :
    (s.thread u).place ≠ .accessing keys' i' := by
  have hs := locked_of_run h
  have hwrite : 0 < (s.thread t).holds.write := by
    rw [hs.holds t, hplace, hput]
    exact Nat.one_pos
  intro hother
  have hnone := hs.balanced.exclusive t u htu hwrite
  rw [hs.holds u, hother] at hnone
  cases hrunnable : (s.thread u).runnable <;> simp [Place.holds, Runnable.hold, Holds.none,
    hrunnable] at hnone

end Lock

/-! ## The runs -/

section Run

variable {data} [DecidableEq τ] {s s' : CacheState τ V} {b : τ × Act}

/-- The invariant, as long as all values put are their keys' own. -/
structure Inv (data : Data V) (s : CacheState τ V) : Prop where
  agrees : Agrees data s.shared.map
  sound : ∀ t, Sound data (s.thread t)

lemma inv_init (h : (machine data τ).init s) : Inv data s := by
  obtain ⟨hshared, hthread⟩ := h
  refine ⟨fun key value hentry => ?_, fun t => ?_⟩
  · rw [show s.shared = _ from hshared] at hentry
    cases hentry
  · obtain ⟨runnable, hnew⟩ := hthread t
    rw [hnew]
    refine ⟨?_, ?_⟩
    · rintro _ ⟨⟩
    · rintro _ _ ⟨⟩

omit [DecidableEq τ] in
lemma Inv.fromData (hs : Inv data s) : FromData data s :=
  ⟨hs.agrees, fun t => (hs.sound t).got⟩

/-- One step keeps the agreement exactly if it is no `put` of another value. -/
lemma Inv.agrees_iff (hs : Inv data s) (h : (machine data τ).step s b = some s') :
    Agrees data s'.shared.map ↔ PutsOwnValue data ⟨s, b, s'⟩ := by
  obtain ⟨⟨x, l⟩, hact, rfl⟩ := Threads.Program.step_iff.mp h
  exact (act_cases hact).agrees_iff hs.agrees (hs.sound b.1)

lemma Inv.step (hs : Inv data s) (h : (machine data τ).step s b = some s')
    (hown : PutsOwnValue data ⟨s, b, s'⟩) : Inv data s' := by
  refine ⟨(hs.agrees_iff h).mpr hown, ?_⟩
  obtain ⟨⟨x, l⟩, hact, rfl⟩ := Threads.Program.step_iff.mp h
  exact Threads.State.forall_after (J := fun _ => Sound data)
    ((act_cases hact).sound hs.agrees (hs.sound b.1)) fun u _ => hs.sound u

/-- **When the cache holds the data.**  In every run, with any number of threads of both kinds and
any draws: the cache agrees with `data` in every state, and every `get` returns `null` or the value
of `data`, exactly if no `PutRunnable` sets the key `0` or a value that its key has not. -/
theorem cache_agrees_iff {ms : List (CacheMove τ V)} (h : (machine data τ).Run ms s) :
    (∀ m ∈ ms, FromData data m.post) ↔ ∀ m ∈ ms, PutsOwnValue data m := by
  apply h.moves_iff (fun _ => inv_init) fun _ _ _ hs hstep hown => hs.step hstep hown
  intro s b s' hs hstep
  constructor
  · exact fun hpost => (hs.agrees_iff hstep).mp hpost.agrees
  · exact fun hown => (hs.step hstep hown).fromData

/-- The data map with these values. -/
def Data.ofList (values : List V) : Data V where
  size := values.length
  map key := if 1 ≤ key then values[(key - 1).toNat]?.map some else none
  isSome_iff key := by
    split_ifs with hpos
    · simp only [Option.isSome_map, isSome_getElem?, hpos, true_and]
      omega
    · simp [hpos]

/-- The map of the factory. -/
def factoryData : Data String := .ofList ["Matcha", "Randone", "Dell", "Ice", "LiSA", "Phone"]

/-- A `PutRunnable` and a `GetRunnable`. -/
def bothNew : CacheState Duo String :=
  ⟨⟨fun _ => none, free⟩, fun t => match t with
    | .first => .new .putRunnable
    | .second => .new .getRunnable⟩

/-- The first two `set`s of a thread that has drawn `1`, `2` and `0`, and then the `get` of a thread
that has drawn `1`. -/
def setsThenGet : List (Duo × Act) :=
  [(.first, .draw ![1, 2, 0]), (.first, .go), (.first, .go), (.first, .go), (.first, .go),
    (.first, .go), (.first, .go), (.second, .draw ![1, 0, 0]), (.second, .go), (.second, .go)]

/-- The moves that `setsThenGet` gives. -/
def setThenGot : List (CacheMove Duo String) := (machine factoryData Duo).moves bothNew setsThenGet

lemma init_bothNew : (machine factoryData Duo).init bothNew :=
  ⟨rfl, fun t => by cases t <;> exact ⟨_, rfl⟩⟩

theorem cache_agrees_iff_setThenGot :
    ∃ s, (machine factoryData Duo).Run setThenGot s ∧
      ((∀ m ∈ setThenGot, FromData factoryData m.post) ↔
        ∀ m ∈ setThenGot, PutsOwnValue factoryData m) := by
  have hrun : (machine factoryData Duo).Run setThenGot _ := Machine.run_of_play init_bothNew rfl
  exact ⟨_, hrun, cache_agrees_iff hrun⟩

/-- The `get` of the key `1` returns the value of the key `2`. -/
theorem get_returns_other_value :
    ∃ s, (machine factoryData Duo).Run setThenGot s ∧
      (s.thread .second).got = [(1, some "Randone")] ∧
      factoryData.map.get 1 = some "Matcha" ∧ ¬ FromData factoryData s := by
  refine ⟨_, Machine.run_of_play init_bothNew rfl, rfl, rfl, fun hs => ?_⟩
  have hgot := hs.got .second 1 (some "Randone") (List.mem_singleton.mpr rfl)
  revert hgot
  decide

end Run

end Cache

end LearnJava
