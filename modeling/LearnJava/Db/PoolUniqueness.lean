import LearnJava.Db.ConnectionPoolBuilder

/-!
# One pool for each key

Between the two look-ups of a `build` other threads may enter the pool that the first one did not
find.  The second look-up is made with the write lock held, which excludes all other threads until
the pool is entered; so a key that is found missing then stays missing until this thread enters it.

`Inv` says what a thread holds and knows at each place of the code.  A pool that is constructed and
not yet entered belongs to a thread that holds the write lock, of which there is one at most; all
others are in the map, which never loses or changes an entry.
-/

namespace LearnJava

namespace ConnectionPoolBuilder

open ReadWriteLock

variable {τ : Type} {driver : Option Throwable}

/-- The constructor throws `e` for want of the driver. -/
def NotLoaded (driver : Option Throwable) (e : Throwable) : Prop :=
  ∃ f, driver = some f ∧ (e = f ∨ e = .error "NoClassDefFoundError")

/-- At most one pool is constructed and stored for a key, it is what every call of `build` with this
key returns, and a thread that is in no call holds neither lock.  Calls fail for want of the driver
only. -/
structure OnePoolPerKey (driver : Option Throwable) (ms : List (BuilderMove τ))
    (s : BuilderState τ) : Prop where
  constructed_once : (s.shared.pools.map PoolObject.dbKey).Nodup
  stored : ∀ key p, s.shared.connectionPoolMap key = some p → p ∈ s.shared.pools ∧ p.dbKey = key
  returned : ∀ m ∈ ms, ∀ b p, Ends m b (.ok p) → s.shared.connectionPoolMap b.dbKey = some p
  thrown : ∀ m ∈ ms, ∀ b e, Ends m b (.error e) → NotLoaded driver e
  released : ∀ t, (s.thread t).phase.AtRest → (s.thread t).holds = Holds.none

/-! ## The invariant -/

/-- What a thread holds at a place of the code. -/
def Phase.holds : Phase → Holds
  | .idle | .readLocking _ | .writeLocking _ | .ended _ _ => Holds.none
  | .lookingUp _ | .readUnlocking _ _ => ⟨1, 0⟩
  | .rechecking _ | .constructing _ | .putting _ _ | .writeUnlocking _ _ => ⟨0, 1⟩

/-- A result is what the map has under the key of the builder. -/
def Settles (driver : Option Throwable) (x : Shared) (b : Builder) : Result → Prop
  | .ok p => x.connectionPoolMap b.dbKey = some p
  | .error e => NotLoaded driver e

/-- What a thread knows at a place of the code. -/
def Knows (driver : Option Throwable) (x : Shared) : Phase → Prop
  | .readUnlocking b connectionPool => ∀ p, connectionPool = some p → Settles driver x b (.ok p)
  | .constructing b => x.connectionPoolMap b.dbKey = none
  | .putting b p => x.connectionPoolMap b.dbKey = none ∧ p ∈ x.pools ∧ p.dbKey = b.dbKey
  | .writeUnlocking b r | .ended b r => Settles driver x b r
  | .idle | .readLocking _ | .lookingUp _ | .writeLocking _ | .rechecking _ => True

/-- The invariant of the builders. -/
structure Inv [Fintype τ] (driver : Option Throwable) (s : BuilderState τ) : Prop where
  balanced : Balanced Shared.readWriteLock Local.holds s
  holds : ∀ t, (s.thread t).holds = (s.thread t).phase.holds
  knows : ∀ t, Knows driver s.shared (s.thread t).phase
  stored : ∀ key p, s.shared.connectionPoolMap key = some p → p ∈ s.shared.pools ∧ p.dbKey = key
  entered : ∀ p ∈ s.shared.pools, s.shared.connectionPoolMap p.dbKey = some p ∨
    ∃ t b, (s.thread t).phase = .putting b p
  unique : (s.shared.pools.map PoolObject.dbKey).Nodup

section Effects

variable {x x' : Shared} {l l' : Local} {a : Act}

/-- The map never loses an entry. -/
lemma Effect.keeps (h : Effect driver x l a x' l') (hknows : Knows driver x l.phase) {key : Text}
    {p : PoolObject} (hp : x.connectionPoolMap key = some p) :
    x'.connectionPoolMap key = some p := by
  cases h with
  | @put b q hph =>
      rw [hph] at hknows
      have hne : key ≠ b.dbKey := fun heq => by simp [← heq, hp, Knows] at hknows
      simpa [hne] using hp
  | _ => exact hp

/-- Only a thread with the write lock changes the map. -/
lemma Effect.map_eq (h : Effect driver x l a x' l') (hread : l.phase.holds.write = 0) :
    x'.connectionPoolMap = x.connectionPoolMap := by
  cases h with
  | put hph => simp [hph, Phase.holds] at hread
  | _ => rfl

lemma Effect.pools_subset (h : Effect driver x l a x' l') : x.pools ⊆ x'.pools := by
  cases h with
  | constructed => exact List.subset_append_left _ _
  | _ => exact List.Subset.refl _

/-- Each place of the code is reached with the holds it should have. -/
lemma Effect.holds_eq (h : Effect driver x l a x' l') (hholds : l.holds = l.phase.holds) :
    l'.holds = l'.phase.holds := by
  cases h with
  | @called b hrest =>
      cases hph : l.phase <;> simp_all [Phase.AtRest, Phase.holds]
  | readLocked hph hop =>
      obtain ⟨-, -, rfl⟩ := readLock_iff.mp hop
      simp [hholds, hph, Phase.holds, Holds.none]
  | @readUnlocked b connectionPool k g hph hop =>
      obtain ⟨-, -, rfl⟩ := readUnlock_iff.mp hop
      cases connectionPool <;> simp [hholds, hph, afterLookUp, Phase.holds, Holds.none]
  | readRefused hph hop => simp [readUnlock, hholds, hph, Phase.holds] at hop
  | writeLocked hph hop =>
      obtain ⟨-, -, rfl⟩ := writeLock_iff.mp hop
      simp [hholds, hph, Phase.holds, Holds.none]
  | rechecked hph =>
      rw [hholds, hph]
      cases x.connectionPoolMap _ <;> rfl
  | writeUnlocked hph hop =>
      obtain ⟨-, -, rfl⟩ := writeUnlock_iff.mp hop
      simp [hholds, hph, Phase.holds, Holds.none]
  | writeRefused hph hop => simp [writeUnlock, hholds, hph, Phase.holds] at hop
  | lookedUp hph | constructed hph | notLoaded hph | put hph => simp [hholds, hph, Phase.holds]

/-- Each place of the code is reached with the knowledge it should have. -/
lemma Effect.knows_self (h : Effect driver x l a x' l') (hholds : l.holds = l.phase.holds)
    (hknows : Knows driver x l.phase) : Knows driver x' l'.phase := by
  cases h with
  | called | readLocked | writeLocked => trivial
  | lookedUp hph => exact fun p hp => hp
  | @readUnlocked b connectionPool k g hph hop =>
      rw [hph] at hknows
      cases connectionPool with
      | none => trivial
      | some p => exact hknows p rfl
  | readRefused hph hop => simp [readUnlock, hholds, hph, Phase.holds] at hop
  | @rechecked b hph =>
      cases hfound : x.connectionPoolMap b.dbKey with
      | none => exact hfound
      | some p => exact hfound
  | constructed hph =>
      rw [hph] at hknows
      exact ⟨hknows, List.mem_append_right _ (List.mem_singleton_self _), rfl⟩
  | @notLoaded b e hph hdriver =>
      refine ⟨e, hdriver, ?_⟩
      unfold Shared.loadFailure
      split_ifs
      · exact .inr rfl
      · exact .inl rfl
  | put hph => simp [Knows, Settles]
  | writeUnlocked hph hop =>
      rw [hph] at hknows
      exact hknows
  | writeRefused hph hop => simp [writeUnlock, hholds, hph, Phase.holds] at hop

end Effects

section Machine

variable [Fintype τ] [DecidableEq τ] {s s' : BuilderState τ} {a : τ × Act}

lemma inv_init (h : (machine τ driver).init s) : Inv driver s := by
  obtain ⟨hshared, hthreads⟩ := h
  replace hshared : s.shared = Shared.initial := hshared
  replace hthreads : ∀ t, s.thread t = ⟨.idle, Holds.none⟩ := hthreads
  refine ⟨Balanced.init ?_ fun t => ?_, fun t => ?_, fun t => ?_, ?_, ?_, ?_⟩
  · rw [hshared]
    rfl
  · rw [hthreads t]
  · rw [hthreads t]
    rfl
  · rw [hthreads t]
    trivial
  all_goals simp [hshared, Shared.initial]

omit [DecidableEq τ] in
/-- A thread that changes the map or constructs a pool is alone. -/
lemma Inv.alone (hs : Inv driver s) {t u : τ} (htu : t ≠ u)
    (hwrite : 0 < (s.thread t).phase.holds.write) : (s.thread u).phase.holds = Holds.none := by
  rw [← hs.holds t] at hwrite
  rw [← hs.holds u]
  exact hs.balanced.exclusive t u htu hwrite

omit [DecidableEq τ] in
/-- The other threads' knowledge is not touched. -/
lemma Inv.knows_other (hs : Inv driver s) {t u : τ} (htu : u ≠ t) {b : Act} {x : Shared} {l : Local}
    (h : Effect driver s.shared (s.thread t) b x l) : Knows driver x (s.thread u).phase := by
  have hknows := hs.knows u
  have hkeeps : ∀ key p, s.shared.connectionPoolMap key = some p →
      x.connectionPoolMap key = some p := fun _ _ => h.keeps (hs.knows t)
  have hmap : (s.thread u).phase.holds = ⟨0, 1⟩ →
      x.connectionPoolMap = s.shared.connectionPoolMap := by
    intro hu
    apply h.map_eq
    rw [hs.alone htu (by simp [hu])]
    rfl
  cases hph : (s.thread u).phase with
  | readUnlocking b connectionPool =>
      rw [hph] at hknows
      exact fun p hp => hkeeps _ _ (hknows p hp)
  | constructing b =>
      rw [hph] at hknows hmap
      exact (congrFun (hmap rfl) _).trans hknows
  | putting b p =>
      rw [hph] at hknows hmap
      obtain ⟨hnone, hmem, hkey⟩ := hknows
      exact ⟨(congrFun (hmap rfl) _).trans hnone, h.pools_subset hmem, hkey⟩
  | writeUnlocking b r | ended b r =>
      rw [hph] at hknows
      cases r with
      | ok p => exact hkeeps _ _ hknows
      | error e => exact hknows
  | idle | readLocking b | lookingUp b | writeLocking b | rechecking b => trivial

omit [DecidableEq τ] in
/-- A pool that is constructed has a key of its own. -/
lemma Inv.fresh (hs : Inv driver s) {t : τ} {b : Builder}
    (hph : (s.thread t).phase = .constructing b) :
    b.dbKey ∉ s.shared.pools.map PoolObject.dbKey := by
  intro hmem
  obtain ⟨p, hp, hkey⟩ := List.mem_map.mp hmem
  have hnone : s.shared.connectionPoolMap b.dbKey = none := by
    have hknows := hs.knows t
    rwa [hph] at hknows
  obtain hin | ⟨u, c, hput⟩ := hs.entered p hp
  · rw [hkey, hnone] at hin
    cases hin
  · -- the thread that enters `p` has the write lock, too
    have htu : t ≠ u := by
      rintro rfl
      rw [hph] at hput
      cases hput
    have hnone := hs.alone htu (by simp [hph, Phase.holds])
    simp [hput, Phase.holds, Holds.none] at hnone

omit [DecidableEq τ] in
/-- The map stays a map of constructed pools under their keys. -/
lemma Inv.stored_after (hs : Inv driver s) {t : τ} {b : Act} {x : Shared} {l : Local}
    (h : Effect driver s.shared (s.thread t) b x l) (key : Text) (p : PoolObject)
    (hp : x.connectionPoolMap key = some p) : p ∈ x.pools ∧ p.dbKey = key := by
  have hknows := hs.knows t
  have hold : s.shared.connectionPoolMap key = some p → p ∈ x.pools ∧ p.dbKey = key := by
    intro hin
    obtain ⟨hmem, hkey⟩ := hs.stored key p hin
    exact ⟨h.pools_subset hmem, hkey⟩
  cases h with
  | @put c q hph =>
      rw [hph] at hknows
      obtain ⟨-, hmem, hkey⟩ := hknows
      by_cases heq : key = c.dbKey
      · subst heq
        obtain rfl : q = p := by simpa using hp
        exact ⟨hmem, hkey⟩
      · exact hold (by simpa [heq] using hp)
  | _ => exact hold hp

/-- A pool stays entered, or in the hands of the thread that enters it. -/
lemma Inv.entered_after (hs : Inv driver s) {t : τ} {b : Act} {x : Shared} {l : Local}
    (h : Effect driver s.shared (s.thread t) b x l) (p : PoolObject) (hp : p ∈ x.pools) :
    x.connectionPoolMap p.dbKey = some p ∨
      ∃ u c, ((s.after t (x, l)).thread u).phase = .putting c p := by
  have hknows := hs.knows t
  have hold : p ∈ s.shared.pools → (∀ c, (s.thread t).phase ≠ .putting c p) →
      x.connectionPoolMap p.dbKey = some p ∨
        ∃ u c, ((s.after t (x, l)).thread u).phase = .putting c p := by
    intro hmem hnot
    obtain hin | ⟨u, c, hput⟩ := hs.entered p hmem
    · exact .inl (h.keeps hknows hin)
    · have hut : u ≠ t := fun heq => hnot c (heq ▸ hput)
      exact .inr ⟨u, c, by rwa [s.after_thread_of_ne hut]⟩
  cases h with
  | called hrest => exact hold hp fun c hput => by simp [hput, Phase.AtRest] at hrest
  | @constructed c hph =>
      obtain hmem | hnew := List.mem_append.mp hp
      · exact hold hmem (by simp [hph])
      · obtain rfl := List.mem_singleton.mp hnew
        exact .inr ⟨t, c, by simp⟩
  | @put c q hph =>
      by_cases heq : p = q
      · subst heq
        rw [hph] at hknows
        obtain ⟨-, -, hkey⟩ := hknows
        exact .inl (by simp [hkey])
      · exact hold hp fun d hput => heq (Phase.putting.inj (hph.symm.trans hput)).2.symm
  | _ hph => exact hold hp (by simp [hph])

/-- **One move keeps the invariant.** -/
lemma inv_step (hs : Inv driver s) (h : (machine τ driver).step s a = some s') :
    Inv driver s' := by
  obtain ⟨t, b⟩ := a
  obtain ⟨x, l, heffect, rfl⟩ := step_cases h
  refine ⟨hs.balanced.after heffect.lockAction, ?_, ?_, hs.stored_after heffect,
    hs.entered_after heffect, ?_⟩
  · exact Threads.State.forall_after (J := fun (_ : Shared) (l : Local) => l.holds = l.phase.holds)
      (heffect.holds_eq (hs.holds t)) fun u _ => hs.holds u
  · exact Threads.State.forall_after (J := fun (x : Shared) (l : Local) => Knows driver x l.phase)
      (heffect.knows_self (hs.holds t) (hs.knows t)) fun u hu => hs.knows_other hu heffect
  · cases heffect with
    | @constructed c hph =>
        simp only [Threads.State.after_shared, List.map_append, List.map_cons, List.map_nil]
        apply hs.unique.append (List.nodup_singleton _)
        simpa using hs.fresh hph
    | _ => exact hs.unique

/-- What a call returned stays what the map has under its key. -/
lemma settles_of_ends {ms : List (BuilderMove τ)} (h : (machine τ driver).Run ms s)
    {m : BuilderMove τ} (hm : m ∈ ms) {b : Builder} {r : Result} (hends : Ends m b r) :
    Settles driver s.shared b r := by
  refine h.stable (I := Inv driver) (Q := fun s => Settles driver s.shared b r)
    (fun s => inv_init) (fun s a s' => inv_step) ?_ hm ?_
  · intro s a s' hs hstep hsettles
    obtain ⟨t, act⟩ := a
    obtain ⟨x, l, heffect, rfl⟩ := step_cases hstep
    cases r with
    | ok p => exact heffect.keeps (hs.knows t) hsettles
    | error e => exact hsettles
  · obtain ⟨-, -, hpost⟩ := h.invariant_of_mem (fun s => inv_init) (fun s a s' => inv_step) hm
    have hknows := hpost.knows m.label.1
    rwa [hends.2] at hknows

/-- In every interleaving of calls of `build`: at most one pool is constructed and stored for each
key, every call with the key returns it, and on every exit the thread holds neither lock. -/
theorem one_pool_per_key {ms : List (BuilderMove τ)} (h : (machine τ driver).Run ms s) :
    OnePoolPerKey driver ms s := by
  have hs : Inv driver s := h.invariant (fun s => inv_init) fun s a s' => inv_step
  refine ⟨hs.unique, hs.stored, fun m hm b p hends => settles_of_ends h hm hends,
    fun m hm b e hends => settles_of_ends h hm hends, fun t hrest => ?_⟩
  rw [hs.holds t]
  cases hph : (s.thread t).phase <;> simp_all [Phase.AtRest, Phase.holds]

/-- Two threads that look one key up before either has entered a pool. -/
def bothMiss (b : Builder) : List (Duo × Act) :=
  [(.first, .build b), (.first, .go), (.first, .go), (.second, .build b), (.second, .go),
    (.second, .go), (.first, .go), (.second, .go), (.first, .go), (.first, .go), (.first, .go),
    (.first, .go), (.first, .go), (.second, .go), (.second, .go), (.second, .go)]

theorem one_pool_per_key_bothMiss :
    ∃ s, OnePoolPerKey none
      ((machine Duo none).moves (initial Duo)
        (bothMiss ⟨some (text "jdbc:mysql"), some (text "root"), none⟩)) s :=
  ⟨_, one_pool_per_key (Machine.run_of_play (init_initial Duo none) rfl)⟩

end Machine

end ConnectionPoolBuilder

end LearnJava
