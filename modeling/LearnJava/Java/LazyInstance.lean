import LearnJava.Foundation.Threads

/-!
# An instance that is created when it is first asked for

The pattern of a static field `instance`, which starts as `null`, and two static methods:
`getInstance` tests the field and calls `createInstance` when it finds `null`; `createInstance` is
`synchronized`, tests the field again and stores a new object.  `getInstance` returns what it reads
from the field last.

The instances are numbered in the order in which their constructors ended.  A read under the lock
sees every assignment made under it, and so does every read of a `volatile` field.  A read of a
plain field without the lock may still find `null`, unless the thread has been `synchronized` with
the assignment: it made the assignment itself, or it has held the lock since.  Only then, or when
the field is `volatile`, is the thread sure to see the object as its constructor left it.
-/

namespace LearnJava

namespace LazyInstance

/-- A class with such an instance: its field, whether `createInstance` is `public`, and whether the
constructor may throw. -/
structure Pattern where
  isVolatile : Bool
  isPublic : Bool
  mayThrow : Bool
  deriving DecidableEq, Repr

/-- The field, the monitor of the class, and how many constructors have ended normally. -/
structure Shared where
  instance? : Option ℕ
  locked : Bool
  created : ℕ
  deriving DecidableEq, Repr

/-- Where a thread is: at the statement that is named. -/
inductive Phase
  | idle
  /-- `if(instance == null)` of `getInstance` -/
  | testing
  /-- `createInstance()`, called by `getInstance` or directly -/
  | locking (direct : Bool)
  /-- `if(instance == null)` of `createInstance` -/
  | retesting (direct : Bool)
  /-- The constructor. -/
  | constructing (direct : Bool)
  /-- `instance = ` the new object -/
  | assigning (direct : Bool) (created : ℕ)
  /-- The end of `createInstance`, which may be an exception of the constructor. -/
  | unlocking (direct : Bool) (thrown : Bool)
  /-- `return instance` -/
  | reading
  | returned (r : Option ℕ)
  | thrown
  deriving DecidableEq, Repr

/-- A thread, and whether it is synchronized with the assignment of the instance. -/
structure Local where
  phase : Phase
  synchronized : Bool
  deriving DecidableEq, Repr

/-- An action: a call, the next step of the code, what a read without the lock finds, or an
exception of the constructor. -/
inductive Act
  | getInstance
  | createInstance
  | go
  | find (r : Option ℕ)
  | throw
  deriving DecidableEq, Repr

/-- What a read of the field without the lock may find. -/
def Finds (P : Pattern) (x : Shared) (l : Local) (r : Option ℕ) : Prop :=
  r = x.instance? ∨ P.isVolatile = false ∧ l.synchronized = false ∧ r = none

instance (P : Pattern) (x : Shared) (l : Local) (r : Option ℕ) : Decidable (Finds P x l r) :=
  inferInstanceAs (Decidable (_ ∨ _))

/-- The thread after a read without the lock that found `r`: an object that is found in a `volatile`
field is seen as it was when it was assigned. -/
def Local.found (P : Pattern) (l : Local) (r : Option ℕ) (phase : Phase) : Local :=
  ⟨phase, l.synchronized || (P.isVolatile && r.isSome)⟩

/-- One action. -/
def act (P : Pattern) (x : Shared) (l : Local) : Act → Option (Shared × Local)
  | .getInstance =>
    match l.phase with
    | .idle | .returned _ | .thrown => some (x, { l with phase := .testing })
    | _ => none
  | .createInstance =>
    match l.phase with
    | .idle | .returned _ | .thrown =>
      if P.isPublic then some (x, { l with phase := .locking true }) else none
    | _ => none
  | .find r =>
    if Finds P x l r then
      match l.phase with
      | .testing => some (x, l.found P r (if r.isNone then .locking false else .reading))
      | .reading => some (x, l.found P r (.returned r))
      | _ => none
    else none
  | .go =>
    match l.phase with
    | .locking direct =>
      if x.locked then none
      else some ({ x with locked := true },
        ⟨.retesting direct, l.synchronized || x.instance?.isSome⟩)
    | .retesting direct =>
      some (x, { l with
        phase := if x.instance?.isNone then .constructing direct else .unlocking direct false })
    | .constructing direct =>
      some ({ x with created := x.created + 1 }, { l with phase := .assigning direct x.created })
    | .assigning direct i =>
      some ({ x with instance? := some i }, ⟨.unlocking direct false, true⟩)
    | .unlocking direct thrown =>
      some ({ x with locked := false }, { l with
        phase := if thrown then .thrown else if direct then .idle else .reading })
    | _ => none
  | .throw =>
    match l.phase with
    | .constructing direct =>
      if P.mayThrow then some (x, { l with phase := .unlocking direct true }) else none
    | _ => none

/-- Any number of threads that ask for the instance. -/
def program (P : Pattern) : Threads.Program Shared Local Act where
  initShared x := x = ⟨none, false, 0⟩
  initThread l := l = ⟨.idle, false⟩
  act := act P

/-- The field and the threads. -/
abbrev InstanceState (τ : Type) := Threads.State τ Shared Local

/-- A step of one thread. -/
abbrev InstanceMove (τ : Type) := Move (InstanceState τ) (τ × Act)

/-- Any interleaving. -/
def machine (τ : Type) [DecidableEq τ] (P : Pattern) : Machine (InstanceState τ) (τ × Act) :=
  (program P).machine τ

/-- The threads before any of them has moved. -/
def initial (τ : Type) : InstanceState τ := ⟨⟨none, false, 0⟩, fun _ => ⟨.idle, false⟩⟩

lemma init_initial (τ : Type) [DecidableEq τ] (P : Pattern) : (machine τ P).init (initial τ) :=
  ⟨rfl, fun _ => rfl⟩

/-! ## What one action does -/

/-- The effect of one action of a thread, with the place it is taken from. -/
inductive Effect (P : Pattern) (x : Shared) (l : Local) : Shared → Local → Prop
  | called (hphase : l.phase = .idle ∨ (∃ r, l.phase = .returned r) ∨ l.phase = .thrown)
      {phase : Phase} (h : phase = .testing ∨ phase = .locking true) :
      Effect P x l x { l with phase }
  | tested {r : Option ℕ} (hphase : l.phase = .testing) (hr : Finds P x l r) :
      Effect P x l x (l.found P r (if r.isNone then .locking false else .reading))
  | read {r : Option ℕ} (hphase : l.phase = .reading) (hr : Finds P x l r) :
      Effect P x l x (l.found P r (.returned r))
  | locked {direct : Bool} (hphase : l.phase = .locking direct) (h : x.locked = false) :
      Effect P x l { x with locked := true }
        ⟨.retesting direct, l.synchronized || x.instance?.isSome⟩
  | retested {direct : Bool} (hphase : l.phase = .retesting direct) :
      Effect P x l x { l with
        phase := if x.instance?.isNone then .constructing direct else .unlocking direct false }
  | constructed {direct : Bool} (hphase : l.phase = .constructing direct) :
      Effect P x l { x with created := x.created + 1 }
        { l with phase := .assigning direct x.created }
  | assigned {direct : Bool} {i : ℕ} (hphase : l.phase = .assigning direct i) :
      Effect P x l { x with instance? := some i } ⟨.unlocking direct false, true⟩
  | unlocked {direct thrown : Bool} (hphase : l.phase = .unlocking direct thrown) :
      Effect P x l { x with locked := false } { l with
        phase := if thrown then .thrown else if direct then .idle else .reading }
  | threw {direct : Bool} (hphase : l.phase = .constructing direct) :
      Effect P x l x { l with phase := .unlocking direct true }

section Inversion

variable {P : Pattern} {x x' : Shared} {l l' : Local}

/-- Every action has one of the effects. -/
lemma act_cases {a : Act} (h : act P x l a = some (x', l')) : Effect P x l x' l' := by
  cases a with
  | getInstance =>
      simp only [act] at h
      split at h <;> rename_i hphase
      · obtain ⟨rfl, rfl⟩ := Prod.mk.inj (Option.some.inj h)
        exact .called (.inl hphase) (.inl rfl)
      · obtain ⟨rfl, rfl⟩ := Prod.mk.inj (Option.some.inj h)
        exact .called (.inr (.inl ⟨_, hphase⟩)) (.inl rfl)
      · obtain ⟨rfl, rfl⟩ := Prod.mk.inj (Option.some.inj h)
        exact .called (.inr (.inr hphase)) (.inl rfl)
      · cases h
  | createInstance =>
      simp only [act] at h
      split at h <;> rename_i hphase
      · split_ifs at h
        obtain ⟨rfl, rfl⟩ := Prod.mk.inj (Option.some.inj h)
        exact .called (.inl hphase) (.inr rfl)
      · split_ifs at h
        obtain ⟨rfl, rfl⟩ := Prod.mk.inj (Option.some.inj h)
        exact .called (.inr (.inl ⟨_, hphase⟩)) (.inr rfl)
      · split_ifs at h
        obtain ⟨rfl, rfl⟩ := Prod.mk.inj (Option.some.inj h)
        exact .called (.inr (.inr hphase)) (.inr rfl)
      · cases h
  | find r =>
      simp only [act] at h
      by_cases hr : Finds P x l r
      case neg => simp [hr] at h
      rw [if_pos hr] at h
      split at h <;> rename_i hphase
      · obtain ⟨rfl, rfl⟩ := Prod.mk.inj (Option.some.inj h)
        exact .tested hphase hr
      · obtain ⟨rfl, rfl⟩ := Prod.mk.inj (Option.some.inj h)
        exact .read hphase hr
      · cases h
  | go =>
      simp only [act] at h
      split at h <;> rename_i hphase
      · split_ifs at h with hlocked
        obtain ⟨rfl, rfl⟩ := Prod.mk.inj (Option.some.inj h)
        exact .locked hphase (eq_false_of_ne_true hlocked)
      · obtain ⟨rfl, rfl⟩ := Prod.mk.inj (Option.some.inj h)
        exact .retested hphase
      · obtain ⟨rfl, rfl⟩ := Prod.mk.inj (Option.some.inj h)
        exact .constructed hphase
      · obtain ⟨rfl, rfl⟩ := Prod.mk.inj (Option.some.inj h)
        exact .assigned hphase
      · obtain ⟨rfl, rfl⟩ := Prod.mk.inj (Option.some.inj h)
        exact .unlocked hphase
      · cases h
  | throw =>
      simp only [act] at h
      split at h <;> rename_i hphase
      · split_ifs at h
        obtain ⟨rfl, rfl⟩ := Prod.mk.inj (Option.some.inj h)
        exact .threw hphase
      · cases h

end Inversion

/-! ## One instance -/

/-- The thread is in the monitor of the class. -/
def Phase.IsInside : Phase → Prop
  | .retesting _ | .constructing _ | .assigning _ _ | .unlocking _ _ => True
  | _ => False

/-- What a thread that has come to a place in its code relies on. -/
def Relies (P : Pattern) (x : Shared) (synchronized : Bool) : Phase → Prop
  | .retesting _ => x.instance?.isSome = true → synchronized = true
  | .constructing _ => x.instance? = none ∧ x.created = 0
  | .assigning _ i => x.instance? = none ∧ i = 0 ∧ x.created = 1
  | .unlocking _ thrown => thrown = false → synchronized = true
  | .reading => x.instance?.isSome ∧ (P.isVolatile = true → synchronized = true)
  | .returned (some i) => x.instance? = some i ∧ (P.isVolatile = true → synchronized = true)
  | .returned none => P.isVolatile = false ∧ synchronized = false
  | .idle | .testing | .locking _ | .thrown => True

/-- What holds of the field and of one thread. -/
structure Consistent (P : Pattern) (x : Shared) (l : Local) : Prop where
  locked : l.phase.IsInside → x.locked = true
  exists_instance : l.synchronized = true → x.instance?.isSome = true
  relies : Relies P x l.synchronized l.phase

/-- The invariant of the threads. -/
structure Inv {τ : Type} (P : Pattern) (s : InstanceState τ) : Prop where
  consistent : ∀ t, Consistent P s.shared (s.thread t)
  alone : ∀ t u, (s.thread t).phase.IsInside → (s.thread u).phase.IsInside → t = u
  /-- The constructor has ended for the object in the field, or for the one that is about to come
  into it. -/
  accounts : s.shared.created = (if s.shared.instance?.isSome then 1 else 0) ∨
    s.shared.created = 1 ∧ ∃ t direct, (s.thread t).phase = .assigning direct 0

section Invariant

variable {τ : Type} [DecidableEq τ] {P : Pattern} {s s' : InstanceState τ} {a : τ × Act}

lemma inv_of_init (h : (machine τ P).init s) : Inv P s := by
  obtain ⟨hshared, hthreads⟩ := h
  replace hshared : s.shared = ⟨none, false, 0⟩ := hshared
  replace hthreads : ∀ t, s.thread t = ⟨.idle, false⟩ := hthreads
  refine ⟨fun t => ?_, fun t u ht => ?_, .inl ?_⟩
  · rw [hthreads t]
    exact ⟨by simp [Phase.IsInside], by simp, trivial⟩
  · simp [hthreads t, Phase.IsInside] at ht
  · simp [hshared]

lemma step_cases (h : (machine τ P).step s a = some s') :
    ∃ x l, Effect P s.shared (s.thread a.1) x l ∧ s' = s.after a.1 (x, l) := by
  obtain ⟨⟨x, l⟩, hact, rfl⟩ := Threads.Program.step_iff.mp h
  exact ⟨x, l, act_cases hact, rfl⟩

/-- A thread outside the monitor relies on the field alone. -/
lemma Relies.congr {x x' : Shared} {synchronized : Bool} {phase : Phase}
    (h : Relies P x synchronized phase) (hout : ¬phase.IsInside)
    (hinstance : x'.instance? = x.instance?) : Relies P x' synchronized phase := by
  cases phase with
  | retesting | constructing | assigning | unlocking => exact absurd trivial hout
  | returned r =>
      cases r with
      | none => exact h
      | some i => exact ⟨hinstance.trans h.1, h.2⟩
  | reading => exact ⟨hinstance ▸ h.1, h.2⟩
  | idle | testing | locking | thrown => exact trivial

/-- The first assignment takes nothing from a thread outside the monitor. -/
lemma Relies.assign {x : Shared} {synchronized : Bool} {phase : Phase} (i : ℕ)
    (h : Relies P x synchronized phase) (hout : ¬phase.IsInside) (hnone : x.instance? = none) :
    Relies P { x with instance? := some i } synchronized phase := by
  cases phase with
  | retesting | constructing | assigning | unlocking => exact absurd trivial hout
  | returned r =>
      cases r with
      | none => exact h
      | some j =>
          rw [Relies, hnone] at h
          cases h.1
  | reading =>
      rw [Relies, hnone] at h
      cases h.1
  | _ => exact trivial

/-- What an action of one thread leaves of another one's part of the invariant. -/
lemma Effect.consistent_other {x x' : Shared} {l l' u : Local} (h : Effect P x l x' l')
    (hl : Consistent P x l) (hu : Consistent P x u)
    (halone : l.phase.IsInside → ¬u.phase.IsInside) : Consistent P x' u := by
  obtain ⟨hlocked, hinstance, hrelies⟩ := hu
  cases h with
  | called | tested | read | retested | threw => exact ⟨hlocked, hinstance, hrelies⟩
  | locked =>
      refine ⟨fun _ => rfl, hinstance, ?_⟩
      cases hphase : u.phase with
      | returned r => cases r <;> exact hphase ▸ hrelies
      | _ => exact hphase ▸ hrelies
  | constructed hphase =>
      have hout : ¬u.phase.IsInside := halone (by simp [hphase, Phase.IsInside])
      exact ⟨hlocked, hinstance, hrelies.congr hout rfl⟩
  | unlocked hphase =>
      have hout : ¬u.phase.IsInside := halone (by simp [hphase, Phase.IsInside])
      exact ⟨fun hin => absurd hin hout, hinstance, hrelies.congr hout rfl⟩
  | assigned hphase =>
      have hout : ¬u.phase.IsInside := halone (by simp [hphase, Phase.IsInside])
      have hown := hl.relies
      rw [hphase] at hown
      exact ⟨hlocked, fun _ => rfl, hrelies.assign _ hout hown.1⟩

/-- A read without the lock that finds an object finds the one in the field. -/
lemma Finds.eq_some {x : Shared} {l : Local} {i : ℕ} (h : Finds P x l (some i)) :
    x.instance? = some i := by
  obtain h | ⟨-, -, h⟩ := h
  · exact h.symm
  · cases h

/-- What a read makes of a thread. -/
lemma Consistent.found {x : Shared} {l : Local} {r : Option ℕ} {phase : Phase}
    (hl : Consistent P x l) (hr : Finds P x l r) (hout : ¬phase.IsInside)
    (hrelies : Relies P x (l.synchronized || (P.isVolatile && r.isSome)) phase) :
    Consistent P x (l.found P r phase) := by
  refine ⟨fun hin => absurd hin hout, fun hsync => ?_, hrelies⟩
  rcases (Bool.or_eq_true _ _).mp hsync with hsync | hsome
  · exact hl.exists_instance hsync
  · cases r with
    | none => simp at hsome
    | some i => simp [hr.eq_some]

/-- What an action makes of the acting thread. -/
lemma Effect.consistent_self {x x' : Shared} {l l' : Local} (h : Effect P x l x' l')
    (hl : Consistent P x l)
    (hfirst : ∀ direct, l.phase = .retesting direct → x.instance? = none → x.created = 0) :
    Consistent P x' l' := by
  have hrelies := hl.relies
  have hlocked := hl.locked
  cases h with
  | @called phase _ h =>
      obtain rfl | rfl := h <;> exact ⟨by simp [Phase.IsInside], hl.exists_instance, trivial⟩
  | @tested r _ hr =>
      refine hl.found hr ?_ ?_
      · cases r <;> simp [Phase.IsInside]
      · cases r with
        | none => exact trivial
        | some i =>
            refine ⟨by simp [hr.eq_some], fun hvolatile => by simp [hvolatile]⟩
  | @read r hphase hr =>
      rw [hphase] at hrelies
      refine hl.found hr (by simp [Phase.IsInside]) ?_
      cases r with
      | some i => exact ⟨hr.eq_some, fun hvolatile => by simp [hvolatile]⟩
      | none =>
          obtain hnone | ⟨hplain, hsync, -⟩ := hr
          · have hsome := hrelies.1
            rw [← hnone] at hsome
            cases hsome
          · exact ⟨hplain, by simp [hsync]⟩
  | locked =>
      refine ⟨fun _ => rfl, fun hsync => ?_, fun hsome => (Bool.or_eq_true _ _).mpr (.inr hsome)⟩
      rcases (Bool.or_eq_true _ _).mp hsync with hsync | hsome
      · exact hl.exists_instance hsync
      · exact hsome
  | @retested direct hphase =>
      rw [hphase] at hrelies
      refine ⟨fun _ => hlocked (by simp [hphase, Phase.IsInside]), hl.exists_instance, ?_⟩
      cases hinstance : x.instance? with
      | none => exact ⟨hinstance, hfirst direct hphase hinstance⟩
      | some i => exact fun _ => hrelies (by simp [hinstance])
  | constructed hphase =>
      rw [hphase] at hrelies
      exact ⟨fun _ => hlocked (by simp [hphase, Phase.IsInside]), hl.exists_instance,
        hrelies.1, hrelies.2, by simp [hrelies.2]⟩
  | assigned hphase =>
      exact ⟨fun _ => hlocked (by simp [hphase, Phase.IsInside]), fun _ => rfl, fun _ => rfl⟩
  | @unlocked direct thrown hphase =>
      rw [hphase] at hrelies
      refine ⟨?_, hl.exists_instance, ?_⟩
      · cases thrown <;> cases direct <;> simp [Phase.IsInside]
      · cases thrown with
        | true => exact trivial
        | false =>
            cases direct with
            | true => exact trivial
            | false => exact ⟨hl.exists_instance (hrelies rfl), fun _ => hrelies rfl⟩
  | threw hphase =>
      exact ⟨fun _ => hlocked (by simp [hphase, Phase.IsInside]), hl.exists_instance,
        fun hthrown => by cases hthrown⟩

omit [DecidableEq τ] in
/-- Nobody but a thread in the monitor is about to assign an object. -/
lemma Inv.created_eq_zero (hs : Inv P s) {t : τ} {direct : Bool}
    (hphase : (s.thread t).phase = .retesting direct) (hnone : s.shared.instance? = none) :
    s.shared.created = 0 := by
  obtain hcreated | ⟨-, u, d, hu⟩ := hs.accounts
  · simpa [hnone] using hcreated
  · have htu : t = u :=
      hs.alone t u (by simp [hphase, Phase.IsInside]) (by simp [hu, Phase.IsInside])
    rw [htu, hu] at hphase
    cases hphase

/-- The acting thread comes into the monitor through its lock. -/
lemma Effect.isInside {x x' : Shared} {l l' : Local} (h : Effect P x l x' l')
    (hin : l'.phase.IsInside) : l.phase.IsInside ∨ x.locked = false := by
  cases h with
  | called _ h =>
      obtain rfl | rfl := h <;> exact hin.elim
  | @tested r => cases r <;> exact hin.elim
  | read => exact hin.elim
  | locked _ hfree => exact .inr hfree
  | retested hphase | constructed hphase | assigned hphase | threw hphase =>
      exact .inl (by simp [hphase, Phase.IsInside])
  | @unlocked direct thrown =>
      cases thrown <;> cases direct <;> exact hin.elim

/-- The constructor ends for one object, which is assigned. -/
lemma Effect.accounts {x x' : Shared} {l l' : Local} (h : Effect P x l x' l')
    (hl : Consistent P x l) :
    (x'.created = x.created ∧ x'.instance? = x.instance? ∧
        ∀ direct, l.phase = .assigning direct 0 → False) ∨
      (x'.created = 1 ∧ ∃ direct, l'.phase = .assigning direct 0) ∨
      x'.created = 1 ∧ x'.instance? = some 0 := by
  have hrelies := hl.relies
  cases h with
  | @constructed direct hphase =>
      rw [hphase] at hrelies
      exact .inr (.inl ⟨by simp [hrelies.2], direct, by simp [hrelies.2]⟩)
  | assigned hphase =>
      rw [hphase] at hrelies
      exact .inr (.inr ⟨hrelies.2.2, by simp [hrelies.2.1]⟩)
  | called hphase =>
      refine .inl ⟨rfl, rfl, fun direct heq => ?_⟩
      obtain hphase | ⟨r, hphase⟩ | hphase := hphase <;> cases heq.symm.trans hphase
  | tested hphase | read hphase | locked hphase | retested hphase | unlocked hphase
  | threw hphase => exact .inl ⟨rfl, rfl, fun direct heq => by cases heq.symm.trans hphase⟩

/-- **Every move keeps the invariant.** -/
lemma inv_step (hs : Inv P s) (h : (machine τ P).step s a = some s') : Inv P s' := by
  obtain ⟨x, l, heffect, rfl⟩ := step_cases h
  have hself := hs.consistent a.1
  refine ⟨?_, fun t u ht hu => ?_, ?_⟩
  · refine Threads.State.forall_after (J := fun x l => Consistent P x l)
      (heffect.consistent_self hself fun direct => hs.created_eq_zero) fun u hu => ?_
    exact heffect.consistent_other hself (hs.consistent u) fun ht hin => hu (hs.alone u a.1 hin ht)
  · -- a thread that comes into the monitor finds nobody there
    have hnew : ∀ v, v ≠ a.1 → ((s.after a.1 (x, l)).thread v).phase.IsInside →
        ((s.after a.1 (x, l)).thread a.1).phase.IsInside → False := by
      intro v hv hvin hin
      rw [s.after_thread_of_ne hv] at hvin
      rw [s.after_thread_self] at hin
      obtain hold | hfree := heffect.isInside hin
      · exact hv (hs.alone v a.1 hvin hold)
      · have hlocked := (hs.consistent v).locked hvin
        rw [hfree] at hlocked
        cases hlocked
    by_cases hta : t = a.1 <;> by_cases hua : u = a.1
    · rw [hta, hua]
    · exact (hnew u hua hu (hta ▸ ht)).elim
    · exact (hnew t hta ht (hua ▸ hu)).elim
    · rw [s.after_thread_of_ne hta] at ht
      rw [s.after_thread_of_ne hua] at hu
      exact hs.alone t u ht hu
  · obtain ⟨hcreated, hinstance, hnot⟩ | ⟨hcreated, direct, hphase⟩ | ⟨hcreated, hinstance⟩ :=
      heffect.accounts hself
    · obtain hold | ⟨hone, t, direct, ht⟩ := hs.accounts
      · exact .inl (by simpa [hcreated, hinstance] using hold)
      · have hta : t ≠ a.1 := by
          rintro rfl
          exact hnot direct ht
        exact .inr ⟨hcreated.trans hone, t, direct, by simpa [hta] using ht⟩
    · exact .inr ⟨hcreated, a.1, direct, by simpa using hphase⟩
    · exact .inl (by simp [hcreated, hinstance])

/-- The object in the field is not replaced. -/
lemma Effect.instance_eq {x x' : Shared} {l l' : Local} (h : Effect P x l x' l')
    (hl : Consistent P x l) {i : ℕ} (hi : x.instance? = some i) : x'.instance? = some i := by
  cases h with
  | assigned hphase =>
      have hrelies := hl.relies
      rw [hphase] at hrelies
      cases hi.symm.trans hrelies.1
  | _ => exact hi

end Invariant

/-- What the pattern promises of a run that has come to `s`: one object is created at most; all
calls return it; and no call returns `null`, or an object that the thread may not see as its
constructor left it, where the field is `volatile` or the thread went through `createInstance`. -/
structure OneInstance {τ : Type} (P : Pattern) (ms : List (InstanceMove τ)) (s : InstanceState τ) :
    Prop where
  created_le : s.shared.created ≤ 1
  same : ∀ m ∈ ms, ∀ t i, (m.post.thread t).phase = .returned (some i) →
    s.shared.instance? = some i
  notNull : ∀ m ∈ ms, ∀ t, (m.post.thread t).phase = .returned none →
    P.isVolatile = false ∧ (m.post.thread t).synchronized = false
  published : P.isVolatile = true → ∀ m ∈ ms, ∀ t r, (m.post.thread t).phase = .returned r →
    (m.post.thread t).synchronized = true

/-- **The pattern keeps its promises**, for any number of threads, in every interleaving. -/
theorem oneInstance_of_run {τ : Type} [DecidableEq τ] {P : Pattern} {ms : List (InstanceMove τ)}
    {s : InstanceState τ} (h : (machine τ P).Run ms s) : OneInstance P ms s := by
  have hinit : ∀ s, (machine τ P).init s → Inv P s := fun _ => inv_of_init
  have hstep : ∀ s a s', Inv P s → (machine τ P).step s a = some s' → Inv P s' :=
    fun _ _ _ => inv_step
  have hpost : ∀ m ∈ ms, Inv P m.post := fun m hm => (h.invariant_of_mem hinit hstep hm).2.2
  refine ⟨?_, fun m hm t i hi => ?_, fun m hm t ht => ?_, fun hvolatile m hm t r hr => ?_⟩
  · obtain hcreated | ⟨hone, -⟩ := (h.invariant hinit hstep).accounts
    · rw [hcreated]
      split_ifs <;> decide
    · exact hone.le
  · have hrelies := ((hpost m hm).consistent t).relies
    rw [hi] at hrelies
    refine h.stable (Q := fun s => s.shared.instance? = some i) hinit hstep
      (fun s a s' hs hmove hq => ?_) hm hrelies.1
    obtain ⟨x, l, heffect, rfl⟩ := step_cases hmove
    exact heffect.instance_eq (hs.consistent a.1) hq
  · have hrelies := ((hpost m hm).consistent t).relies
    rw [ht] at hrelies
    exact hrelies
  · have hrelies := ((hpost m hm).consistent t).relies
    rw [hr] at hrelies
    cases r with
    | none =>
        have hplain := hrelies.1
        rw [hvolatile] at hplain
        cases hplain
    | some i => exact hrelies.2 hvolatile

end LazyInstance

end LearnJava
