import LearnJava.Foundation.Threads
import LearnJava.Java.Lang

/-!
# The setters of `TestClosure`

The two `ISetter`s of `closure/TestClosure.java`, called by any threads on one
`AtomicStampedReference`.  A setter reads the reference with its stamp and tries `compareAndSet`
until it succeeds.  The stamp it expects and the one it installs are `oldStamp[0]` and
`oldStamp[0]++`, evaluated in this order: the second is the value before the increment, so that it
is the first once more.

No successful `compareAndSet` changes the stamp, then, and as nothing else does, the stamp that a
thread has read is always the one it finds.  Whether `compareAndSet` succeeds only depends on the
reference, as if there were no stamp (`stamps_rise_iff`).
-/

namespace LearnJava

/-! ## `AtomicStampedReference` -/

/-- A reference with its stamp; both are read and set together. -/
structure AtomicStampedReference (ρ : Type) where
  reference : ρ
  stamp : ℤ
  deriving DecidableEq, Repr

/-- `compareAndSet(expectedReference, newReference, expectedStamp, newStamp)` -/
def AtomicStampedReference.compareAndSet {ρ : Type} [DecidableEq ρ] (r : AtomicStampedReference ρ)
    (expectedReference newReference : ρ) (expectedStamp newStamp : ℤ) :
    Bool × AtomicStampedReference ρ :=
  if r.reference = expectedReference ∧ r.stamp = expectedStamp then
    (true, ⟨newReference, newStamp⟩)
  else (false, r)

namespace TestClosure

/-! ## The setters -/

/-- The objects that `main` creates. -/
structure Peoples (ρ : Type) where
  oldPeople : ρ
  newPeople1 : ρ
  newPeople2 : ρ

inductive ISetter
  | iSetter1
  | iSetter2
  deriving DecidableEq, Repr

variable {ρ τ : Type}

/-- The reference that the setter expects, and the one it installs. -/
def ISetter.expected (people : Peoples ρ) : ISetter → ρ
  | iSetter1 => people.oldPeople
  | iSetter2 => people.newPeople1

def ISetter.installed (people : Peoples ρ) : ISetter → ρ
  | iSetter1 => people.newPeople1
  | iSetter2 => people.newPeople2

/-- Where a thread is: at the call or the access that is named. -/
inductive Phase
  | idle
  /-- `oldPeopleReference.get(oldStamp)` -/
  | reading (setter : ISetter)
  /-- `oldPeopleReference.compareAndSet(…)` -/
  | swapping (setter : ISetter)
  | returned
  deriving DecidableEq, Repr

/-- A thread: `oldStamp` is the cell of its array. -/
structure Local (ρ : Type) where
  phase : Phase
  oldStamp : ℤ
  thePeople : Option ρ
  deriving DecidableEq, Repr

/-- An action of a thread: a call of a setter, or its next step. -/
inductive Act
  | setter (setter : ISetter)
  | go
  deriving DecidableEq, Repr

variable [DecidableEq ρ] (people : Peoples ρ) (initial : AtomicStampedReference ρ)

/-- The next step of a setter. -/
def advance (r : AtomicStampedReference ρ) (l : Local ρ) :
    Option (AtomicStampedReference ρ × Local ρ) :=
  match l.phase with
  | .idle | .returned => none
  | .reading setter => some (r, ⟨.swapping setter, r.stamp, some r.reference⟩)
  | .swapping setter =>
    -- `oldStamp[0]` and then `oldStamp[0]++`
    let expectedStamp := l.oldStamp
    let newStamp := l.oldStamp
    let l := { l with oldStamp := wrap32 (l.oldStamp + 1) }
    let (successful, r) := r.compareAndSet (setter.expected people) (setter.installed people)
      expectedStamp newStamp
    some (r, { l with phase := if successful then .returned else .reading setter })

/-- One action of a thread. -/
def act (r : AtomicStampedReference ρ) (l : Local ρ) :
    Act → Option (AtomicStampedReference ρ × Local ρ)
  | .setter setter =>
    if l.phase = .idle ∨ l.phase = .returned then some (r, ⟨.reading setter, 0, none⟩) else none
  | .go => advance people r l

def program : Threads.Program (AtomicStampedReference ρ) (Local ρ) Act where
  initShared r := r = initial
  initThread l := l = ⟨.idle, 0, none⟩
  act := act people

/-- Any interleaving of any calls. -/
abbrev machine (τ : Type) [DecidableEq τ] :
    Machine (Threads.State τ (AtomicStampedReference ρ) (Local ρ)) (τ × Act) :=
  (program people initial).machine τ

/-- A step of a thread. -/
abbrev SetterMove (τ ρ : Type) :=
  Move (Threads.State τ (AtomicStampedReference ρ) (Local ρ)) (τ × Act)

/-- The step is a `compareAndSet` of a setter that returns `true`. -/
def Succeeds (m : SetterMove τ ρ) (setter : ISetter) : Prop :=
  (m.pre.thread m.label.1).phase = .swapping setter ∧
    (m.post.thread m.label.1).phase = .returned

/-- A `compareAndSet` that succeeds installs a greater stamp. -/
def RaisesStamp (m : SetterMove τ ρ) : Prop :=
  ∀ setter, Succeeds m setter → m.pre.shared.stamp < m.post.shared.stamp

/-- A thread at its `compareAndSet` finds another reference than it expects. -/
def FindsOther (m : SetterMove τ ρ) : Prop :=
  ∀ setter, (m.pre.thread m.label.1).phase = .swapping setter →
    m.pre.shared.reference ≠ setter.expected people

/-! ## The stamp never changes -/

section Step

variable {people initial} {r : AtomicStampedReference ρ} {l : Local ρ} {a : Act}
  {r' : AtomicStampedReference ρ × Local ρ}

/-- What a thread knows: the stamp it has read is still there. -/
def Knows (initial r : AtomicStampedReference ρ) (l : Local ρ) : Prop :=
  r.stamp = initial.stamp ∧ ∀ setter, l.phase = .swapping setter → l.oldStamp = initial.stamp

/-- **One action**: a `compareAndSet` succeeds exactly if the reference is the expected one, and no
action changes the stamp. -/
lemma act_cases (hl : Knows initial r l) (h : act people r l a = some r') :
    (∃ setter, l.phase = .swapping setter ∧ r.reference = setter.expected people ∧
        r'.1 = ⟨setter.installed people, r.stamp⟩ ∧ r'.2.phase = .returned) ∨
      (r'.1 = r ∧ (∀ setter, r'.2.phase = .swapping setter → r'.2.oldStamp = r.stamp) ∧
        ∀ setter, l.phase = .swapping setter →
          r.reference ≠ setter.expected people ∧ r'.2.phase ≠ .returned) := by
  obtain ⟨hstamp, hold⟩ := hl
  cases a with
  | setter setter =>
      simp only [act] at h
      split_ifs at h with hidle
      obtain rfl := Option.some.inj h
      refine .inr ⟨rfl, ?_, ?_⟩
      · rintro other ⟨⟩
      · intro other hphase
        rw [hphase] at hidle
        simp at hidle
  | go =>
      simp only [act, advance] at h
      split at h
      · cases h
      · cases h
      · rename_i setter hphase
        obtain rfl := Option.some.inj h
        refine .inr ⟨rfl, fun _ _ => rfl, fun other hother => ?_⟩
        rw [hphase] at hother
        cases hother
      · rename_i setter hphase
        obtain rfl := Option.some.inj h
        have hsame : r.stamp = l.oldStamp := hstamp.trans (hold setter hphase).symm
        by_cases hreference : r.reference = setter.expected people
        · left
          refine ⟨setter, hphase, hreference, ?_, ?_⟩
          · simp [AtomicStampedReference.compareAndSet, hreference, hsame]
          · simp [AtomicStampedReference.compareAndSet, hreference, hsame]
        · right
          refine ⟨?_, ?_, ?_⟩
          · simp [AtomicStampedReference.compareAndSet, hreference]
          · simp [AtomicStampedReference.compareAndSet, hreference]
          · intro other hother
            obtain rfl := Phase.swapping.inj (hphase.symm.trans hother)
            exact ⟨hreference, by simp [AtomicStampedReference.compareAndSet, hreference]⟩

end Step

section Run

variable {people initial} [DecidableEq τ]
  {s s' : Threads.State τ (AtomicStampedReference ρ) (Local ρ)} {b : τ × Act}

lemma knows_step (hs : ∀ t, Knows initial s.shared (s.thread t))
    (h : (machine people initial τ).step s b = some s') :
    ∀ t, Knows initial s'.shared (s'.thread t) := by
  obtain ⟨r, hact, rfl⟩ := Threads.Program.step_iff.mp h
  have hstamp : r.1.stamp = initial.stamp := by
    obtain ⟨setter, -, -, hr, -⟩ | ⟨hr, -⟩ := act_cases (hs b.1) hact
    · rw [hr]
      exact (hs b.1).1
    · rw [hr]
      exact (hs b.1).1
  apply Threads.State.forall_after
  · refine ⟨hstamp, ?_⟩
    obtain ⟨setter, -, -, -, hreturned⟩ | ⟨hr, hold, -⟩ := act_cases (hs b.1) hact
    · intro other hother
      rw [hreturned] at hother
      cases hother
    · intro setter hphase
      rw [hold setter hphase]
      exact (hs b.1).1
  · exact fun u _ => ⟨hstamp, (hs u).2⟩

/-- One action raises the stamp as it should exactly if it is no successful `compareAndSet`. -/
lemma raisesStamp_iff (hs : ∀ t, Knows initial s.shared (s.thread t))
    (h : (machine people initial τ).step s b = some s') :
    RaisesStamp ⟨s, b, s'⟩ ↔ FindsOther people ⟨s, b, s'⟩ := by
  obtain ⟨r, hact, rfl⟩ := Threads.Program.step_iff.mp h
  unfold RaisesStamp FindsOther Succeeds
  simp only [Threads.State.after_shared, Threads.State.after_thread_self]
  obtain ⟨setter, hphase, hreference, hr, hreturned⟩ | ⟨-, -, hfails⟩ := act_cases (hs b.1) hact
  · refine iff_of_false (fun hraises => ?_) fun hother => hother setter hphase hreference
    have hlt := hraises setter ⟨hphase, hreturned⟩
    rw [hr] at hlt
    exact lt_irrefl _ hlt
  · refine iff_of_true (fun setter hsucceeds => ?_) fun setter hphase => (hfails setter hphase).1
    exact absurd hsucceeds.2 (hfails setter hsucceeds.1).2

/-- **The setters' stamps.**  In every run of the setters, of any threads: the stamp is always the
initial one, and all successful `compareAndSet`s install a greater one exactly if there is none of
them, that is, no thread ever finds the reference that it expects. -/
theorem stamps_rise_iff {ms : List (SetterMove τ ρ)} (h : (machine people initial τ).Run ms s) :
    (∀ m ∈ ms, m.post.shared.stamp = initial.stamp) ∧
      ((∀ m ∈ ms, RaisesStamp m) ↔ ∀ m ∈ ms, FindsOther people m) := by
  have hinit : ∀ s, (machine people initial τ).init s →
      ∀ t, Knows initial s.shared (s.thread t) := by
    rintro s ⟨hshared, hthread⟩ t
    obtain rfl : s.shared = initial := hshared
    refine ⟨rfl, fun setter hphase => ?_⟩
    have hidle : s.thread t = ⟨.idle, 0, none⟩ := hthread t
    rw [hidle] at hphase
    cases hphase
  refine ⟨fun m hm => ?_, ?_⟩
  · obtain ⟨-, -, hpost⟩ := h.invariant_of_mem hinit (fun _ _ _ => knows_step) hm
    exact (hpost m.label.1).1
  · apply h.moves_iff hinit
    · exact fun s b s' hs hstep _ => knows_step hs hstep
    · exact fun s b s' hs hstep => raisesStamp_iff hs hstep

/-- The objects of `main`. -/
def mainPeople : Peoples ℕ := ⟨0, 1, 2⟩

/-- The reference that `main` creates. -/
def peopleReference : AtomicStampedReference ℕ := ⟨mainPeople.oldPeople, 0⟩

/-- Before the first call. -/
def beforeCalls : Threads.State Duo (AtomicStampedReference ℕ) (Local ℕ) :=
  ⟨peopleReference, fun _ => ⟨.idle, 0, none⟩⟩

/-- The second thread's `compareAndSet` comes before that of the first one and has to be tried
again. -/
def bothSetters : List (Duo × Act) :=
  [(.first, .setter .iSetter1), (.first, .go), (.second, .setter .iSetter2), (.second, .go),
    (.second, .go), (.second, .go), (.first, .go), (.second, .go)]

/-- The moves that `bothSetters` gives. -/
def bothSet : List (SetterMove Duo ℕ) :=
  (machine mainPeople peopleReference Duo).moves beforeCalls bothSetters

theorem stamps_rise_iff_bothSet :
    ∃ s, (machine mainPeople peopleReference Duo).Run bothSet s ∧
      (∀ m ∈ bothSet, m.post.shared.stamp = peopleReference.stamp) ∧
      ((∀ m ∈ bothSet, RaisesStamp m) ↔ ∀ m ∈ bothSet, FindsOther mainPeople m) := by
  have hrun : (machine mainPeople peopleReference Duo).Run bothSet _ :=
    Machine.run_of_play ⟨rfl, fun _ => rfl⟩ rfl
  exact ⟨_, hrun, stamps_rise_iff hrun⟩

/-- Both setters succeed, and the second one replaces the stamp `0` by `0`. -/
theorem successful_setter_keeps_stamp :
    ∃ s, (machine mainPeople peopleReference Duo).Run bothSet s ∧
      s.shared = ⟨mainPeople.newPeople2, 0⟩ ∧
      ∃ m, bothSet.getLast? = some m ∧ Succeeds m .iSetter2 ∧ ¬ RaisesStamp m := by
  refine ⟨_, Machine.run_of_play ⟨rfl, fun _ => rfl⟩ rfl, rfl, _, rfl, ⟨rfl, rfl⟩,
    fun hraises => ?_⟩
  exact lt_irrefl _ (hraises .iSetter2 ⟨rfl, rfl⟩)

end Run

end TestClosure

end LearnJava
