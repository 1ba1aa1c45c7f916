import Mathlib.Tactic

/-!
# Runs of a labelled machine

A *machine* is a set of initial states and a partial step function on labelled moves.  All
the nondeterminism of an interleaving — which thread moves next, how a system call turns
out, which waiter a signal reaches — is carried by the label, so `step` is a function that can
be evaluated, and a *run* is the list of moves it went through.

Four kinds of statement are made about runs, and each gets its induction rule here once:

* *invariants* — what holds in every state a run reaches (`Run.invariant`), possibly only for
  runs whose moves all meet a condition (`Run.invariant_of_moves`), and what holds from some move on
  (`Run.stable`);
* *potentials* — what the moves of a run can spend together (`Run.spent_le`);
* *histories* — what holds in the end exactly if some move brought it about (`Run.exists_move_iff`);
* *move properties* — what every move of a run satisfies (`Run.moves_iff`): a property that a
  condition on the state before the move characterises one step at a time is characterised by
  it along the whole run.

`play` and `moves` evaluate a list of labels, so that a concrete run is produced by
computation (`run_of_play`).
-/

namespace LearnJava

/-- The threads of a concrete run with two of them. -/
inductive Duo
  | first
  | second
  deriving DecidableEq

instance : Fintype Duo := ⟨{.first, .second}, fun t => by cases t <;> decide⟩

/-- A labelled machine.  `step s l` is the state after doing `l` in `s`, and `none` where `l` is
not enabled. -/
structure Machine (σ ι : Type*) where
  init : σ → Prop
  step : σ → ι → Option σ

/-- One move of a run: the state before it, its label and the state after it. -/
structure Move (σ ι : Type*) where
  pre : σ
  label : ι
  post : σ

namespace Machine

variable {σ ι : Type*} (M : Machine σ ι)

/-- `M.Run τ s`: the moves `τ`, in this order, lead from an initial state to `s`. -/
inductive Run : List (Move σ ι) → σ → Prop
  | start {s : σ} (h : M.init s) : Run [] s
  | snoc {τ : List (Move σ ι)} {s : σ} {l : ι} {s' : σ} (h : Run τ s)
      (hstep : M.step s l = some s') : Run (τ ++ [⟨s, l, s'⟩]) s'

/-! ## Concrete runs -/

/-- The state after the labels `ls`, if each of them is enabled in turn. -/
def play : σ → List ι → Option σ
  | s, [] => some s
  | s, l :: ls => (M.step s l).bind fun s' => play s' ls

/-- The moves the labels `ls` give from `s`, up to the first one that is not enabled. -/
def moves : σ → List ι → List (Move σ ι)
  | _, [] => []
  | s, l :: ls =>
    match M.step s l with
    | none => []
    | some s' => ⟨s, l, s'⟩ :: moves s' ls

variable {M}

lemma Run.append_play {τ : List (Move σ ι)} {s s' : σ} {ls : List ι} (h : M.Run τ s)
    (hplay : M.play s ls = some s') : M.Run (τ ++ M.moves s ls) s' := by
  induction ls generalizing τ s with
  | nil =>
      obtain rfl : s = s' := by simpa [play] using hplay
      simpa [moves] using h
  | cons l ls ih =>
      obtain ⟨s₁, hstep, hrest⟩ := Option.bind_eq_some_iff.mp hplay
      have hrun := ih (h.snoc hstep) hrest
      simpa [moves, hstep] using hrun

lemma run_of_play {s s' : σ} {ls : List ι} (hinit : M.init s)
    (hplay : M.play s ls = some s') : M.Run (M.moves s ls) s' := by
  simpa using (Run.start hinit).append_play hplay

/-- A concrete run whose end is too large to be written down. -/
lemma run_getD_of_play {s : σ} {ls : List ι} (d : σ) (hinit : M.init s)
    (hplay : (M.play s ls).isSome = true) : M.Run (M.moves s ls) ((M.play s ls).getD d) := by
  obtain ⟨s', hs'⟩ := Option.isSome_iff_exists.mp hplay
  rw [hs']
  exact run_of_play hinit hs'

/-- The moves have no other labels than those that were played. -/
lemma label_mem_of_mem_moves {s : σ} {ls : List ι} {m : Move σ ι} (h : m ∈ M.moves s ls) :
    m.label ∈ ls := by
  induction ls generalizing s with
  | nil => simp [moves] at h
  | cons l ls ih =>
      rw [moves] at h
      split at h
      · simp at h
      · rcases List.mem_cons.mp h with rfl | hrest
        · exact List.mem_cons_self
        · exact List.mem_cons_of_mem l (ih hrest)

/-! ## Invariants -/

/-- **Guarded invariant rule.**  What holds initially, and is preserved by every move that meets
`C`, holds at the end of every run whose moves all meet `C`. -/
theorem Run.invariant_of_moves {I : σ → Prop} {C : Move σ ι → Prop}
    (hinit : ∀ s, M.init s → I s)
    (hstep : ∀ s l s', I s → M.step s l = some s' → C ⟨s, l, s'⟩ → I s')
    {τ : List (Move σ ι)} {s : σ} (h : M.Run τ s) (hC : ∀ m ∈ τ, C m) : I s := by
  induction h with
  | start h => exact hinit _ h
  | snoc _ hs ih =>
      exact hstep _ _ _ (ih fun m hm => hC m (List.mem_append_left _ hm)) hs
        (hC _ (by simp))

/-- **Invariant rule.** -/
theorem Run.invariant {I : σ → Prop} (hinit : ∀ s, M.init s → I s)
    (hstep : ∀ s l s', I s → M.step s l = some s' → I s')
    {τ : List (Move σ ι)} {s : σ} (h : M.Run τ s) : I s :=
  h.invariant_of_moves (C := fun _ => True) hinit (fun s l s' hs ht _ => hstep s l s' hs ht)
    (fun _ _ => trivial)

/-- Every move of a run is itself a step, taken at the end of the part of the run before it. -/
lemma Run.of_mem {τ : List (Move σ ι)} {s : σ} (h : M.Run τ s) {m : Move σ ι} (hm : m ∈ τ) :
    ∃ τ' τ'', τ = τ' ++ m :: τ'' ∧ M.Run τ' m.pre ∧ M.step m.pre m.label = some m.post := by
  induction h with
  | start => simp at hm
  | @snoc τ₀ s₀ l s₁ hrun hs ih =>
      rcases List.mem_append.mp hm with hold | hlast
      · obtain ⟨τ', τ'', rfl, hrun', hstep'⟩ := ih hold
        exact ⟨τ', τ'' ++ [⟨s₀, l, s₁⟩], by simp, hrun', hstep'⟩
      · obtain rfl : m = ⟨s₀, l, s₁⟩ := by simpa using hlast
        exact ⟨τ₀, [], rfl, hrun, hs⟩

/-- A run can be cut before each of its moves. -/
lemma Run.of_append_cons {τ τ' : List (Move σ ι)} {m : Move σ ι} {s : σ}
    (h : M.Run (τ ++ m :: τ') s) : M.Run τ m.pre ∧ M.step m.pre m.label = some m.post := by
  generalize hall : τ ++ m :: τ' = all at h
  induction h generalizing τ' with
  | start => simp at hall
  | @snoc τ₀ s₀ l s₁ hrun hs ih =>
      rcases List.eq_nil_or_concat τ' with rfl | ⟨τ'', last, rfl⟩
      · obtain ⟨rfl, hlast⟩ := List.append_inj' hall rfl
        obtain rfl := List.singleton_injective hlast
        exact ⟨hrun, hs⟩
      · rw [List.concat_eq_append, ← List.cons_append, ← List.append_assoc] at hall
        exact ih (List.append_inj' hall rfl).1

/-- Under a guarded invariant, every move of a guarded run starts in a state of the
invariant. -/
theorem Run.move_of_mem {I : σ → Prop} {C : Move σ ι → Prop}
    (hinit : ∀ s, M.init s → I s)
    (hstep : ∀ s l s', I s → M.step s l = some s' → C ⟨s, l, s'⟩ → I s')
    {τ : List (Move σ ι)} {s : σ} (h : M.Run τ s) (hC : ∀ m ∈ τ, C m)
    {m : Move σ ι} (hm : m ∈ τ) :
    I m.pre ∧ M.step m.pre m.label = some m.post ∧ I m.post := by
  obtain ⟨τ', τ'', rfl, hrun, hs⟩ := h.of_mem hm
  have hpre : I m.pre :=
    hrun.invariant_of_moves hinit hstep fun m' hm' => hC m' (List.mem_append_left _ hm')
  exact ⟨hpre, hs, hstep _ _ _ hpre hs (hC m hm)⟩

/-- Under an invariant, every move of a run starts and ends in a state that has it. -/
theorem Run.invariant_of_mem {I : σ → Prop} (hinit : ∀ s, M.init s → I s)
    (hstep : ∀ s l s', I s → M.step s l = some s' → I s')
    {τ : List (Move σ ι)} {s : σ} (h : M.Run τ s) {m : Move σ ι} (hm : m ∈ τ) :
    I m.pre ∧ M.step m.pre m.label = some m.post ∧ I m.post :=
  h.move_of_mem (C := fun _ => True) hinit (fun s l s' hs ht _ => hstep s l s' hs ht)
    (fun _ _ => trivial) hm

/-- **Guarded stability rule.**  What a move of a guarded run brought about, and every such move
from a state of the invariant preserves, holds at the end of the run. -/
theorem Run.stable_of_moves {I Q : σ → Prop} {C : Move σ ι → Prop} (hinit : ∀ s, M.init s → I s)
    (hstep : ∀ s l s', I s → M.step s l = some s' → C ⟨s, l, s'⟩ → I s')
    (hstable : ∀ s l s', I s → M.step s l = some s' → C ⟨s, l, s'⟩ → Q s → Q s')
    {τ : List (Move σ ι)} {s : σ} (h : M.Run τ s) (hC : ∀ m ∈ τ, C m)
    {m : Move σ ι} (hm : m ∈ τ) (hpost : Q m.post) : Q s := by
  induction h with
  | start => simp at hm
  | snoc hrun hs ih =>
      have hbefore := fun m hm => hC m (List.mem_append_left _ hm)
      rcases List.mem_append.mp hm with hold | hlast
      · exact hstable _ _ _ (hrun.invariant_of_moves hinit hstep hbefore) hs (hC _ (by simp))
          (ih hbefore hold)
      · obtain rfl := List.mem_singleton.mp hlast
        exact hpost

/-- **Stability rule.**  What a move of a run brought about, and every move from a state of the
invariant preserves, holds at the end of the run. -/
theorem Run.stable {I Q : σ → Prop} (hinit : ∀ s, M.init s → I s)
    (hstep : ∀ s l s', I s → M.step s l = some s' → I s')
    (hstable : ∀ s l s', I s → M.step s l = some s' → Q s → Q s')
    {τ : List (Move σ ι)} {s : σ} (h : M.Run τ s) {m : Move σ ι} (hm : m ∈ τ) (hpost : Q m.post) :
    Q s :=
  h.stable_of_moves (C := fun _ => True) hinit (fun s l s' hs ht _ => hstep s l s' hs ht)
    (fun s l s' hs ht _ => hstable s l s' hs ht) (fun _ _ => trivial) hm hpost

/-! ## Potentials -/

/-- **Potential rule.**  A potential starts with at most `c`, and no move raises it by more than it
`earned`, after it has paid what the move `spent`.  Then a run has spent at most `c` and what it has
earned. -/
theorem Run.spent_le {Φ : σ → ℕ} {spent earned : ι → ℕ} {c : ℕ} (hinit : ∀ s, M.init s → Φ s ≤ c)
    (hstep : ∀ s l s', M.step s l = some s' → Φ s' + spent l ≤ Φ s + earned l)
    {τ : List (Move σ ι)} {s : σ} (h : M.Run τ s) :
    (τ.map fun m => spent m.label).sum + Φ s ≤ c + (τ.map fun m => earned m.label).sum := by
  induction h with
  | start h => simpa using hinit _ h
  | snoc _ hs ih =>
      have hmove := hstep _ _ _ hs
      simp only [List.map_append, List.sum_append, List.map_singleton, List.sum_singleton]
      omega

/-! ## Properties of moves -/

/-- **History rule.**  Let `Q` fail initially, and let a move lead to `Q` exactly if `Q` held before
it or it has the property `P`.  Then `Q` holds in the end exactly if some move had `P`. -/
theorem Run.exists_move_iff {I Q : σ → Prop} {P C : Move σ ι → Prop}
    (hinit : ∀ s, M.init s → I s ∧ ¬Q s)
    (hstep : ∀ s l s', I s → M.step s l = some s' → C ⟨s, l, s'⟩ → I s')
    (hiff : ∀ s l s', I s → M.step s l = some s' → C ⟨s, l, s'⟩ → (Q s' ↔ Q s ∨ P ⟨s, l, s'⟩))
    {τ : List (Move σ ι)} {s : σ} (h : M.Run τ s) (hC : ∀ m ∈ τ, C m) :
    Q s ↔ ∃ m ∈ τ, P m := by
  induction h with
  | start h => simpa using (hinit _ h).2
  | @snoc τ₀ s₀ l s₁ hrun hs ih =>
      have hbefore : ∀ m ∈ τ₀, C m := fun m hm => hC m (List.mem_append_left _ hm)
      have hI := hrun.invariant_of_moves (fun s hs => (hinit s hs).1) hstep hbefore
      rw [hiff _ _ _ hI hs (hC _ (by simp)), ih hbefore]
      simp [or_and_right, exists_or]

/-- **Characterisation rule.**  Let `I` hold initially and be preserved by the moves that meet
`C`, and let a move from a state with `I` have the property `P` exactly when it meets `C`.  Then
all moves of a run have `P` exactly when they all meet `C`. -/
theorem Run.moves_iff {I : σ → Prop} {P C : Move σ ι → Prop} (hinit : ∀ s, M.init s → I s)
    (hstep : ∀ s l s', I s → M.step s l = some s' → C ⟨s, l, s'⟩ → I s')
    (hiff : ∀ s l s', I s → M.step s l = some s' → (P ⟨s, l, s'⟩ ↔ C ⟨s, l, s'⟩))
    {τ : List (Move σ ι)} {s : σ} (h : M.Run τ s) : (∀ m ∈ τ, P m) ↔ ∀ m ∈ τ, C m := by
  induction h with
  | start => simp
  | @snoc τ₀ s₀ l s₁ hrun hs ih =>
      have hsplit : ∀ R : Move σ ι → Prop,
          (∀ m ∈ τ₀ ++ [⟨s₀, l, s₁⟩], R m) ↔ (∀ m ∈ τ₀, R m) ∧ R ⟨s₀, l, s₁⟩ := by
        intro R
        simp [or_imp, forall_and]
      rw [hsplit P, hsplit C, ih]
      -- the last move starts in `I` because the moves before it meet `C`
      exact and_congr_right fun hC => hiff _ _ _ (hrun.invariant_of_moves hinit hstep hC) hs

end Machine

end LearnJava
