import LearnJava.Foundation.Run

/-!
# Runs that come to an end

Some labels of a machine are moves of the program itself, the others are what its environment does
to it.  A state is *quiet* when no move of the program is enabled in it.  Where every move lowers a
variant, a run has at most as many moves as the variant has at its beginning
(`Run.length_add_variant_le`, and `Run.length_add_variant_le_add` with moves that raise it), so does
what the program does by itself from a state (`length_add_variant_le_of_play`), and every run can be
continued by moves of the program to a quiet state (`Run.exists_quiet`).  What holds of the quiet
states that are reached is then what every run comes to, whatever the order of its moves.
-/

namespace LearnJava

namespace Machine

variable {σ ι : Type*}

/-- No move with a label in `own` is enabled. -/
def Quiet (M : Machine σ ι) (own : ι → Prop) (s : σ) : Prop := ∀ l, own l → M.step s l = none

variable {M : Machine σ ι} {own : ι → Prop}

lemma not_quiet_iff {s : σ} : ¬M.Quiet own s ↔ ∃ l s', own l ∧ M.step s l = some s' := by
  simp only [Quiet, not_forall, ← ne_eq, Option.ne_none_iff_exists']
  exact exists_congr fun l => ⟨fun ⟨hl, s', hs⟩ => ⟨s', hl, hs⟩, fun ⟨s', hl, hs⟩ => ⟨hl, s', hs⟩⟩

/-- **Variant rule.**  If the variant starts with at most `n` and a move from a state of the
invariant lowers it, or is one in `raising` and raises it by less than `c`, then a run has at most
`n` moves and `c` more for each of those. -/
theorem Run.length_add_variant_le_add {I : σ → Prop} (raising : ι → Prop) [DecidablePred raising]
    (variant : σ → ℕ) {n c : ℕ} (hinit : ∀ s, M.init s → I s ∧ variant s ≤ n)
    (hstep : ∀ s l s', I s → M.step s l = some s' → I s')
    (hlower : ∀ s l s', I s → ¬raising l → M.step s l = some s' → variant s' < variant s)
    (hraise : ∀ s l s', I s → raising l → M.step s l = some s' → variant s' < variant s + c)
    {τ : List (Move σ ι)} {s : σ} (h : M.Run τ s) :
    τ.length + variant s ≤ n + c * τ.countP fun m => raising m.label := by
  induction h with
  | start h => simpa using (hinit _ h).2
  | @snoc τ s l s' hrun hs ih =>
      have hI := hrun.invariant (fun s hs => (hinit s hs).1) hstep
      rw [List.length_append, List.length_singleton, List.countP_append, List.countP_singleton]
      by_cases hl : raising l
      · have hlt := hraise _ _ _ hI hl hs
        simp only [hl, decide_true, if_true, Nat.mul_add]
        omega
      · have hlt := hlower _ _ _ hI hl hs
        simp only [hl, decide_false, Bool.false_eq_true, if_false, add_zero]
        omega

/-- Where every move lowers the variant, it bounds the whole run. -/
theorem Run.length_add_variant_le {I : σ → Prop} (variant : σ → ℕ) {n : ℕ}
    (hinit : ∀ s, M.init s → I s ∧ variant s ≤ n)
    (hstep : ∀ s l s', I s → M.step s l = some s' → I s')
    (hlower : ∀ s l s', I s → M.step s l = some s' → variant s' < variant s)
    {τ : List (Move σ ι)} {s : σ} (h : M.Run τ s) : τ.length + variant s ≤ n := by
  simpa using h.length_add_variant_le_add (c := 0) (fun _ => False) variant hinit hstep
    (fun s l s' hs _ => hlower s l s' hs) (fun _ _ _ _ hfalse => hfalse.elim)

/-- The same for the moves of the program alone, from any state of the invariant. -/
theorem length_add_variant_le_of_play {I : σ → Prop} (own : ι → Prop) (variant : σ → ℕ)
    (hstep : ∀ s l s', I s → M.step s l = some s' → I s')
    (hlower : ∀ s l s', I s → own l → M.step s l = some s' → variant s' < variant s)
    {ls : List ι} {s s' : σ} (hs : I s) (hown : ∀ l ∈ ls, own l) (h : M.play s ls = some s') :
    ls.length + variant s' ≤ variant s := by
  induction ls generalizing s with
  | nil =>
      obtain rfl : s = s' := by simpa [play] using h
      simp
  | cons l ls ih =>
      obtain ⟨s₁, hl, hrest⟩ := Option.bind_eq_some_iff.mp h
      have hlt := hlower _ _ _ hs (hown l List.mem_cons_self) hl
      have hle := ih (hstep _ _ _ hs hl) (fun l hmem => hown l (List.mem_cons_of_mem _ hmem)) hrest
      rw [List.length_cons]
      omega

/-- **Completion rule.**  If every move of the program lowers the variant, then every run can be
continued by such moves until none is enabled. -/
theorem Run.exists_quiet {I : σ → Prop} (own : ι → Prop) (variant : σ → ℕ)
    (hinit : ∀ s, M.init s → I s)
    (hstep : ∀ s l s', I s → M.step s l = some s' → I s')
    (hlower : ∀ s l s', I s → own l → M.step s l = some s' → variant s' < variant s)
    {τ : List (Move σ ι)} {s : σ} (h : M.Run τ s) :
    ∃ τ' s', M.Run (τ ++ τ') s' ∧ (∀ m ∈ τ', own m.label) ∧ M.Quiet own s' := by
  generalize hn : variant s = n
  induction n using Nat.strong_induction_on generalizing τ s with
  | _ n ih =>
      by_cases hquiet : M.Quiet own s
      · exact ⟨[], s, by simpa using h, by simp, hquiet⟩
      · obtain ⟨l, s₁, hl, hs⟩ := not_quiet_iff.mp hquiet
        have hlt := hlower _ _ _ (h.invariant hinit hstep) hl hs
        obtain ⟨τ', s', hrun, hown, hend⟩ := ih _ (hn ▸ hlt) (h.snoc hs) rfl
        refine ⟨⟨s, l, s₁⟩ :: τ', s', by simpa using hrun, fun m hm => ?_, hend⟩
        rcases List.mem_cons.mp hm with rfl | hrest
        · exact hl
        · exact hown m hrest

end Machine

/-! ## Variants that are sums -/

/-- A sum over all parties when one of them is changed. -/
lemma sum_update_add {κ α : Type*} [Fintype κ] [DecidableEq κ] (w : α → ℕ) (f : κ → α) (c : κ)
    (x : α) : ∑ d, w (Function.update f c x d) + w (f c) = ∑ d, w (f d) + w x := by
  have hrest : ∑ d ∈ Finset.univ.erase c, w (Function.update f c x d) =
      ∑ d ∈ Finset.univ.erase c, w (f d) :=
    Finset.sum_congr rfl fun d hd => by rw [Function.update_of_ne (Finset.ne_of_mem_erase hd)]
  rw [← Finset.sum_erase_add _ _ (Finset.mem_univ c), hrest, Function.update_self,
    ← Finset.sum_erase_add Finset.univ (fun d => w (f d)) (Finset.mem_univ c)]
  exact add_right_comm _ _ _

/-- A sum over all parties when one of them moves and each of the others gains at most `c`. -/
lemma sum_add_le_sum_add {κ : Type*} [Fintype κ] [DecidableEq κ] {f g : κ → ℕ} (t : κ) {c : ℕ}
    (h : ∀ u, u ≠ t → g u ≤ f u + c) :
    ∑ u, g u + f t ≤ ∑ u, f u + g t + Fintype.card κ * c := by
  have hrest : ∑ u ∈ Finset.univ.erase t, g u ≤ ∑ u ∈ Finset.univ.erase t, (f u + c) :=
    Finset.sum_le_sum fun u hu => h u (Finset.ne_of_mem_erase hu)
  have hcard : ∑ u ∈ Finset.univ.erase t, (f u + c) ≤
      ∑ u ∈ Finset.univ.erase t, f u + Fintype.card κ * c := by
    rw [Finset.sum_add_distrib, Finset.sum_const, smul_eq_mul]
    exact Nat.add_le_add_left (Nat.mul_le_mul_right c (Finset.card_le_univ _)) _
  rw [← Finset.sum_erase_add _ _ (Finset.mem_univ t),
    ← Finset.sum_erase_add Finset.univ f (Finset.mem_univ t)]
  omega

end LearnJava
