import Mathlib.Data.Nat.Digits.Lemmas
import Mathlib.Tactic

/-!
# Numbers written with the highest digit first

The digits of a number determine it, but not the other way round: zeros in front make no difference.
Two lists of digits stand for the same number exactly if one of them is the other one behind zeros
(`bigEndian_eq_iff`).
-/

namespace LearnJava

variable {b : ℕ} {ds ds' : List ℕ}

/-- The number with the digits `ds` in the base `b`, the highest one first. -/
def bigEndian (b : ℕ) (ds : List ℕ) : ℕ := Nat.ofDigits b ds.reverse

@[simp] lemma bigEndian_nil (b : ℕ) : bigEndian b [] = 0 := rfl

lemma bigEndian_snoc (b : ℕ) (ds : List ℕ) (d : ℕ) :
    bigEndian b (ds ++ [d]) = bigEndian b ds * b + d := by
  rw [bigEndian, List.reverse_concat, Nat.ofDigits_cons, bigEndian, mul_comm, add_comm]

@[simp] lemma bigEndian_zeros_append (b k : ℕ) (ds : List ℕ) :
    bigEndian b (List.replicate k 0 ++ ds) = bigEndian b ds := by
  rw [bigEndian, List.reverse_append, List.reverse_replicate, Nat.ofDigits_append_replicate_zero,
    bigEndian]

lemma bigEndian_lt (hb : 1 < b) (hds : ∀ d ∈ ds, d < b) : bigEndian b ds < b ^ ds.length := by
  have hlt := Nat.ofDigits_lt_base_pow_length hb (fun d hd => hds d (List.mem_reverse.mp hd))
  rwa [List.length_reverse] at hlt

/-- Lists of the same length. -/
lemma bigEndian_inj (hb : 1 < b) (hlength : ds.length = ds'.length) (hds : ∀ d ∈ ds, d < b)
    (hds' : ∀ d ∈ ds', d < b) (h : bigEndian b ds = bigEndian b ds') : ds = ds' := by
  apply List.reverse_injective
  refine Nat.ofDigits_inj_of_len_eq hb ?_ ?_ ?_ h
  · rw [List.length_reverse, List.length_reverse, hlength]
  · intro d hd
    exact hds d (List.mem_reverse.mp hd)
  · intro d hd
    exact hds' d (List.mem_reverse.mp hd)

/-- **The same number** is the same digits behind any zeros. -/
theorem bigEndian_eq_iff (hb : 1 < b) (hds : ∀ d ∈ ds, d < b) (hds' : ∀ d ∈ ds', d < b)
    (hlength : ds'.length ≤ ds.length) :
    bigEndian b ds = bigEndian b ds' ↔
      ds = List.replicate (ds.length - ds'.length) 0 ++ ds' := by
  constructor
  · intro h
    refine bigEndian_inj hb ?_ hds ?_ ?_
    · rw [List.length_append, List.length_replicate, Nat.sub_add_cancel hlength]
    · intro d hd
      rcases List.mem_append.mp hd with hzero | hd
      · rw [List.eq_of_mem_replicate hzero]
        exact Nat.zero_lt_of_lt hb
      · exact hds' d hd
    · rw [bigEndian_zeros_append, h]
  · intro h
    rw [h, bigEndian_zeros_append]

end LearnJava
