import Mathlib.Tactic

/-!
# Sets of flags in a number

Each flag has a bit of its own, and a number whose bits are those of the flags in a set encodes the
set.  Or-ing adds flags, and the test `m &&& n = n` is inclusion (`Encodes.and_eq_iff`).
-/

namespace LearnJava

namespace Flags

variable {ε : Type*} {bit : ε → ℕ} {m n : ℕ} {S T : Set ε}

/-- The bits of `n` are those of the flags in `S`. -/
def Encodes (bit : ε → ℕ) (n : ℕ) (S : Set ε) : Prop :=
  ∀ i, n.testBit i = true ↔ ∃ e ∈ S, bit e = i

lemma encodes_zero (bit : ε → ℕ) : Encodes bit 0 ∅ := by
  intro i
  simp

lemma Encodes.insert (h : Encodes bit n S) (e : ε) :
    Encodes bit (n ||| 2 ^ bit e) (insert e S) := by
  intro i
  simp [Nat.testBit_or, Nat.testBit_two_pow, h i, or_comm]

lemma Encodes.mem_iff (hbit : Function.Injective bit) (h : Encodes bit n S) (e : ε) :
    n.testBit (bit e) = true ↔ e ∈ S := by
  rw [h (bit e)]
  constructor
  · rintro ⟨d, hd, hde⟩
    exact hbit hde ▸ hd
  · intro he
    exact ⟨e, he, rfl⟩

/-- **The mask test is inclusion.** -/
theorem Encodes.and_eq_iff (hbit : Function.Injective bit) (hm : Encodes bit m S)
    (hn : Encodes bit n T) : m &&& n = n ↔ T ⊆ S := by
  constructor
  · intro hand e he
    have hset : (m &&& n).testBit (bit e) = true := by
      rw [hand]
      exact (hn.mem_iff hbit e).mpr he
    rw [Nat.testBit_and, Bool.and_eq_true] at hset
    exact (hm.mem_iff hbit e).mp hset.1
  · intro hsub
    refine Nat.eq_of_testBit_eq fun i => ?_
    rw [Nat.testBit_and, Bool.and_eq_right_iff_imp]
    intro hi
    obtain ⟨e, he, hei⟩ := (hn i).mp hi
    exact (hm i).mpr ⟨e, hsub he, hei⟩

end Flags

end LearnJava
