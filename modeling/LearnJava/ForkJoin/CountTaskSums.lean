import LearnJava.ForkJoin.CountTask

/-!
# What a `CountTask` sums up

A split is right as long as `start + end` is an `int`.  Where it is not, the middle that is halved
from the wrapped sum lies on the other side of zero, and the lengths of both parts wrap to negative
values, so that neither is split again: one part is empty, and the other one goes through the range
and all ints between it and the middle.

No split of a range that ends at `2 ^ 30 + 1` or below has too large a sum.  Of one that ends at
`2 ^ 30 + 3` or above, the last split at its end has; in between it depends on the length, which is
halved down to 4, 5, 6 or 7 ints as its two highest binary digits tell (`HighOnes`).  The lower end
is treated alike (`Halves`).

The counter of the loop is at most `end`.  It passes `end` unless `end` is the largest `int`, and
every task that has this end has a part that has it, too.
-/

namespace LearnJava

open Fuel

namespace CountTask

variable {t : CountTask}

/-! ## Ranges -/

/-- Each int from `a` to `b` is in the list once, and there is no other. -/
def Covers (is : List ℤ) (a b : ℤ) : Prop :=
  ∀ i, is.count i = if a ≤ i ∧ i ≤ b then 1 else 0

lemma covers_nil {a b : ℤ} (h : b < a) : Covers [] a b := by
  intro i
  rw [if_neg (by omega)]
  rfl

lemma Covers.cons {is : List ℤ} {a b : ℤ} (h : Covers is (a + 1) b) (hab : a ≤ b) :
    Covers (a :: is) a b := by
  intro i
  rw [List.count_cons, h i]
  split_ifs <;> simp_all <;> omega

/-! ## Sums of ranges -/

/-- The sum of the ints from `a` to `b`. -/
noncomputable def sumOf (a b : ℤ) : ℤ := ∑ i ∈ Finset.Icc a b, i

lemma sumOf_eq_zero {a b : ℤ} (h : b < a) : sumOf a b = 0 := by
  rw [sumOf, Finset.Icc_eq_empty (not_le.mpr h), Finset.sum_empty]

/-- A range is covered by its two parts. -/
lemma sumOf_append {a b c : ℤ} (hab : a ≤ b + 1) (hbc : b ≤ c) :
    sumOf a b + sumOf (b + 1) c = sumOf a c := by
  have hdisjoint : Disjoint (Finset.Icc a b) (Finset.Icc (b + 1) c) := by
    rw [Finset.disjoint_left]
    intro i hi hi'
    rw [Finset.mem_Icc] at hi hi'
    omega
  rw [sumOf, sumOf, sumOf, ← Finset.sum_union hdisjoint]
  refine Finset.sum_congr ?_ fun _ _ => rfl
  ext i
  simp only [Finset.mem_union, Finset.mem_Icc]
  omega

/-- The sum of a list that covers a range. -/
lemma Covers.sum {is : List ℤ} {a b : ℤ} (h : Covers is a b) : is.sum = sumOf a b := by
  have hsame : (is : Multiset ℤ) = (Finset.Icc a b).val := by
    refine Multiset.ext.mpr fun i => ?_
    rw [Multiset.coe_count, h i, Multiset.count_eq_of_nodup (Finset.Icc a b).nodup]
    simp
  rw [sumOf, Finset.sum, ← hsame]
  simp

/-- Gauss's formula. -/
lemma two_mul_sumOf {a b : ℤ} (h : a ≤ b + 1) : 2 * sumOf a b = (a + b) * (b - a + 1) := by
  obtain ⟨n, rfl⟩ : ∃ n : ℕ, b = a + n - 1 := ⟨(b + 1 - a).toNat, by omega⟩
  clear h
  induction n with
  | zero =>
      rw [sumOf_eq_zero (by omega)]
      ring
  | succ n ih =>
      have hlast := sumOf_append (a := a) (b := a + n - 1) (c := a + ↑(n + 1) - 1) (by omega)
        (by omega)
      have hone : sumOf (a + n - 1 + 1) (a + ↑(n + 1) - 1) = a + n := by
        have hsame : a + ↑(n + 1) - 1 = a + (n : ℤ) := by push_cast; ring
        rw [hsame, sub_add_cancel, sumOf, Finset.Icc_self, Finset.sum_singleton]
      rw [hone] at hlast
      rw [← hlast, mul_add, ih]
      push_cast
      ring

/-! ## The loop -/

/-- The counter passes an end that is not the largest `int`. -/
lemma returns_loopInts {i stop : ℤ} (hi : -2 ^ 31 ≤ i) (hstop : stop < Integer.MAX_VALUE) :
    ∃ is, Returns (fun n => loopInts n i stop) is ∧ Covers is i stop := by
  obtain ⟨n, hn⟩ : ∃ n : ℕ, n = (stop + 1 - i).toNat := ⟨_, rfl⟩
  induction n generalizing i with
  | zero =>
      have hpast : stop < i := by omega
      refine ⟨[], ⟨1, ?_⟩, covers_nil hpast⟩
      change loopInts 1 i stop = _
      rw [loopInts, if_neg (not_le.mpr hpast)]
  | succ n ih =>
      have hle : i ≤ stop := by omega
      have hnext : wrap32 (i + 1) = i + 1 := by
        unfold Integer.MAX_VALUE at hstop
        exact wrap32_of_range (by omega) (by omega)
      obtain ⟨is, ⟨fuel, hrest⟩, hcovers⟩ := ih (i := i + 1) (by omega) (by omega)
      refine ⟨i :: is, ⟨fuel + 1, ?_⟩, hcovers.cons hle⟩
      change loopInts (fuel + 1) i stop = _
      rw [loopInts, if_pos hle, hnext]
      exact Option.map_eq_some_iff.mpr ⟨is, hrest, rfl⟩

/-- It never passes the largest `int`. -/
lemma sumFrom_max {i : ℤ} (hi : IsInt i) (sum : ℤ) (n : ℕ) :
    sumFrom n i Integer.MAX_VALUE sum = none := by
  induction n generalizing i sum with
  | zero => rfl
  | succ n ih =>
      have hle : i ≤ Integer.MAX_VALUE := Int.le_sub_one_of_lt hi.2
      rw [sumFrom, if_pos hle]
      exact ih (isInt_wrap32 _) _

/-! ## The splits -/

/-- The parts of a range whose sum of bounds is an `int`. -/
lemma split_inside (h : t.canCompute = false) (hle : t.start ≤ t.stop)
    (hsum : IsInt (t.start + t.stop)) :
    t.start ≤ t.middle ∧ t.middle < t.stop ∧ wrap32 (t.middle + 1) = t.middle + 1 := by
  have hstart := t.isInt_start
  have hstop := t.isInt_stop
  have hhalf := tdiv_two_cases (t.start + t.stop)
  rw [canCompute_eq_false_iff] at h
  unfold IsInt at *
  rw [middle, wrap32_of_range hsum.1 hsum.2]
  unfold wrap32 at *
  omega

lemma length_parts (h : t.canCompute = false) (hle : t.start ≤ t.stop)
    (hsum : IsInt (t.start + t.stop)) :
    (t.recursiveTaskOne.stop - t.recursiveTaskOne.start).toNat < (t.stop - t.start).toNat ∧
      (t.recursiveTaskTwo.stop - t.recursiveTaskTwo.start).toNat < (t.stop - t.start).toNat := by
  obtain ⟨hfirst, hsecond, hnext⟩ := split_inside h hle hsum
  rw [recursiveTaskOne_start, recursiveTaskOne_stop, recursiveTaskTwo_start,
    recursiveTaskTwo_stop, hnext]
  omega

/-- Where the sum of the bounds is too large, the first part is empty, and the second one begins on
the other side of zero. -/
lemma split_above (h : t.canCompute = false) (hle : t.start ≤ t.stop)
    (hsum : 2 ^ 31 ≤ t.start + t.stop) :
    t.middle + 1 < t.start ∧ wrap32 (t.middle + 1) = t.middle + 1 ∧
      t.recursiveTaskOne.canCompute = true ∧ t.recursiveTaskTwo.canCompute = true := by
  have hstart := t.isInt_start
  have hstop := t.isInt_stop
  unfold IsInt at *
  have hwrap : wrap32 (t.start + t.stop) = t.start + t.stop - 2 ^ 32 := by
    unfold wrap32
    omega
  have hhalf := tdiv_two_cases (t.start + t.stop - 2 ^ 32)
  rw [canCompute_eq_false_iff] at h
  simp only [canCompute_iff, recursiveTaskOne_start, recursiveTaskOne_stop,
    recursiveTaskTwo_start, recursiveTaskTwo_stop, middle, hwrap]
  unfold wrap32 at *
  omega

lemma split_below (h : t.canCompute = false) (hle : t.start ≤ t.stop)
    (hsum : t.start + t.stop < -2 ^ 31) :
    t.stop < t.middle ∧ wrap32 (t.middle + 1) = t.middle + 1 ∧
      t.recursiveTaskOne.canCompute = true ∧ t.recursiveTaskTwo.canCompute = true := by
  have hstart := t.isInt_start
  have hstop := t.isInt_stop
  unfold IsInt at *
  have hwrap : wrap32 (t.start + t.stop) = t.start + t.stop + 2 ^ 32 := by
    unfold wrap32
    omega
  have hhalf := tdiv_two_cases (t.start + t.stop + 2 ^ 32)
  rw [canCompute_eq_false_iff] at h
  simp only [canCompute_iff, recursiveTaskOne_start, recursiveTaskOne_stop,
    recursiveTaskTwo_start, recursiveTaskTwo_stop, middle, hwrap]
  unfold wrap32 at *
  omega

/-- A range whose bounds are in the wrong order is split into two of this kind. -/
lemma split_crossed (h : t.canCompute = false) (hlt : t.stop < t.start) :
    t.middle < t.start ∧ t.stop < wrap32 (t.middle + 1) ∧
      t.recursiveTaskOne.canCompute = true ∧ t.recursiveTaskTwo.canCompute = true := by
  have hstart := t.isInt_start
  have hstop := t.isInt_stop
  unfold IsInt at *
  rw [canCompute_eq_false_iff] at h
  have hwrap : wrap32 (t.start + t.stop) = t.start + t.stop := by
    unfold wrap32 at *
    omega
  have hhalf := tdiv_two_cases (t.start + t.stop)
  simp only [canCompute_iff, recursiveTaskOne_start, recursiveTaskOne_stop,
    recursiveTaskTwo_start, recursiveTaskTwo_stop, middle, hwrap]
  unfold wrap32 at *
  omega

/-! ## Ranges without an overflowing split -/

/-- The two highest binary digits of `n` are ones. -/
def HighOnes (n : ℤ) : Prop := ∃ k : ℕ, 3 * 2 ^ k ≤ n ∧ n < 4 * 2 ^ k

lemma highOnes_half {n : ℤ} (h : 4 ≤ n) : HighOnes n ↔ HighOnes (n / 2) := by
  constructor
  · rintro ⟨k, hlow, hhigh⟩
    cases k with
    | zero => omega
    | succ k =>
        rw [pow_succ] at hlow hhigh
        exact ⟨k, by omega, by omega⟩
  · rintro ⟨k, hlow, hhigh⟩
    refine ⟨k + 1, ?_, ?_⟩ <;> rw [pow_succ] <;> omega

lemma highOnes_three : HighOnes 3 := ⟨0, by norm_num⟩

lemma not_highOnes_two : ¬HighOnes 2 := by
  rintro ⟨k, hlow, -⟩
  have hpow : (1 : ℤ) ≤ 2 ^ k := one_le_pow₀ (by norm_num)
  omega

/-- The last split at the upper end of a range does not overflow. -/
def UpperHalves (a b : ℤ) : Prop := b ≤ 2 ^ 30 + 1 ∨ b = 2 ^ 30 + 2 ∧ HighOnes (b - a + 1)

/-- The last split at the lower end of a range does not overflow. -/
def LowerHalves (a b : ℤ) : Prop := -2 ^ 30 - 1 ≤ a ∨ a = -2 ^ 30 - 2 ∧ HighOnes (b - a - 1)

/-- A range is short or so long that its length is no `int`, or both of its ends can be halved. -/
def Halves (a b : ℤ) : Prop :=
  b - a ≤ 2 ∨ 2 ^ 31 ≤ b - a ∨ LowerHalves a b ∧ UpperHalves a b

lemma halves_leaf (h : t.canCompute = true) : Halves t.start t.stop := by
  have hstart := t.isInt_start
  have hstop := t.isInt_stop
  rw [canCompute_iff] at h
  unfold IsInt at *
  unfold wrap32 at h
  unfold Halves
  omega

lemma length_of_split (h : t.canCompute = false) (hle : t.start ≤ t.stop) :
    3 ≤ t.stop - t.start ∧ t.stop - t.start < 2 ^ 31 := by
  have hstart := t.isInt_start
  have hstop := t.isInt_stop
  rw [canCompute_eq_false_iff] at h
  unfold IsInt at *
  unfold wrap32 at h
  omega

/-- A split whose sum of bounds is no `int`. -/
lemma not_halves_of_overflow (h : t.canCompute = false) (hle : t.start ≤ t.stop)
    (hsum : ¬IsInt (t.start + t.stop)) : ¬Halves t.start t.stop := by
  obtain ⟨hshort, hlong⟩ := length_of_split h hle
  have hfour : ∀ n : ℤ, n / 2 = 2 → ¬HighOnes n := by
    intro n hn hones
    rw [highOnes_half (by omega), hn] at hones
    exact not_highOnes_two hones
  unfold IsInt at hsum
  rintro (_ | _ | ⟨hlower, hupper⟩)
  · omega
  · omega
  · obtain habove | hbelow : 2 ^ 31 ≤ t.start + t.stop ∨ t.start + t.stop < -2 ^ 31 := by omega
    · obtain hlow | ⟨htop, hones⟩ := hupper
      · omega
      · exact hfour _ (by omega) hones
    · obtain hhigh | ⟨hbottom, hones⟩ := hlower
      · omega
      · have htwo : t.stop - t.start - 1 = 2 := by omega
        rw [htwo] at hones
        exact not_highOnes_two hones

/-- The lower part has the lower end of the range. -/
lemma lowerHalves_split (h : t.canCompute = false) (hle : t.start ≤ t.stop)
    (hsum : IsInt (t.start + t.stop)) :
    Halves t.start t.middle ↔ LowerHalves t.start t.stop := by
  obtain ⟨hshort, hlong⟩ := length_of_split h hle
  obtain ⟨hfirst, hsecond, -⟩ := split_inside h hle hsum
  have hhalf := tdiv_two_cases (t.start + t.stop)
  have hmiddle : t.middle = (t.start + t.stop).tdiv 2 := by
    rw [middle, wrap32_of_range hsum.1 hsum.2]
  unfold IsInt at hsum
  have hupper : UpperHalves t.start t.middle := .inl (by omega)
  obtain hnear | hbottom | hfar : -2 ^ 30 - 1 ≤ t.start ∨ t.start = -2 ^ 30 - 2 ∨
      t.start ≤ -2 ^ 30 - 3 := by omega
  · exact iff_of_true (.inr (.inr ⟨.inl hnear, hupper⟩)) (.inl hnear)
  · have hparts : LowerHalves t.start t.stop ↔ HighOnes (t.stop - t.start - 1) := by
      unfold LowerHalves
      simp [hbottom]
    obtain hfive | hmore : t.stop - t.start = 4 ∨ 5 ≤ t.stop - t.start := by omega
    · refine iff_of_true (.inl (by omega)) (hparts.mpr ?_)
      rw [hfive]
      exact highOnes_three
    · have hsame : (t.stop - t.start - 1) / 2 = t.middle - t.start - 1 := by omega
      rw [hparts, highOnes_half (by omega), hsame]
      refine ⟨?_, fun hones => .inr (.inr ⟨.inr ⟨hbottom, hones⟩, hupper⟩)⟩
      rintro (hend | hend | ⟨hlower | ⟨-, hones⟩, -⟩)
      · omega
      · omega
      · omega
      · exact hones
  · refine iff_of_false ?_ ?_
    · rintro (hend | hend | ⟨hlower | ⟨hlower, -⟩, -⟩) <;> omega
    · rintro (hlower | ⟨hlower, -⟩) <;> omega

/-- The upper part has the upper end of the range. -/
lemma upperHalves_split (h : t.canCompute = false) (hle : t.start ≤ t.stop)
    (hsum : IsInt (t.start + t.stop)) :
    Halves (t.middle + 1) t.stop ↔ UpperHalves t.start t.stop := by
  obtain ⟨hshort, hlong⟩ := length_of_split h hle
  obtain ⟨hfirst, hsecond, -⟩ := split_inside h hle hsum
  have hhalf := tdiv_two_cases (t.start + t.stop)
  have hmiddle : t.middle = (t.start + t.stop).tdiv 2 := by
    rw [middle, wrap32_of_range hsum.1 hsum.2]
  unfold IsInt at hsum
  have hlower : LowerHalves (t.middle + 1) t.stop := .inl (by omega)
  obtain hnear | htop | hfar : t.stop ≤ 2 ^ 30 + 1 ∨ t.stop = 2 ^ 30 + 2 ∨
      2 ^ 30 + 3 ≤ t.stop := by omega
  · exact iff_of_true (.inr (.inr ⟨hlower, .inl hnear⟩)) (.inl hnear)
  · have hparts : UpperHalves t.start t.stop ↔ HighOnes (t.stop - t.start + 1) := by
      unfold UpperHalves
      simp [htop]
    have hsame : (t.stop - t.start + 1) / 2 = t.stop - (t.middle + 1) + 1 := by omega
    rw [hparts, highOnes_half (by omega), hsame]
    obtain hsix | hmore : t.stop - (t.middle + 1) + 1 = 3 ∨ 4 ≤ t.stop - (t.middle + 1) + 1 := by
      omega
    · refine iff_of_true (.inl (by omega)) ?_
      rw [hsix]
      exact highOnes_three
    · refine ⟨?_, fun hones => .inr (.inr ⟨hlower, .inr ⟨htop, hones⟩⟩)⟩
      rintro (hend | hend | ⟨-, hupper | ⟨-, hones⟩⟩)
      · omega
      · omega
      · omega
      · exact hones
  · refine iff_of_false ?_ ?_
    · rintro (hend | hend | ⟨-, hupper | ⟨hupper, -⟩⟩) <;> omega
    · rintro (hupper | ⟨hupper, -⟩) <;> omega

/-- **A split that does not overflow leaves it to both parts.** -/
lemma halves_split (h : t.canCompute = false) (hle : t.start ≤ t.stop)
    (hsum : IsInt (t.start + t.stop)) :
    Halves t.start t.stop ↔ Halves t.start t.middle ∧ Halves (t.middle + 1) t.stop := by
  obtain ⟨hshort, hlong⟩ := length_of_split h hle
  rw [lowerHalves_split h hle hsum, upperHalves_split h hle hsum]
  refine ⟨?_, fun hboth => .inr (.inr hboth)⟩
  rintro (hend | hend | hboth)
  · omega
  · omega
  · exact hboth

/-! ## What a task adds -/

lemma middle_lt_max (t : CountTask) : t.middle < Integer.MAX_VALUE := by
  have hsum := isInt_wrap32 (t.start + t.stop)
  have hhalf := tdiv_two_cases (wrap32 (t.start + t.stop))
  unfold IsInt at hsum
  unfold middle Integer.MAX_VALUE
  omega

lemma addedInts_of_leaf (h : t.canCompute = true) (hstop : t.stop < Integer.MAX_VALUE) :
    ∃ is, Returns (fun n => addedInts n t) is ∧ Covers is t.start t.stop := by
  obtain ⟨is, his, hcovers⟩ := returns_loopInts t.isInt_start.1 hstop
  exact ⟨is, addedInts_leaf h his, hcovers⟩

/-- Parts that are not split again. -/
lemma addedInts_of_leaves (h : t.canCompute = false) (hstop : t.stop < Integer.MAX_VALUE)
    (hone : t.recursiveTaskOne.canCompute = true) (htwo : t.recursiveTaskTwo.canCompute = true) :
    ∃ is₁ is₂, Returns (fun n => addedInts n t) (is₁ ++ is₂) ∧ Covers is₁ t.start t.middle ∧
      Covers is₂ (wrap32 (t.middle + 1)) t.stop := by
  obtain ⟨is₁, h₁, hcovers₁⟩ := addedInts_of_leaf hone t.middle_lt_max
  obtain ⟨is₂, h₂, hcovers₂⟩ := addedInts_of_leaf htwo hstop
  exact ⟨is₁, is₂, addedInts_split h h₁ h₂, hcovers₁, hcovers₂⟩

/-- How often an int is in a list that covers a range. -/
lemma Covers.count_eq_one_iff {is : List ℤ} {a b : ℤ} (h : Covers is a b) {i : ℤ} :
    is.count i = 1 ↔ a ≤ i ∧ i ≤ b := by
  rw [h i]
  split_ifs with hi <;> simp [hi]

lemma Covers.eq_nil {is : List ℤ} {a b : ℤ} (h : Covers is a b) (hab : b < a) : is = [] := by
  refine List.eq_nil_iff_forall_not_mem.mpr fun i hi => ?_
  have hcount := h i
  rw [if_neg (by omega), List.count_eq_zero] at hcount
  exact hcount hi

/-- Where the sum of the bounds is too large, all ints from behind the middle on are added. -/
lemma addedInts_above (h : t.canCompute = false) (hstop : t.stop < Integer.MAX_VALUE)
    (hle : t.start ≤ t.stop) (hsum : 2 ^ 31 ≤ t.start + t.stop) :
    ∃ is, Returns (fun n => addedInts n t) is ∧ Covers is (t.middle + 1) t.stop := by
  obtain ⟨hfirst, hnext, hone, htwo⟩ := split_above h hle hsum
  obtain ⟨is₁, is₂, his, hcovers₁, hcovers₂⟩ := addedInts_of_leaves h hstop hone htwo
  rw [hcovers₁.eq_nil (by omega), List.nil_append] at his
  exact ⟨is₂, his, hnext ▸ hcovers₂⟩

lemma addedInts_below (h : t.canCompute = false) (hstop : t.stop < Integer.MAX_VALUE)
    (hle : t.start ≤ t.stop) (hsum : t.start + t.stop < -2 ^ 31) :
    ∃ is, Returns (fun n => addedInts n t) is ∧ Covers is t.start t.middle := by
  obtain ⟨hfirst, hnext, hone, htwo⟩ := split_below h hle hsum
  obtain ⟨is₁, is₂, his, hcovers₁, hcovers₂⟩ := addedInts_of_leaves h hstop hone htwo
  rw [hcovers₂.eq_nil (by omega), List.append_nil] at his
  exact ⟨is₁, his, hcovers₁⟩

/-- A range whose bounds are in the wrong order adds nothing. -/
lemma addedInts_crossed (hstop : t.stop < Integer.MAX_VALUE) (hlt : t.stop < t.start) :
    Returns (fun n => addedInts n t) [] := by
  cases h : t.canCompute with
  | true =>
      obtain ⟨is, his, hcovers⟩ := addedInts_of_leaf h hstop
      exact hcovers.eq_nil hlt ▸ his
  | false =>
      obtain ⟨hfirst, hsecond, hone, htwo⟩ := split_crossed h hlt
      obtain ⟨is₁, is₂, his, hcovers₁, hcovers₂⟩ := addedInts_of_leaves h hstop hone htwo
      rwa [hcovers₁.eq_nil hfirst, hcovers₂.eq_nil hsecond] at his

/-- A list that has each int of the range, and perhaps more. -/
def Contains (is : List ℤ) (a b : ℤ) : Prop :=
  ∀ i, (if a ≤ i ∧ i ≤ b then 1 else 0) ≤ is.count i

lemma Covers.contains {is : List ℤ} {a b a' b' : ℤ} (h : Covers is a b) (ha : a ≤ a')
    (hb : b' ≤ b) : Contains is a' b' := by
  intro i
  rw [h i]
  split_ifs <;> omega

/-- The parts of a range together. -/
lemma indicator_append {a b c : ℤ} (hab : a ≤ b) (hbc : b < c) (i : ℤ) :
    (if a ≤ i ∧ i ≤ c then 1 else 0) =
      (if a ≤ i ∧ i ≤ b then 1 else 0) + if b + 1 ≤ i ∧ i ≤ c then 1 else (0 : ℕ) := by
  split_ifs <;> omega

lemma Contains.append {is₁ is₂ : List ℤ} {a b c : ℤ} (h₁ : Contains is₁ a b)
    (h₂ : Contains is₂ (b + 1) c) (hab : a ≤ b) (hbc : b < c) :
    Contains (is₁ ++ is₂) a c ∧
      (Covers (is₁ ++ is₂) a c ↔ Covers is₁ a b ∧ Covers is₂ (b + 1) c) := by
  have hsplit := indicator_append hab hbc
  refine ⟨fun i => ?_, fun h => ⟨fun i => ?_, fun i => ?_⟩, fun h i => ?_⟩
  · rw [hsplit, List.count_append]
    exact Nat.add_le_add (h₁ i) (h₂ i)
  · have hi := h i
    rw [hsplit, List.count_append] at hi
    have := h₁ i
    have := h₂ i
    omega
  · have hi := h i
    rw [hsplit, List.count_append] at hi
    have := h₁ i
    have := h₂ i
    omega
  · rw [hsplit, List.count_append, h.1 i, h.2 i]

/-- **What a task adds**: its range, and nothing else exactly if the range can be halved. -/
lemma addedInts_spec (t : CountTask) (hstop : t.stop < Integer.MAX_VALUE)
    (hle : t.start ≤ t.stop) :
    ∃ is, Returns (fun n => addedInts n t) is ∧ Contains is t.start t.stop ∧
      (Covers is t.start t.stop ↔ Halves t.start t.stop) := by
  obtain ⟨n, hn⟩ : ∃ n : ℕ, n = (t.stop - t.start).toNat := ⟨_, rfl⟩
  induction n using Nat.strong_induction_on generalizing t with
  | _ n ih =>
      cases h : t.canCompute with
      | true =>
          obtain ⟨is, his, hcovers⟩ := addedInts_of_leaf h hstop
          exact ⟨is, his, hcovers.contains le_rfl le_rfl, iff_of_true hcovers (halves_leaf h)⟩
      | false =>
          by_cases hsum : IsInt (t.start + t.stop)
          · obtain ⟨hfirst, hsecond, hnext⟩ := split_inside h hle hsum
            obtain ⟨hone, htwo⟩ := length_parts h hle hsum
            obtain ⟨is₁, h₁, hcontains₁, hiff₁⟩ :=
              ih _ (hn ▸ hone) t.recursiveTaskOne t.middle_lt_max hfirst rfl
            obtain ⟨is₂, h₂, hcontains₂, hiff₂⟩ :=
              ih _ (hn ▸ htwo) t.recursiveTaskTwo hstop (by
                rw [recursiveTaskTwo_start, recursiveTaskTwo_stop]
                omega) rfl
            rw [recursiveTaskTwo_start, recursiveTaskTwo_stop, hnext] at hcontains₂ hiff₂
            obtain ⟨hcontains, hcovers⟩ := hcontains₁.append hcontains₂ hfirst hsecond
            refine ⟨is₁ ++ is₂, addedInts_split h h₁ h₂, hcontains, ?_⟩
            rw [halves_split h hle hsum, ← hiff₂]
            exact hcovers.trans (and_congr_left' hiff₁)
          · -- the int next to the range that the longer part begins or ends with is no part of it
            have hnot := not_halves_of_overflow h hle hsum
            unfold IsInt at hsum
            obtain habove | hbelow : 2 ^ 31 ≤ t.start + t.stop ∨ t.start + t.stop < -2 ^ 31 := by
              omega
            · obtain ⟨hfirst, -⟩ := split_above h hle habove
              obtain ⟨is, his, hcovers⟩ := addedInts_above h hstop hle habove
              refine ⟨is, his, hcovers.contains (by omega) le_rfl, iff_of_false ?_ hnot⟩
              intro hexact
              have := hexact.count_eq_one_iff.mp (hcovers.count_eq_one_iff.mpr
                ⟨le_rfl, by omega⟩)
              omega
            · obtain ⟨hfirst, -⟩ := split_below h hle hbelow
              obtain ⟨is, his, hcovers⟩ := addedInts_below h hstop hle hbelow
              refine ⟨is, his, hcovers.contains le_rfl (by omega), iff_of_false ?_ hnot⟩
              intro hexact
              have := hexact.count_eq_one_iff.mp (hcovers.count_eq_one_iff.mpr
                ⟨by omega, le_rfl⟩)
              omega

/-- A task whose end is the largest `int` never returns. -/
lemma compute_max (h : t.stop = Integer.MAX_VALUE) (n : ℕ) : compute n t = none := by
  induction n generalizing t with
  | zero => rfl
  | succ n ih =>
      rw [compute]
      split_ifs
      · rw [h]
        exact sumFrom_max t.isInt_start 0 n
      · have htwo : compute n t.recursiveTaskTwo = none := ih h
        simp [htwo]

lemma lt_max_iff (t : CountTask) : t.stop < Integer.MAX_VALUE ↔ t.stop ≠ Integer.MAX_VALUE :=
  (Int.le_sub_one_of_lt t.isInt_stop.2).lt_iff_ne

/-- **Termination.**  `compute` ends exactly if `end` is not the largest `int`. -/
theorem ends_iff (t : CountTask) :
    Ends (fun n => compute n t) ↔ t.stop ≠ Integer.MAX_VALUE := by
  constructor
  · intro hends hmax
    exact not_ends (compute_max hmax) hends
  · intro h
    have hstop := t.lt_max_iff.mpr h
    obtain hle | hlt := le_or_gt t.start t.stop
    · obtain ⟨is, his, -⟩ := addedInts_spec t hstop hle
      exact ⟨_, returns_iff.mpr ⟨is, his, rfl⟩⟩
    · exact ⟨_, returns_iff.mpr ⟨[], addedInts_crossed hstop hlt, rfl⟩⟩

/-- The task that sums up the largest `int` alone. -/
def largest : CountTask where
  start := Integer.MAX_VALUE
  stop := Integer.MAX_VALUE
  isInt_start := by decide
  isInt_stop := by decide

theorem largest_never_ends : ¬Ends fun n => compute n largest :=
  not_ends (compute_max rfl)

/-! ## The sum -/

/-- **The sum.**  Where `compute` returns, it has added each int from `start` to `end` once and no
other, and the result is their sum as an `int`, exactly if the range is short, or so long that its
length is no `int`, or ends of it that are more than `2 ^ 30` away from zero can be halved. -/
theorem sums_once_iff (hle : t.start ≤ t.stop) {r : ℤ} (h : Returns (fun n => compute n t) r) :
    ((∃ is, Returns (fun n => addedInts n t) is ∧ Covers is t.start t.stop) ∧
        r = wrap32 (sumOf t.start t.stop)) ↔
      Halves t.start t.stop := by
  have hmax : t.stop ≠ Integer.MAX_VALUE := fun hmax => not_ends (compute_max hmax) ⟨r, h⟩
  obtain ⟨is, his, -, hiff⟩ := addedInts_spec t (t.lt_max_iff.mpr hmax) hle
  obtain ⟨is', his', hr⟩ := returns_iff.mp h
  obtain rfl := (stable_addedInts t).unique his his'
  rw [← hiff]
  constructor
  · rintro ⟨⟨is', his', hcovers⟩, -⟩
    rwa [(stable_addedInts t).unique his his']
  · intro hcovers
    exact ⟨⟨is, his, hcovers⟩, by rw [← hr, hcovers.sum]⟩

/-- The task of `TestForkJoin.main`. -/
def firstThousand : CountTask where
  start := 1
  stop := 1000
  isInt_start := by decide
  isInt_stop := by decide

theorem sums_once_iff_firstThousand :
    Returns (fun n => compute n firstThousand) 500500 ∧ 500500 = wrap32 (sumOf 1 1000) := by
  have hreturns : Returns (fun n => compute n firstThousand) 500500 := ⟨16, by decide +kernel⟩
  refine ⟨hreturns, ((sums_once_iff (t := firstThousand) (by decide) hreturns).mpr ?_).2⟩
  exact .inr (.inr ⟨.inl (by decide), .inl (by decide)⟩)

/-- Four ints whose bounds have a sum that is no `int`. -/
def fourAbove : CountTask where
  start := 2 ^ 30
  stop := 2 ^ 30 + 3
  isInt_start := by decide
  isInt_stop := by decide

/-- What is returned is not their sum. -/
theorem fourAbove_wrong_sum :
    ∃ r, Returns (fun n => compute n fourAbove) r ∧
      r ≠ wrap32 (sumOf (2 ^ 30) (2 ^ 30 + 3)) := by
  obtain ⟨is, his, hcovers⟩ : ∃ is, Returns (fun n => addedInts n fourAbove) is ∧
      Covers is (-2 ^ 30 + 3) (2 ^ 30 + 3) :=
    addedInts_above rfl (by decide) (by decide) (by decide)
  refine ⟨_, returns_iff.mpr ⟨is, his, rfl⟩, ?_⟩
  have hall := two_mul_sumOf (a := -2 ^ 30 + 3) (b := 2 ^ 30 + 3) (by norm_num)
  have hfour := two_mul_sumOf (a := 2 ^ 30) (b := 2 ^ 30 + 3) (by norm_num)
  rw [hcovers.sum]
  unfold wrap32
  omega

end CountTask

end LearnJava
