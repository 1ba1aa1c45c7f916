import LearnJava.Generic.GenericArray

/-!
# What the methods of the generic arrays can do

`add_cases` and `remove_cases` say everything the two methods can do to an array whose `size` is
below its length, which `removed` and `padded` describe.  `grow` doubles the length, and throws
before anything has changed when this is no `int`.
-/

namespace LearnJava

namespace GenericArray

variable {α : Type} {C : α → Prop} {a : GenericArray C}

/-- `size` is the index of a cell. -/
structure Bounded (a : GenericArray C) : Prop where
  nonneg : 0 ≤ a.size
  room : a.size < a.members.length
  length_lt : a.members.length < 2 ^ 31

/-- The array is about to be doubled, and its length cannot be. -/
def CannotGrow (a : GenericArray C) : Prop :=
  a.size = a.members.length - 1 ∧ 2 ^ 30 ≤ a.members.length

instance (a : GenericArray C) : Decidable a.CannotGrow :=
  inferInstanceAs (Decidable (_ ∧ _))

/-! ## Growing -/

/-- `grow` appends as many free cells as there are. -/
def Grows (grow : Method (GenericArray C) Unit) : Prop :=
  ∀ a : GenericArray C, a.members.length < 2 ^ 30 →
    grow.run a = .ok () { a with members := a.members ++ List.replicate a.members.length none }

lemma wrap32_double {n : ℕ} (h : n < 2 ^ 30) : wrap32 (n * 2) = ((n + n : ℕ) : ℤ) := by
  rw [wrap32_of_range] <;> push_cast <;> omega

lemma growByCopyOf_grows : Grows (growByCopyOf : Method (GenericArray C) Unit) := by
  intro a ha
  have hcopy := copyOf_run a.members (a.members.length + a.members.length) a
  rw [List.take_of_length_le (by omega), Nat.add_sub_cancel] at hcopy
  unfold growByCopyOf
  rw [get_bind_run, wrap32_double ha, bind_of_run hcopy]
  rfl

lemma growByArraycopy_grows : Grows (growByArraycopy : Method (GenericArray C) Unit) := by
  intro a ha
  let free : List (Option {x // C x}) :=
    List.replicate (a.members.length + a.members.length) none
  have hcopy : (arraycopyInt a.members 0 free 0 a.members.length : Method _ _).run a =
      .ok (overlay a.members 0 free 0 a.members.length) a :=
    arraycopyInt_run (show 0 + a.members.length ≤ a.members.length by simp)
      (show 0 + a.members.length ≤ free.length by simp [free]) a
  have hoverlay : overlay a.members 0 free 0 a.members.length =
      a.members ++ List.replicate a.members.length none := by
    simp [overlay, free]
  rw [hoverlay] at hcopy
  unfold growByArraycopy
  rw [get_bind_run, wrap32_double ha, bind_of_run (newArray_run a), bind_of_run hcopy]
  rfl

/-- `grow` throws when the doubled length is no `int`. -/
def Overflows (grow : Method (GenericArray C) Unit) : Prop :=
  ∀ a : GenericArray C, 2 ^ 30 ≤ a.members.length → a.members.length < 2 ^ 31 →
    grow.run a = .error .negativeArraySizeException a

lemma wrap32_double_neg {n : ℕ} (hlo : 2 ^ 30 ≤ n) (hhi : n < 2 ^ 31) :
    wrap32 ((n : ℤ) * 2) < 0 := by
  unfold wrap32
  omega

lemma growByCopyOf_overflows : Overflows (growByCopyOf : Method (GenericArray C) Unit) := by
  intro a hlo hhi
  have hneg := wrap32_double_neg hlo hhi
  unfold growByCopyOf
  rw [get_bind_run]
  generalize wrap32 (a.members.length * 2) = n at hneg ⊢
  exact bind_of_throw (copyOf_run_neg _ hneg a) _

lemma growByArraycopy_overflows : Overflows (growByArraycopy : Method (GenericArray C) Unit) := by
  intro a hlo hhi
  have hneg := wrap32_double_neg hlo hhi
  unfold growByArraycopy
  rw [get_bind_run]
  generalize wrap32 (a.members.length * 2) = n at hneg ⊢
  exact bind_of_throw (newArray_run_neg hneg a) _

/-! ## The methods -/

/-- The cells that `grow` may have appended. -/
def padded (a : GenericArray C) (n : ℕ) : List (Option {x // C x}) :=
  a.members ++ List.replicate n none

lemma length_padded (a : GenericArray C) (n : ℕ) :
    (a.padded n).length = a.members.length + n := by
  simp [padded]

/-- `moveMembers` where `c` elements come after the removed one. -/
lemma moveMembers_eq {i c : ℕ} (hsize : a.size = ((i + c : ℕ) : ℤ))
    (hlen : i + 1 + c ≤ a.members.length) :
    (moveMembers i).run a =
      .ok () { a with members := overlay a.members (i + 1) a.members i c } := by
  have hcopy : (arraycopyInt a.members ((i + 1 : ℕ) : ℤ) a.members i c : Method _ _).run a =
      .ok (overlay a.members (i + 1) a.members i c) a :=
    arraycopyInt_run hlen (by omega) a
  have hc : a.size - i = c := by omega
  unfold moveMembers
  rw [get_bind_run, hc, ← Nat.cast_succ, bind_of_run hcopy]
  rfl

/-- The array after the element `i` of `a` is removed. -/
def removed (a : GenericArray C) (i : ℕ) : GenericArray C :=
  let members := a.members.set i none
  { members := overlay members (i + 1) members i (a.size.toNat - 1 - i), size := a.size - 1 }

lemma removed_bounded (h : a.Bounded) {i : ℕ} (hi : (i : ℤ) < a.size) :
    (a.removed i).Bounded := by
  obtain ⟨hnonneg, hroom, hlength⟩ := h
  have hlen : (a.removed i).members.length = a.members.length := by
    unfold removed
    rw [length_overlay] <;> simp only [List.length_set] <;> omega
  refine ⟨?_, ?_, hlen ▸ hlength⟩
  · show 0 ≤ a.size - 1
    omega
  · show a.size - 1 < _
    omega

variable [DecidablePred C]

/-- **What `remove` can do.** -/
lemma remove_cases (h : a.Bounded) (index : ℤ) :
    (a.size ≤ index ∧ (remove index).run a = .ok none a) ∨
      (index < 0 ∧ (remove index).run a = .error .arrayIndexOutOfBoundsException a) ∨
      ∃ (i : ℕ) (cell : Option {x // C x}), index = i ∧ (i : ℤ) < a.size ∧
        a.members[i]? = some cell ∧ (remove index).run a = .ok (ofCell cell) (a.removed i) := by
  obtain ⟨hnonneg, hroom, hlength⟩ := h
  unfold remove
  rw [get_bind_run]
  rcases le_or_gt a.size index with hge | hlt
  · rw [if_pos hge]
    exact .inl ⟨hge, rfl⟩
  · rw [if_neg hlt.not_ge]
    rcases lt_or_ge index 0 with hneg | hpos
    · exact .inr (.inl ⟨hneg, bind_of_throw (aloadInt_run_neg _ hneg a) _⟩)
    · obtain ⟨i, rfl⟩ := Int.eq_ofNat_of_zero_le hpos
      have hi : i < a.members.length := by omega
      have hsize : wrap32 (a.size - 1) = a.size - 1 := wrap32_of_range (by omega) (by omega)
      have hmove := moveMembers_eq (a := { members := a.members.set i none, size := a.size - 1 })
        (i := i) (c := a.size.toNat - 1 - i) (by simp only; omega)
        (by simp only [List.length_set]; omega)
      refine .inr (.inr ⟨i, a.members[i], rfl, hlt, List.getElem?_eq_getElem hi, ?_⟩)
      rw [bind_of_run (aloadInt_run (List.getElem?_eq_getElem hi) a),
        bind_of_run (astoreRef_run hi rfl a), hsize, set_bind_run, if_pos hlt.ne,
        bind_of_run hmove]
      rfl

/-- `members[size++] = member`, where the array has cells for one more element than this. -/
lemma storeNext_cases (hnonneg : 0 ≤ a.size) (hroom : a.size + 1 < a.members.length)
    (hlength : a.members.length < 2 ^ 31) (member : Option α) :
    (∃ cell, toCell member = some cell ∧
        (storeNext member).run a = .ok () ⟨a.members.set a.size.toNat cell, a.size + 1⟩) ∨
      (toCell (C := C) member = none ∧
        (storeNext member).run a = .error .arrayStoreException ⟨a.members, a.size + 1⟩) := by
  have hsize : wrap32 (a.size + 1) = a.size + 1 := wrap32_of_range (by omega) (by omega)
  have hin : ¬(a.size < 0 ∨ (a.members.length : ℤ) ≤ a.size) := by omega
  unfold storeNext
  rw [get_bind_run]
  simp only [hsize]
  rw [set_bind_run, astoreRef, if_neg hin]
  cases hcell : toCell (C := C) member with
  | some cell => exact .inl ⟨cell, rfl, rfl⟩
  | none => exact .inr ⟨rfl, rfl⟩

/-- **What `add` can do** where it does not fail to grow: it grows the array by `n` cells, and
stores the member if the array can hold it. -/
lemma add_cases_of_grows {grow : Method (GenericArray C) Unit} (hgrow : Grows grow) (h : a.Bounded)
    (hcan : ¬a.CannotGrow) (member : Option α) :
    ∃ n, a.size + 1 < (a.padded n).length ∧ (a.padded n).length < 2 ^ 31 ∧
      ((∃ cell, toCell member = some cell ∧ (add grow member).run a =
          .ok () ⟨(a.padded n).set a.size.toNat cell, a.size + 1⟩) ∨
        (toCell (C := C) member = none ∧ (add grow member).run a =
          .error .arrayStoreException ⟨a.padded n, a.size + 1⟩)) := by
  obtain ⟨hnonneg, hroom, hlength⟩ := h
  unfold add
  rw [get_bind_run, get_bind_run]
  by_cases hfull : a.size = a.members.length - 1
  · have hsmall : a.members.length < 2 ^ 30 := not_le.mp fun hbig => hcan ⟨hfull, hbig⟩
    have hroom' : a.size + 1 < (a.padded a.members.length).length := by
      rw [length_padded]
      omega
    have hlength' : (a.padded a.members.length).length < 2 ^ 31 := by
      rw [length_padded]
      omega
    rw [if_pos hfull, bind_of_run (hgrow a hsmall)]
    exact ⟨a.members.length, hroom', hlength',
      storeNext_cases (a := ⟨a.padded a.members.length, a.size⟩) hnonneg hroom' hlength' member⟩
  · have hsame : a.padded 0 = a.members := by simp [padded]
    refine ⟨0, ?_⟩
    rw [if_neg hfull, hsame]
    have hroom' : a.size + 1 < a.members.length := by omega
    exact ⟨hroom', hlength, storeNext_cases hnonneg hroom' hlength member⟩

/-- **What `add` can do.** -/
lemma add_cases {grow : Method (GenericArray C) Unit} (hgrow : Grows grow)
    (hover : Overflows grow) (h : a.Bounded) (member : Option α) :
    (a.CannotGrow ∧ (add grow member).run a = .error .negativeArraySizeException a) ∨
      ¬a.CannotGrow ∧ ∃ n, a.size + 1 < (a.padded n).length ∧ (a.padded n).length < 2 ^ 31 ∧
        ((∃ cell, toCell member = some cell ∧ (add grow member).run a =
            .ok () ⟨(a.padded n).set a.size.toNat cell, a.size + 1⟩) ∨
          (toCell (C := C) member = none ∧ (add grow member).run a =
            .error .arrayStoreException ⟨a.padded n, a.size + 1⟩)) := by
  by_cases hcannot : a.CannotGrow
  · have hthrows : grow.run a = .error .negativeArraySizeException a :=
      hover a hcannot.2 h.length_lt
    have hrun : (add grow member).run a = .error .negativeArraySizeException a := by
      unfold add
      rw [get_bind_run, get_bind_run, if_pos hcannot.1, bind_of_throw hthrows]
    exact .inl ⟨hcannot, hrun⟩
  · exact .inr ⟨hcannot, add_cases_of_grows hgrow h hcannot member⟩

end GenericArray

end LearnJava
