import LearnJava.Generic.ArrayAdd

/-!
# What stays in the cells that are not in use

`remove` clears the cell of the removed element and then moves the later elements down over it, so
that the cell it has cleared is in use again and the last element is left in two cells.  Only the
last element is removed without a trace.
-/

namespace LearnJava

variable {α : Type} {C : α → Prop}

namespace GenericArray

variable {a : GenericArray C}

/-- The cells from `size` on are `null`. -/
def SlotsNull (a : GenericArray C) : Prop :=
  ∀ j : ℕ, a.size ≤ j → a.members[j]?.join = none

lemma SlotsNull.padded (h : a.SlotsNull) (n : ℕ) {j : ℕ} (hj : a.size ≤ j) :
    (a.padded n)[j]?.join = none := by
  rw [GenericArray.padded, List.getElem?_append]
  split_ifs with hin
  · exact h j hj
  · rw [List.getElem?_replicate]
    split_ifs <;> rfl

/-- Behind the elements that are moved down, only the cleared cell has changed. -/
lemma getElem?_removed (h : a.Bounded) {i j : ℕ} (hi : (i : ℤ) < a.size) (hj : a.size - 1 ≤ j) :
    (a.removed i).members[j]? = (a.members.set i none)[j]? := by
  have hroom := h.room
  unfold removed
  rw [getElem?_overlay, if_neg (by omega)]
  · rw [List.length_set]
    omega
  · rw [List.length_set]
    omega

lemma removed_slotsNull_iff (h : a.Bounded) (hslots : a.SlotsNull) {i : ℕ}
    (hi : (i : ℤ) < a.size) :
    (a.removed i).SlotsNull ↔
      ((i : ℤ) + 1 < a.size → a.members[a.size.toNat - 1]?.join = none) := by
  constructor
  · intro hremoved hlater
    have hlast : (a.size - 1 : ℤ) ≤ (a.size.toNat - 1 : ℕ) := by omega
    have hcell := hremoved (a.size.toNat - 1) hlast
    rwa [getElem?_removed h hi hlast, List.getElem?_set_ne (by omega)] at hcell
  · intro hlast j hj
    change a.size - 1 ≤ j at hj
    rw [getElem?_removed h hi hj]
    rcases eq_or_ne i j with rfl | hne
    · rw [List.getElem?_set_self (by have := h.room; omega)]
      rfl
    · rw [List.getElem?_set_ne hne]
      rcases hj.eq_or_lt with heq | hlt
      · have hj' : j = a.size.toNat - 1 := by omega
        rw [hj']
        exact hlast (by omega)
      · exact hslots j (by omega)

variable [DecidablePred C]

/-- `add` stores in the first cell that is not in use, if it stores at all. -/
lemma add_slotsNull {grow : Method (GenericArray C) Unit} (hgrow : Grows grow)
    (hover : Overflows grow) (h : a.Bounded) (hslots : a.SlotsNull) (member : Option α) :
    ((add grow member).after a).SlotsNull := by
  have hnonneg := h.nonneg
  obtain ⟨-, hrun⟩ | ⟨-, n, -, -, ⟨cell, -, hrun⟩ | ⟨-, hrun⟩⟩ := add_cases hgrow hover h member
  · rwa [after_of_throw hrun]
  · rw [after_of_run hrun]
    intro j hj
    change a.size + 1 ≤ j at hj
    show ((a.padded n).set a.size.toNat cell)[j]?.join = none
    rw [List.getElem?_set_ne (by omega)]
    exact hslots.padded n (by omega)
  · rw [after_of_throw hrun]
    intro j hj
    change a.size + 1 ≤ j at hj
    exact hslots.padded n (by omega)

end GenericArray

namespace IGenericArray

open GenericArray

/-- A call that removes an element removes the last one, or the last one is `null`. -/
def RemovesLast (w : World C) : GenericArrayCall α → Prop
  | .remove index =>
    ∀ i : ℕ, index = i → index + 1 < w.array.size →
      w.array.members[w.array.size.toNat - 1]?.join = none
  | _ => True

variable [DecidablePred C] {I : IGenericArray C} {w : World C}

omit [DecidablePred C] in
lemma slotsNull_of_nil {a : GenericArray C} (h : a.members = []) : a.SlotsNull := by
  intro j _
  rw [h]
  rfl

omit [DecidablePred C] in
/-- Calls other than `remove` leave no removed element. -/
lemma removesLast_of_ne_remove {call : GenericArrayCall α} (h : ∀ index, call ≠ .remove index) :
    RemovesLast w call := by
  cases call with
  | remove index => exact absurd rfl (h index)
  | add _ | get _ | iterator | hasNext _ | next _ => trivial

lemma remove_slotsNull_iff (h : w.array.Bounded) (hslots : w.array.SlotsNull) (index : ℤ) :
    ((GenericArray.remove index).after w.array).SlotsNull ↔ RemovesLast w (.remove index) := by
  obtain ⟨hge, hrun⟩ | ⟨hneg, hrun⟩ | ⟨i, cell, rfl, hi, -, hrun⟩ := remove_cases h index
  · rw [after_of_run hrun]
    exact iff_of_true hslots fun i _ hlt => absurd hlt (by omega)
  · rw [after_of_throw hrun]
    exact iff_of_true hslots fun i heq _ => absurd heq (by omega)
  · rw [after_of_run hrun, removed_slotsNull_iff h hslots hi]
    exact ⟨fun hlast _ _ hlt => hlast hlt, fun hlast hlt => hlast i rfl hlt⟩

/-- **One call.** -/
lemma perform_slotsNull_iff (hI : I.Limited) {capacity : ℤ} (h : Sized capacity w)
    (hslots : w.array.SlotsNull) (call : GenericArrayCall α) :
    (I.perform w call).2.array.SlotsNull ↔ RemovesLast w call := by
  rcases h with ⟨-, hnil⟩ | ⟨-, hbounded⟩
  · refine iff_of_true (slotsNull_of_nil (perform_nil hI hnil call)) ?_
    cases call with
    | remove index =>
        intro i _ _
        rw [hnil]
        rfl
    | add _ | get _ | iterator | hasNext _ | next _ => trivial
  · rcases perform_array_cases hI.standard w call with
      ⟨member, rfl⟩ | ⟨index, rfl, hafter⟩ | ⟨hother, hsame⟩
    · obtain ⟨grow, hgrow, hover, hadd⟩ := hI.add_eq
      rw [perform_add_array, hadd]
      exact iff_of_true (add_slotsNull hgrow hover hbounded hslots member) trivial
    · rw [hafter]
      exact remove_slotsNull_iff hbounded hslots index
    · rw [hsame]
      exact iff_of_true hslots (removesLast_of_ne_remove hother)

end IGenericArray

namespace GenericArrayType

open IGenericArray GenericArray

variable (tClass : α → Prop) [DecidablePred tClass]

/-- **When no removed element stays in the array.**  For every capacity that the constructors
accept and every sequence of calls: the cells from `size` on are `null` in every state exactly if
every call that removes an element removes the last one, or finds the last one to be `null`. -/
theorem slots_null_iff (kind : GenericArrayType) {capacity : ℤ} (hcap : 0 ≤ capacity)
    (hmax : capacity ≤ Integer.MAX_VALUE) (calls : List (GenericArrayCall α)) :
    ∃ array, (genericArrayClass tClass kind).new capacity = .ok array ∧ array.SlotsNull ∧
      (Calls.Along (genericArrayClass tClass kind).perform
          (fun w call => ((genericArrayClass tClass kind).perform w call).2.array.SlotsNull)
          ⟨array, []⟩ calls ↔
        Calls.Along (genericArrayClass tClass kind).perform RemovesLast ⟨array, []⟩ calls) := by
  have hI := limited tClass kind
  obtain ⟨array, hnew, hsized, rfl⟩ := new_sized (C := component tClass kind) hcap hmax
  rw [← hI.standard.new_eq] at hnew
  have hnull : SlotsNull (⟨List.replicate capacity.toNat none, 0⟩ :
      GenericArray (component tClass kind)) := by
    intro j _
    rw [List.getElem?_replicate]
    split_ifs <;> rfl
  refine ⟨_, hnew, hnull, Calls.along_iff (I := fun w => Sized capacity w ∧ w.array.SlotsNull)
    (fun w call h hlast => ⟨perform_sized hI h.1 call,
      (perform_slotsNull_iff hI h.1 h.2 call).mpr hlast⟩)
    (fun w call h => perform_slotsNull_iff hI h.1 h.2 call) ⟨hsized, hnull⟩⟩

theorem slots_null_iff_three :
    ∃ array, (genericArrayClass (fun n : ℕ => n < 10) .genericArrayWithFT).new 3 = .ok array ∧
      array.SlotsNull ∧
      (Calls.Along (genericArrayClass (fun n : ℕ => n < 10) .genericArrayWithFT).perform
          (fun w call => ((genericArrayClass (fun n : ℕ => n < 10) .genericArrayWithFT).perform w
            call).2.array.SlotsNull)
          ⟨array, []⟩ [.add (some 1), .add (some 2), .remove 1, .remove 0] ↔
        Calls.Along (genericArrayClass (fun n : ℕ => n < 10) .genericArrayWithFT).perform
          RemovesLast ⟨array, []⟩ [.add (some 1), .add (some 2), .remove 1, .remove 0]) :=
  slots_null_iff _ .genericArrayWithFT (by decide) (by decide) _

/-- Of two elements the first is removed, and the second is in the cell after the last one as
well. -/
theorem remove_leaves_last_element :
    ∃ array, (genericArrayClass (fun n : ℕ => n < 10) .genericArrayWithT).new 4 = .ok array ∧
      ¬Calls.Along (genericArrayClass (fun n : ℕ => n < 10) .genericArrayWithT).perform
        (fun w call => ((genericArrayClass (fun n : ℕ => n < 10) .genericArrayWithT).perform w
          call).2.array.SlotsNull)
        ⟨array, []⟩ [.add (some 1), .add (some 2), .remove 0] := by
  refine ⟨⟨[none, none, none, none], 0⟩, rfl, fun h => ?_⟩
  have hcell := h.2.2.1 1 (by decide)
  exact absurd hcell (by decide)

end GenericArrayType

end LearnJava
