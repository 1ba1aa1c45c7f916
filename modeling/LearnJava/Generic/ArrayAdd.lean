import LearnJava.Generic.ListRefinement

/-!
# What `add` leaves behind when it throws

`add` can throw at two places.  When the doubled length wraps around, `grow` throws before anything
has changed; when the store is refused, `size++` has been evaluated already.  An array of capacity 0
never grows, since `size` is not `-1`, so every store into it is refused.
-/

namespace LearnJava

variable {α : Type} {C : α → Prop}

/-- What a call of a method ends with for its caller. -/
def Method.outcome {σ β : Type} (x : Method σ β) (s : σ) : Except Throwable β :=
  match x.run s with
  | .ok b _ => .ok b
  | .error e _ => .error e

/-! ## Arrays without cells -/

namespace GenericArray

variable {a : GenericArray C} [DecidablePred C]

/-- An array without cells: `grow` does not help, and the store is refused after `size++`. -/
lemma add_run_nil {grow : Method (GenericArray C) Unit} (hgrow : Grows grow)
    (h : a.members = []) (member : Option α) :
    (add grow member).run a =
      .error .arrayIndexOutOfBoundsException { a with size := wrap32 (a.size + 1) } := by
  obtain ⟨members, size⟩ := a
  subst h
  have hstore : (storeNext member).run (⟨[], size⟩ : GenericArray C) =
      .error .arrayIndexOutOfBoundsException ⟨[], wrap32 (size + 1)⟩ := by
    have hout : size < 0 ∨ (([] : List (Option {x // C x})).length : ℤ) ≤ size := by
      simp only [List.length_nil, Nat.cast_zero]
      omega
    unfold storeNext
    rw [get_bind_run]
    generalize wrap32 (size + 1) = size'
    rw [set_bind_run, astoreRef, if_pos hout]
    rfl
  unfold add
  rw [get_bind_run, get_bind_run]
  split_ifs
  · rw [bind_of_run (hgrow _ (by simp))]
    exact hstore
  · exact hstore

lemma remove_after_nil (h : a.members = []) (index : ℤ) : (remove index).after a = a := by
  by_cases hge : index ≥ a.size
  · have hrun : (remove index).run a = .ok none a := by
      unfold remove
      rw [get_bind_run, if_pos hge]
      rfl
    exact after_of_run hrun
  · have hload : (aloadInt a.members index : Method _ _).run a =
        .error .arrayIndexOutOfBoundsException a := by
      rw [aloadInt, h]
      split_ifs <;> rfl
    have hrun : (remove index).run a = .error .arrayIndexOutOfBoundsException a := by
      unfold remove
      rw [get_bind_run, if_neg hge, bind_of_throw hload]
    exact after_of_throw hrun

end GenericArray

/-! ## Calls of an array that may be at its limits -/

/-- An array of the class stores the member. -/
def Storable (C : α → Prop) (member : Option α) : Prop := ∀ x, member = some x → C x

instance [DecidablePred C] : ∀ member : Option α, Decidable (Storable C member)
  | none => .isTrue (by rintro x ⟨⟩)
  | some x => decidable_of_iff (C x) (by simp [Storable])

lemma toCell_eq_none_iff [DecidablePred C] {member : Option α} :
    toCell (C := C) member = none ↔ ¬Storable C member := by
  cases member with
  | none => simp [toCell, Storable]
  | some x => simp [toCell, Storable]

namespace IGenericArray

open GenericArray

/-- What is seen of an array. -/
structure View (α : Type) where
  size : ℤ
  get : ℤ → Except Throwable (Option α)
  iterator : Except Throwable (List (Option α))

def view (I : IGenericArray C) (a : GenericArray C) : View α where
  size := a.size
  get index := (I.get index).outcome a
  iterator := (I.iterator.outcome a).map ArrayIterator.remaining

/-- A call of `add` that throws has changed nothing that is seen, and it only throws for a member of
a wrong class and for an array that is too large. -/
def AddAllOrNothing (I : IGenericArray C) (w : World C) : GenericArrayCall α → Prop
  | .add member =>
    ((I.add member).thrown w.array ≠ none →
      I.view ((I.add member).after w.array) = I.view w.array) ∧
    (Storable C member → ¬w.array.CannotGrow → (I.add member).thrown w.array = none)
  | _ => True

/-- The array has a capacity and stores the member, or `grow` throws first. -/
def AddFits (capacity : ℤ) (w : World C) : GenericArrayCall α → Prop
  | .add member => capacity ≠ 0 ∧ (Storable C member ∨ w.array.CannotGrow)
  | _ => True

instance [DecidablePred C] (capacity : ℤ) :
    ∀ (w : World C) (call : GenericArrayCall α), Decidable (AddFits capacity w call)
  | w, .add member => inferInstanceAs (Decidable (_ ∧ (Storable C member ∨ w.array.CannotGrow)))
  | _, .get _ | _, .remove _ | _, .iterator | _, .hasNext _ | _, .next _ => .isTrue trivial

variable [DecidablePred C] {I : IGenericArray C} {w : World C}

/-- What the three classes have in common, also for arrays at their limits. -/
structure Limited (I : IGenericArray C) : Prop where
  standard : I.Standard
  add_eq : ∃ grow, Grows grow ∧ Overflows grow ∧ I.add = GenericArray.add grow

omit [DecidablePred C] in
lemma onArray_array {β : Type} {f : β → World C → GenericArrayReply α × World C}
    (hf : ∀ b w, (f b w).2.array = w.array) (x : Method (GenericArray C) β) :
    (onArray f x w).2.array = x.after w.array := by
  unfold onArray Method.after
  cases x.run w.array with
  | ok b array => exact hf b _
  | error e array => rfl

omit [DecidablePred C] in
lemma onIterator_array {β : Type} (f : β → GenericArrayReply α) (x : Method (ArrayIterator α) β)
    (k : ℕ) : (onIterator f x k w).2.array = w.array := by
  unfold onIterator
  split
  · rfl
  · split <;> rfl

omit [DecidablePred C] in
lemma perform_add_array (member : Option α) :
    (I.perform w (.add member)).2.array = (I.add member).after w.array :=
  onArray_array (fun _ _ => rfl) _

omit [DecidablePred C] in
lemma perform_remove_array (index : ℤ) :
    (I.perform w (.remove index)).2.array = (I.remove index).after w.array :=
  onArray_array (fun _ _ => rfl) _

omit [DecidablePred C] in
lemma get_after (a : GenericArray C) (index : ℤ) : (GenericArray.get index).after a = a := by
  unfold GenericArray.get Method.after
  rw [get_bind_run, aloadInt, aload]
  split_ifs
  · rfl
  · rfl
  · cases a.members[index.toNat]? <;> rfl

omit [DecidablePred C] in
lemma iterator_after (a : GenericArray C) : GenericArray.iterator.after a = a := by
  unfold GenericArray.iterator Method.after
  rw [get_bind_run, copyOf]
  split_ifs <;> rfl

/-- **What a call can do to the array.** -/
lemma perform_array_cases (hI : I.Standard) (w : World C) (call : GenericArrayCall α) :
    (∃ member, call = .add member) ∨
      (∃ index, call = .remove index ∧
        (I.perform w call).2.array = (GenericArray.remove index).after w.array) ∨
      ((∀ index, call ≠ .remove index) ∧ (I.perform w call).2.array = w.array) := by
  cases call with
  | add member => exact .inl ⟨member, rfl⟩
  | remove index =>
      refine .inr (.inl ⟨index, rfl, ?_⟩)
      rw [perform_remove_array, hI.remove_eq]
  | get index =>
      refine .inr (.inr ⟨by simp, ?_⟩)
      rw [perform, onArray_array (fun _ _ => rfl), hI.get_eq]
      exact get_after w.array index
  | iterator =>
      refine .inr (.inr ⟨by simp, ?_⟩)
      rw [perform, onArray_array (fun _ _ => rfl), hI.iterator_eq]
      exact iterator_after w.array
  | hasNext k => exact .inr (.inr ⟨by simp, onIterator_array _ _ k⟩)
  | next k => exact .inr (.inr ⟨by simp, onIterator_array _ _ k⟩)

/-- `size` stays the index of a cell, whatever is called and however it ends. -/
lemma perform_bounded (hI : I.Limited) (h : w.array.Bounded) (call : GenericArrayCall α) :
    (I.perform w call).2.array.Bounded := by
  have hnonneg := h.nonneg
  rcases perform_array_cases hI.standard w call with ⟨member, rfl⟩ | ⟨index, -, hafter⟩ | ⟨-, hsame⟩
  · obtain ⟨grow, hgrow, hover, hadd⟩ := hI.add_eq
    rw [perform_add_array, hadd]
    obtain ⟨-, hrun⟩ | ⟨-, n, hroom, hlength, ⟨cell, -, hrun⟩ | ⟨-, hrun⟩⟩ :=
      add_cases hgrow hover h member
    · rwa [after_of_throw hrun]
    · rw [after_of_run hrun]
      exact ⟨by simp only; omega, by simpa using hroom, by simpa using hlength⟩
    · rw [after_of_throw hrun]
      exact ⟨by simp only; omega, hroom, hlength⟩
  · rw [hafter]
    obtain ⟨-, hrun⟩ | ⟨-, hrun⟩ | ⟨i, cell, -, hi, -, hrun⟩ := remove_cases h index
    · rwa [after_of_run hrun]
    · rwa [after_of_throw hrun]
    · rw [after_of_run hrun]
      exact removed_bounded h hi
  · rwa [hsame]

/-- An array without cells stays so. -/
lemma perform_nil (hI : I.Limited) (h : w.array.members = []) (call : GenericArrayCall α) :
    (I.perform w call).2.array.members = [] := by
  rcases perform_array_cases hI.standard w call with ⟨member, rfl⟩ | ⟨index, -, hafter⟩ | ⟨-, hsame⟩
  · obtain ⟨grow, hgrow, -, hadd⟩ := hI.add_eq
    rw [perform_add_array, hadd, after_of_throw (add_run_nil hgrow h member)]
    exact h
  · rwa [hafter, remove_after_nil h]
  · rwa [hsame]

/-- The two kinds of arrays that the constructors make. -/
def Sized (capacity : ℤ) (w : World C) : Prop :=
  (capacity = 0 ∧ w.array.members = []) ∨ (capacity ≠ 0 ∧ w.array.Bounded)

lemma perform_sized (hI : I.Limited) {capacity : ℤ} (h : Sized capacity w)
    (call : GenericArrayCall α) : Sized capacity (I.perform w call).2 :=
  h.imp (And.imp_right fun hnil => perform_nil hI hnil call)
    (And.imp_right fun hbounded => perform_bounded hI hbounded call)

omit [DecidablePred C] in
lemma new_sized {capacity : ℤ} (hcap : 0 ≤ capacity) (hmax : capacity ≤ Integer.MAX_VALUE) :
    ∃ array : GenericArray C, GenericArray.new capacity = .ok array ∧ Sized capacity ⟨array, []⟩ ∧
      array = ⟨List.replicate capacity.toNat none, 0⟩ := by
  refine ⟨_, ?_, ?_, rfl⟩
  · simp only [GenericArray.new, newArray, hcap.not_gt, if_false]
    rfl
  · rcases hcap.eq_or_lt with rfl | hpos
    · exact .inl ⟨rfl, rfl⟩
    · unfold Integer.MAX_VALUE at hmax
      refine .inr ⟨hpos.ne', le_rfl, ?_, ?_⟩
      · simpa using hpos
      · rw [List.length_replicate]
        omega

lemma addAllOrNothing_of_nil (hI : I.Limited) (h : w.array.members = []) (member : Option α) :
    ¬AddAllOrNothing I w (.add member) := by
  obtain ⟨grow, hgrow, -, hadd⟩ := hI.add_eq
  have hrun := add_run_nil hgrow h member
  rintro ⟨hview, -⟩
  rw [hadd, thrown_of_throw hrun, after_of_throw hrun] at hview
  have hsize : wrap32 (w.array.size + 1) = w.array.size :=
    congrArg View.size (hview (Option.some_ne_none _))
  unfold wrap32 at hsize
  omega

lemma addAllOrNothing_of_bounded (hI : I.Limited) (h : w.array.Bounded) (member : Option α) :
    AddAllOrNothing I w (.add member) ↔ Storable C member ∨ w.array.CannotGrow := by
  obtain ⟨grow, hgrow, hover, hadd⟩ := hI.add_eq
  rw [AddAllOrNothing, hadd]
  obtain ⟨hcannot, hrun⟩ | ⟨hcan, n, -, -, ⟨cell, hcell, hrun⟩ | ⟨hcell, hrun⟩⟩ :=
    add_cases hgrow hover h member
  · rw [after_of_throw hrun]
    exact iff_of_true ⟨fun _ => rfl, fun _ hcan => absurd hcannot hcan⟩ (.inr hcannot)
  · rw [thrown_of_run hrun]
    have hstorable : Storable C member := by
      by_contra hnot
      rw [toCell_eq_none_iff.mpr hnot] at hcell
      cases hcell
    exact iff_of_true ⟨fun hne => absurd rfl hne, fun _ _ => rfl⟩ (.inl hstorable)
  · rw [thrown_of_throw hrun, after_of_throw hrun]
    refine iff_of_false ?_ (not_or_intro (toCell_eq_none_iff.mp hcell) hcan)
    rintro ⟨hview, -⟩
    have hsize : w.array.size + 1 = w.array.size :=
      congrArg View.size (hview (Option.some_ne_none _))
    omega

/-- One call. -/
lemma addAllOrNothing_iff (hI : I.Limited) {capacity : ℤ} (h : Sized capacity w)
    (call : GenericArrayCall α) : AddAllOrNothing I w call ↔ AddFits capacity w call := by
  cases call with
  | add member =>
      rcases h with ⟨hzero, hnil⟩ | ⟨hne, hbounded⟩
      · exact iff_of_false (addAllOrNothing_of_nil hI hnil member) fun hfits => hfits.1 hzero
      · rw [addAllOrNothing_of_bounded hI hbounded]
        exact (and_iff_right hne).symm
  | get _ | remove _ | iterator | hasNext _ | next _ => rfl

end IGenericArray

namespace GenericArrayType

open IGenericArray GenericArray

variable (tClass : α → Prop) [DecidablePred tClass]

lemma limited (kind : GenericArrayType) : (genericArrayClass tClass kind).Limited := by
  refine ⟨standard tClass kind, ?_⟩
  cases kind with
  | genericArrayWithT => exact ⟨_, growByCopyOf_grows, growByCopyOf_overflows, rfl⟩
  | genericArrayWithObject => exact ⟨_, growByCopyOf_grows, growByCopyOf_overflows, rfl⟩
  | genericArrayWithFT => exact ⟨_, growByArraycopy_grows, growByArraycopy_overflows, rfl⟩

/-- **When `add` is all or nothing.**  For every capacity that the constructors accept and every
sequence of calls, with members of any class: all its calls of `add` are all or nothing, and
succeed where the member can be stored, exactly if there is no such call on an array of capacity 0,
and every member added is one that the array stores, or `grow` throws before. -/
theorem add_all_or_nothing_iff (kind : GenericArrayType) {capacity : ℤ} (hcap : 0 ≤ capacity)
    (hmax : capacity ≤ Integer.MAX_VALUE) (calls : List (GenericArrayCall α)) :
    ∃ array, (genericArrayClass tClass kind).new capacity = .ok array ∧
      (Calls.Along (genericArrayClass tClass kind).perform
          (AddAllOrNothing (genericArrayClass tClass kind)) ⟨array, []⟩ calls ↔
        Calls.Along (genericArrayClass tClass kind).perform (AddFits capacity) ⟨array, []⟩
          calls) := by
  have hI := limited tClass kind
  obtain ⟨array, hnew, hsized, -⟩ := new_sized (C := component tClass kind) hcap hmax
  rw [← hI.standard.new_eq] at hnew
  exact ⟨array, hnew, Calls.along_iff (fun _ call h _ => perform_sized hI h call)
    (fun _ call h => addAllOrNothing_iff hI h call) hsized⟩

/-- Three members outgrow an array of two cells; the last one is of a wrong class. -/
theorem add_all_or_nothing_iff_two :
    ∃ array, (genericArrayClass (fun n : ℕ => n < 10) .genericArrayWithT).new 2 = .ok array ∧
      (Calls.Along (genericArrayClass (fun n : ℕ => n < 10) .genericArrayWithT).perform
          (AddAllOrNothing (genericArrayClass (fun n : ℕ => n < 10) .genericArrayWithT))
          ⟨array, []⟩ [.add (some 1), .add none, .add (some 3), .add (some 12)] ↔
        Calls.Along (genericArrayClass (fun n : ℕ => n < 10) .genericArrayWithT).perform
          (AddFits 2) ⟨array, []⟩ [.add (some 1), .add none, .add (some 3), .add (some 12)]) :=
  add_all_or_nothing_iff _ .genericArrayWithT (by decide) (by decide) _

/-- No class adds to an array of capacity 0, and `size` is raised; so it is in the array of a class
that refuses a member of another one. -/
theorem add_raises_size_when_it_throws :
    (∀ kind, ∃ array, (genericArrayClass (fun n : ℕ => n < 10) kind).new 0 = .ok array ∧
      ((genericArrayClass (fun n : ℕ => n < 10) kind).add (some 1)).thrown array =
        some .arrayIndexOutOfBoundsException ∧
      ¬Calls.Along (genericArrayClass (fun n : ℕ => n < 10) kind).perform
        (AddAllOrNothing (genericArrayClass (fun n : ℕ => n < 10) kind)) ⟨array, []⟩
        [.add (some 1)]) ∧
    ∃ array, (genericArrayClass (fun n : ℕ => n < 10) .genericArrayWithT).new 2 = .ok array ∧
      ((genericArrayClass (fun n : ℕ => n < 10) .genericArrayWithT).add (some 12)).thrown array =
        some .arrayStoreException ∧
      ¬Calls.Along (genericArrayClass (fun n : ℕ => n < 10) .genericArrayWithT).perform
        (AddAllOrNothing (genericArrayClass (fun n : ℕ => n < 10) .genericArrayWithT)) ⟨array, []⟩
        [.add (some 12)] := by
  constructor
  · intro kind
    have hI := limited (fun n : ℕ => n < 10) kind
    refine ⟨⟨[], 0⟩, by rw [hI.standard.new_eq]; rfl, ?_, ?_⟩
    · cases kind <;> rfl
    · exact fun h => addAllOrNothing_of_nil hI (w := ⟨⟨[], 0⟩, []⟩) rfl _ h.1
  · refine ⟨⟨[none, none], 0⟩, rfl, rfl, fun h => ?_⟩
    have hI := limited (fun n : ℕ => n < 10) .genericArrayWithT
    have hbounded : GenericArray.Bounded
        (⟨[none, none], 0⟩ : GenericArray (component (fun n : ℕ => n < 10) .genericArrayWithT)) :=
      ⟨le_rfl, by decide, by decide⟩
    rcases (addAllOrNothing_of_bounded hI (w := ⟨_, []⟩) hbounded _).mp h.1 with hstorable | hcannot
    · exact absurd (hstorable 12 rfl) (by simp [component])
    · exact absurd hcannot (by decide)

end GenericArrayType

end LearnJava
