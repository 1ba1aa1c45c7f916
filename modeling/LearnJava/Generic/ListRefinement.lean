import LearnJava.Foundation.Calls
import LearnJava.Generic.ArraySteps

/-!
# The generic arrays are lists

`perform` runs a call of one of the three classes, and `ListSpec.perform` says what the same call
does to a plain list, where an iterator is what it has still to give.  `Represents` relates the two:
the first `size` cells hold the elements, and one cell at least is free, since `grow` runs one
element early.

Every method gets one lemma about `Holds`, the part of the relation that is about the array; they
are put together for a call in `perform_represents`, and for a sequence of calls by the
simulation rule.
-/

namespace LearnJava

/-- A call of one of the methods, or of an iterator got before, counted from 0. -/
inductive GenericArrayCall (α : Type)
  | add (member : Option α)
  | get (index : ℤ)
  | remove (index : ℤ)
  | iterator
  | hasNext (k : ℕ)
  | next (k : ℕ)

/-- What a call returns. -/
inductive GenericArrayReply (α : Type)
  | void
  | member (x : Option α)
  | flag (b : Bool)
  deriving DecidableEq, Repr

variable {α : Type}

/-! ## Calls of the arrays -/

namespace IGenericArray

variable {C : α → Prop}

/-- An array and the iterators it has given out. -/
structure World (C : α → Prop) where
  array : GenericArray C
  iterators : List (ArrayIterator α)

/-- A call of a method of the array. -/
def onArray {β : Type} (f : β → World C → GenericArrayReply α × World C)
    (x : Method (GenericArray C) β) (w : World C) :
    Except Throwable (GenericArrayReply α) × World C :=
  match x.run w.array with
  | .ok r array => ((f r { w with array }).map .ok id)
  | .error e array => (.error e, { w with array })

/-- A call of a method of the iterator `k`; where there is none, there is no such call. -/
def onIterator {β : Type} (f : β → GenericArrayReply α) (x : Method (ArrayIterator α) β) (k : ℕ)
    (w : World C) : Except Throwable (GenericArrayReply α) × World C :=
  match w.iterators[k]? with
  | none => (.ok .void, w)
  | some it =>
    match x.run it with
    | .ok r it => (.ok (f r), { w with iterators := w.iterators.set k it })
    | .error e it => (.error e, { w with iterators := w.iterators.set k it })

/-- Run a call. -/
def perform (I : IGenericArray C) (w : World C) :
    GenericArrayCall α → Except Throwable (GenericArrayReply α) × World C
  | .add member => onArray (fun _ w => (.void, w)) (I.add member) w
  | .get index => onArray (fun x w => (.member x, w)) (I.get index) w
  | .remove index => onArray (fun x w => (.member x, w)) (I.remove index) w
  | .iterator =>
    onArray (fun it w => (.void, { w with iterators := w.iterators ++ [it] })) I.iterator w
  | .hasNext k => onIterator .flag ArrayIterator.hasNext k w
  | .next k => onIterator .member ArrayIterator.next k w

/-- The replies to a sequence of calls of a new array. -/
def replies (I : IGenericArray C) (capacity : ℤ) (calls : List (GenericArrayCall α)) :
    Except Throwable (List (Except Throwable (GenericArrayReply α))) := do
  return Calls.replies I.perform ⟨← I.new capacity, []⟩ calls

/-- Whenever a call is made, the array can be doubled. -/
def Doubles (I : IGenericArray C) (capacity : ℤ) (calls : List (GenericArrayCall α)) : Prop :=
  match I.new capacity with
  | .ok array =>
    Calls.Along I.perform (fun w _ => w.array.members.length < 2 ^ 30) ⟨array, []⟩ calls
  | .error _ => True

instance (I : IGenericArray C) (capacity : ℤ) (calls : List (GenericArrayCall α)) :
    Decidable (I.Doubles capacity calls) :=
  match h : I.new capacity with
  | .ok _ => decidable_of_iff (Calls.Along _ _ _ _) (by rw [Doubles, h])
  | .error _ => .isTrue (by rw [Doubles, h]; trivial)

end IGenericArray

/-! ## Calls of a plain list -/

/-- A list, and what the iterators over it have still to give. -/
structure ListSpec (α : Type) where
  elements : List (Option α)
  iterators : List (List (Option α))

namespace ListSpec

/-- What a call does to a list. -/
def perform (s : ListSpec α) :
    GenericArrayCall α → Except Throwable (GenericArrayReply α) × ListSpec α
  | .add member => (.ok .void, { s with elements := s.elements ++ [member] })
  | .get index =>
    if index < 0 then (.error .arrayIndexOutOfBoundsException, s)
    else (.ok (.member s.elements[index.toNat]?.join), s)
  | .remove index =>
    if index < 0 then (.error .arrayIndexOutOfBoundsException, s)
    else (.ok (.member s.elements[index.toNat]?.join),
      { s with elements := s.elements.eraseIdx index.toNat })
  | .iterator => (.ok .void, { s with iterators := s.iterators ++ [s.elements] })
  | .hasNext k =>
    match s.iterators[k]? with
    | none => (.ok .void, s)
    | some xs => (.ok (.flag (xs ≠ [])), s)
  | .next k =>
    match s.iterators[k]? with
    | none => (.ok .void, s)
    | some [] => (.error .noSuchElementException, s)
    | some (x :: xs) => (.ok (.member x), { s with iterators := s.iterators.set k xs })

end ListSpec

/-! ## The array holds the elements -/

namespace GenericArray

variable {C : α → Prop} {a : GenericArray C} {xs : List (Option α)}

/-- The first cells hold `xs`, and one cell at least is free. -/
structure Holds (a : GenericArray C) (xs : List (Option α)) : Prop where
  size_eq : a.size = xs.length
  room : xs.length < a.members.length
  content : (window a.members 0 xs.length).map ofCell = xs

lemma new_holds {capacity : ℤ} (h : 1 ≤ capacity) :
    ∃ a : GenericArray C, new capacity = .ok a ∧ a.Holds [] := by
  refine ⟨⟨List.replicate capacity.toNat none, 0⟩, ?_, rfl, ?_, by simp⟩
  · simp only [new, newArray, show ¬capacity < 0 by omega, if_false]
    rfl
  · rw [List.length_replicate, List.length_nil]
    omega

lemma Holds.nonneg (h : a.Holds xs) : 0 ≤ a.size := by
  rw [h.size_eq]
  exact Int.natCast_nonneg _

lemma Holds.grown (h : a.Holds xs) (n : ℕ) :
    Holds { a with members := a.members ++ List.replicate n none } xs := by
  refine ⟨h.size_eq, ?_, ?_⟩
  · simpa using h.room.trans_le (Nat.le_add_right _ _)
  · have hsame : window (a.members ++ List.replicate n none) 0 xs.length =
        window a.members 0 xs.length := by
      simp [window, List.take_append_of_le_length h.room.le]
    simpa [hsame] using h.content

/-- The cell of an element. -/
lemma Holds.cell (h : a.Holds xs) {i : ℕ} (hi : i < xs.length) :
    ∃ cell, a.members[i]? = some cell ∧ xs[i]? = some (ofCell cell) := by
  have hin : i < a.members.length := hi.trans h.room
  refine ⟨a.members[i], List.getElem?_eq_getElem hin, ?_⟩
  have hcell : (window a.members 0 xs.length)[i]? = some a.members[i] := by
    rw [getElem?_window, Nat.zero_add, if_pos hi, List.getElem?_eq_getElem hin]
  rw [← h.content, List.getElem?_map, hcell]
  rfl

/-- `index >= size` tells whether there is no element `index`. -/
lemma Holds.ge_size_iff (h : a.Holds xs) {index : ℤ} (hindex : 0 ≤ index) :
    index ≥ a.size ↔ xs.length ≤ index.toNat := by
  rw [h.size_eq]
  omega

lemma get_run (h : a.Holds xs) {index : ℤ} (hindex : 0 ≤ index) :
    (get index).run a = .ok xs[index.toNat]?.join a := by
  unfold get
  rw [get_bind_run]
  by_cases hi : xs.length ≤ index.toNat
  · rw [if_pos ((h.ge_size_iff hindex).mpr hi), List.getElem?_eq_none hi]
    rfl
  · obtain ⟨cell, hcell, hx⟩ := h.cell (not_le.mp hi)
    rw [if_neg (mt (h.ge_size_iff hindex).mp hi), ← Int.toNat_of_nonneg hindex,
      bind_of_run (aloadInt_run hcell a), Int.toNat_natCast, hx]
    rfl

lemma get_run_neg (h : a.Holds xs) {index : ℤ} (hindex : index < 0) :
    (get index).run a = .error .arrayIndexOutOfBoundsException a := by
  have hlt : ¬index ≥ a.size := not_le.mpr (hindex.trans_le h.nonneg)
  unfold get
  rw [get_bind_run, if_neg hlt, bind_of_throw (aloadInt_run_neg _ hindex a)]

lemma Holds.bounded (h : a.Holds xs) (hlen : a.members.length < 2 ^ 30) : a.Bounded := by
  have hroom := h.room
  have hsize := h.size_eq
  exact ⟨h.nonneg, by omega, by omega⟩

lemma Holds.removed (h : a.Holds xs) {i : ℕ} (hi : i < xs.length) :
    (a.removed i).Holds (xs.eraseIdx i) := by
  have hroom := h.room
  have hsize := h.size_eq
  have hlength := List.length_eraseIdx_of_lt hi
  let members := a.members.set i none
  have hlen : members.length = a.members.length := List.length_set
  refine ⟨?_, ?_, ?_⟩
  · change a.size - 1 = _
    omega
  · change _ < (overlay members (i + 1) members i (a.size.toNat - 1 - i)).length
    rw [length_overlay (by omega) (by omega)]
    omega
  · have hwin := window_overlay_eraseIdx (l := members) (Nat.zero_le i) hi
      (c := a.size.toNat - 1 - i) (by omega) (by omega)
    change (window (overlay members (i + 1) members i (a.size.toNat - 1 - i)) 0 _).map ofCell = _
    rw [hlength, hwin, eraseIdx_window_set, Nat.sub_zero, ← List.eraseIdx_map, h.content]

lemma Holds.stored (h : a.Holds xs) (hroom : xs.length + 1 < a.members.length)
    (cell : Option {x // C x}) :
    Holds ⟨a.members.set xs.length cell, a.size + 1⟩ (xs ++ [ofCell cell]) := by
  refine ⟨by simp [h.size_eq], by simpa using hroom, ?_⟩
  have hget : (a.members.set xs.length cell)[xs.length]? = some cell :=
    List.getElem?_set_self h.room
  rw [List.length_append, List.length_singleton, window_snoc (Nat.zero_le _) hget,
    window_set_of_le le_rfl, List.map_append, h.content]
  rfl

lemma iterator_run (h : a.Holds xs) : iterator.run a = .ok ⟨xs, 0, Nat.zero_le _⟩ a := by
  have hcopy := copyOf_run a.members xs.length a
  have htake : a.members.take xs.length = window a.members 0 xs.length := by simp [window]
  rw [htake, Nat.sub_eq_zero_of_le h.room.le, List.replicate_zero, List.append_nil] at hcopy
  unfold iterator
  rw [get_bind_run, h.size_eq, bind_of_run hcopy]
  exact congrArg (fun ys => EStateM.Result.ok (ArrayIterator.mk ys 0 (Nat.zero_le _)) a) h.content

variable [DecidablePred C]

lemma add_run {grow : Method (GenericArray C) Unit} (hgrow : Grows grow) (h : a.Holds xs)
    (hlen : a.members.length < 2 ^ 30) (member : Option α) (hC : ∀ x, member = some x → C x) :
    ∃ a', (add grow member).run a = .ok () a' ∧ a'.Holds (xs ++ [member]) := by
  obtain ⟨cell, hcell, hvalue⟩ := exists_toCell hC
  have hsize : a.size.toNat = xs.length := by rw [h.size_eq, Int.toNat_natCast]
  have hcan : ¬a.CannotGrow := fun hcannot => hlen.not_ge hcannot.2
  obtain ⟨n, hroom, -, ⟨cell', hcell', hrun⟩ | ⟨hnone, -⟩⟩ :=
    add_cases_of_grows hgrow (h.bounded hlen) hcan member
  · obtain rfl := Option.some.inj (hcell.symm.trans hcell')
    rw [hsize] at hrun
    refine ⟨_, hrun, hvalue ▸ (h.grown n).stored ?_ cell⟩
    change xs.length + 1 < (a.padded n).length
    have hlength := h.size_eq
    omega
  · rw [hcell] at hnone
    cases hnone

lemma remove_run (h : a.Holds xs) (hlen : a.members.length < 2 ^ 30) {index : ℤ}
    (hindex : 0 ≤ index) :
    ∃ a', (remove index).run a = .ok xs[index.toNat]?.join a' ∧
      a'.Holds (xs.eraseIdx index.toNat) := by
  obtain ⟨hge, hrun⟩ | ⟨hneg, -⟩ | ⟨i, cell, rfl, hi, hcell, hrun⟩ :=
    remove_cases (h.bounded hlen) index
  · have hend : xs.length ≤ index.toNat := (h.ge_size_iff hindex).mp hge
    rw [List.getElem?_eq_none hend, List.eraseIdx_of_length_le hend]
    exact ⟨a, hrun, h⟩
  · exact absurd hneg (not_lt.mpr hindex)
  · rw [h.size_eq, Nat.cast_lt] at hi
    obtain ⟨cell', hcell', hx⟩ := h.cell hi
    obtain rfl := Option.some.inj (hcell.symm.trans hcell')
    rw [Int.toNat_natCast, hx]
    exact ⟨_, hrun, h.removed hi⟩

lemma remove_run_neg (h : a.Holds xs) {index : ℤ} (hindex : index < 0) :
    (remove index).run a = .error .arrayIndexOutOfBoundsException a := by
  have hlt : ¬index ≥ a.size := not_le.mpr (hindex.trans_le h.nonneg)
  unfold remove
  rw [get_bind_run, if_neg hlt, bind_of_throw (aloadInt_run_neg _ hindex a)]

end GenericArray

/-! ## Calls of an array and of the list it holds -/

namespace IGenericArray

open GenericArray

variable {C : α → Prop} [DecidablePred C]

/-- The array holds the elements of the list, and the iterators have the same elements left. -/
structure Represents (w : World C) (s : ListSpec α) : Prop where
  array : w.array.Holds s.elements
  iterators : w.iterators.map ArrayIterator.remaining = s.iterators

/-- What the three classes have in common. -/
structure Standard (I : IGenericArray C) : Prop where
  new_eq : I.new = GenericArray.new
  add_eq : ∃ grow, Grows grow ∧ I.add = GenericArray.add grow
  get_eq : I.get = GenericArray.get
  remove_eq : I.remove = GenericArray.remove
  iterator_eq : I.iterator = GenericArray.iterator

variable {I : IGenericArray C} {w : World C} {s : ListSpec α}

/-- The members a call adds are instances of `C`. -/
def WellTyped (C : α → Prop) : GenericArrayCall α → Prop
  | .add (some x) => C x
  | _ => True

omit [DecidablePred C] in
lemma onArray_of_ok {β : Type} {x : Method (GenericArray C) β} {r : β} {array : GenericArray C}
    (h : x.run w.array = .ok r array) (f : β → World C → GenericArrayReply α × World C) :
    onArray f x w = (.ok (f r { w with array }).1, (f r { w with array }).2) := by
  rw [onArray, h]
  rfl

omit [DecidablePred C] in
lemma onArray_of_error {β : Type} {x : Method (GenericArray C) β} {e : Throwable}
    (h : x.run w.array = .error e w.array) (f : β → World C → GenericArrayReply α × World C) :
    onArray f x w = (.error e, w) := by
  rw [onArray, h]

omit [DecidablePred C] in
lemma onIterator_none {β : Type} {f : β → GenericArrayReply α} {x : Method (ArrayIterator α) β}
    {k : ℕ} (h : w.iterators[k]? = none) : onIterator f x k w = (.ok .void, w) := by
  rw [onIterator, h]

omit [DecidablePred C] in
lemma onIterator_of_ok {β : Type} {f : β → GenericArrayReply α} {x : Method (ArrayIterator α) β}
    {k : ℕ} {it it' : ArrayIterator α} {r : β} (h : w.iterators[k]? = some it)
    (hrun : x.run it = .ok r it') :
    onIterator f x k w = (.ok (f r), { w with iterators := w.iterators.set k it' }) := by
  simp only [onIterator, h, hrun]

omit [DecidablePred C] in
lemma onIterator_of_error {β : Type} {f : β → GenericArrayReply α} {x : Method (ArrayIterator α) β}
    {k : ℕ} {it it' : ArrayIterator α} {e : Throwable} (h : w.iterators[k]? = some it)
    (hrun : x.run it = .error e it') :
    onIterator f x k w = (.error e, { w with iterators := w.iterators.set k it' }) := by
  simp only [onIterator, h, hrun]

omit [DecidablePred C] in
lemma set_iterator_self {k : ℕ} {it : ArrayIterator α} (h : w.iterators[k]? = some it) :
    w.iterators.set k it = w.iterators := by
  obtain ⟨hk, rfl⟩ := List.getElem?_eq_some_iff.mp h
  exact List.set_getElem_self hk

omit [DecidablePred C] in
/-- The iterators of both sides. -/
lemma Represents.iterator_eq (h : Represents w s) (k : ℕ) :
    s.iterators[k]? = w.iterators[k]?.map ArrayIterator.remaining := by
  rw [← h.iterators, List.getElem?_map]

omit [DecidablePred C] in
lemma Represents.set_iterator (h : Represents w s) (k : ℕ) {it : ArrayIterator α}
    {xs : List (Option α)} (hit : it.remaining = xs) :
    Represents { w with iterators := w.iterators.set k it }
      { s with iterators := s.iterators.set k xs } :=
  ⟨h.array, by simp [List.map_set, h.iterators, hit]⟩

/-- **One call.**  The array and the list give the same reply and represent each other again. -/
lemma perform_represents (hI : I.Standard) (h : Represents w s)
    (hlen : w.array.members.length < 2 ^ 30) {call : GenericArrayCall α}
    (hcall : WellTyped C call) :
    (I.perform w call).1 = (s.perform call).1 ∧
      Represents (I.perform w call).2 (s.perform call).2 := by
  cases call with
  | add member =>
      obtain ⟨grow, hgrow, hadd⟩ := hI.add_eq
      obtain ⟨array, hrun, hholds⟩ := add_run hgrow h.array hlen member
        fun x hx => by subst hx; exact hcall
      rw [perform, hadd, onArray_of_ok hrun]
      exact ⟨rfl, hholds, h.iterators⟩
  | get index =>
      rw [perform, hI.get_eq]
      by_cases hindex : index < 0
      · rw [onArray_of_error (get_run_neg h.array hindex), ListSpec.perform, if_pos hindex]
        exact ⟨rfl, h⟩
      · rw [onArray_of_ok (get_run h.array (not_lt.mp hindex)), ListSpec.perform, if_neg hindex]
        exact ⟨rfl, h⟩
  | remove index =>
      rw [perform, hI.remove_eq]
      by_cases hindex : index < 0
      · rw [onArray_of_error (remove_run_neg h.array hindex), ListSpec.perform, if_pos hindex]
        exact ⟨rfl, h⟩
      · obtain ⟨array, hrun, hholds⟩ := remove_run h.array hlen (not_lt.mp hindex)
        rw [onArray_of_ok hrun, ListSpec.perform, if_neg hindex]
        exact ⟨rfl, hholds, h.iterators⟩
  | iterator =>
      rw [perform, hI.iterator_eq, onArray_of_ok (iterator_run h.array)]
      exact ⟨rfl, h.array, by simp [h.iterators, ListSpec.perform, ArrayIterator.remaining]⟩
  | hasNext k =>
      have hk := h.iterator_eq k
      cases hit : w.iterators[k]? with
      | none =>
          rw [hit] at hk
          rw [perform, onIterator_none hit, ListSpec.perform, hk]
          exact ⟨rfl, h⟩
      | some it =>
          rw [hit] at hk
          have hsame : w.iterators.set k it = w.iterators := set_iterator_self hit
          rw [perform, onIterator_of_ok hit it.hasNext_run, ListSpec.perform, hk, hsame]
          exact ⟨rfl, h⟩
  | next k =>
      have hk := h.iterator_eq k
      cases hit : w.iterators[k]? with
      | none =>
          rw [hit] at hk
          rw [perform, onIterator_none hit, ListSpec.perform, hk]
          exact ⟨rfl, h⟩
      | some it =>
          rw [hit, Option.map_some] at hk
          rw [ListSpec.perform, hk]
          cases hrem : it.remaining with
          | nil =>
              have hsame : w.iterators.set k it = w.iterators := set_iterator_self hit
              rw [perform, onIterator_of_error hit (ArrayIterator.next_run_nil hrem), hsame]
              exact ⟨rfl, h⟩
          | cons x xs =>
              obtain ⟨it', hrun, hxs⟩ := ArrayIterator.next_run_cons hrem
              rw [perform, onIterator_of_ok hit hrun]
              exact ⟨rfl, h.set_iterator k hxs⟩

/-- A new array and a sequence of calls of it. -/
lemma replies_eq (hI : I.Standard) {capacity : ℤ} (hcap : 1 ≤ capacity)
    {calls : List (GenericArrayCall α)} (hcalls : ∀ call ∈ calls, WellTyped C call)
    (hdoubles : I.Doubles capacity calls) :
    I.replies capacity calls = .ok (Calls.replies ListSpec.perform ⟨[], []⟩ calls) := by
  obtain ⟨array, hnew, hholds⟩ := new_holds (C := C) hcap
  rw [← hI.new_eq] at hnew
  rw [Doubles, hnew] at hdoubles
  have hrelated : Represents ⟨array, []⟩ (⟨[], []⟩ : ListSpec α) := ⟨hholds, rfl⟩
  have hsame := Calls.simulates (f := I.perform) (g := ListSpec.perform)
    (fun _ _ _ h hC => perform_represents hI h hC.1 hC.2) hrelated (hdoubles.and_of_mem hcalls)
  rw [replies, hnew]
  exact congrArg Except.ok hsame.1

end IGenericArray

namespace GenericArrayType

variable (tClass : α → Prop) [DecidablePred tClass]

lemma standard (kind : GenericArrayType) : (genericArrayClass tClass kind).Standard := by
  cases kind with
  | genericArrayWithT => exact ⟨rfl, ⟨_, GenericArray.growByCopyOf_grows, rfl⟩, rfl, rfl, rfl⟩
  | genericArrayWithObject => exact ⟨rfl, ⟨_, GenericArray.growByCopyOf_grows, rfl⟩, rfl, rfl, rfl⟩
  | genericArrayWithFT => exact ⟨rfl, ⟨_, GenericArray.growByArraycopy_grows, rfl⟩, rfl, rfl, rfl⟩

variable {tClass}

omit [DecidablePred tClass] in
lemma wellTyped_component (kind : GenericArrayType) {call : GenericArrayCall α}
    (h : IGenericArray.WellTyped tClass call) :
    IGenericArray.WellTyped (component tClass kind) call := by
  cases kind with
  | genericArrayWithT => exact h
  | genericArrayWithObject | genericArrayWithFT =>
      cases call with
      | add member => cases member <;> trivial
      | _ => trivial

/-- **The three generic arrays are lists.**  For every capacity of at least 1 and every sequence of
calls that adds members of the declared class, while the arrays can be doubled: whichever of the
three classes is used, the replies are those of a plain list. -/
theorem genericArrays_are_lists {capacity : ℤ} (hcap : 1 ≤ capacity)
    {calls : List (GenericArrayCall α)}
    (htyped : ∀ call ∈ calls, IGenericArray.WellTyped tClass call)
    (hdoubles : ∀ kind, (genericArrayClass tClass kind).Doubles capacity calls) :
    ∀ kind, (genericArrayClass tClass kind).replies capacity calls =
      .ok (Calls.replies ListSpec.perform ⟨[], []⟩ calls) :=
  fun kind => IGenericArray.replies_eq (standard tClass kind) hcap
    (fun call hcall => wellTyped_component kind (htyped call hcall)) (hdoubles kind)

/-- Two members outgrow an array of one cell, an iterator keeps what is removed later, and an index
is refused. -/
def growing : List (GenericArrayCall ℕ) :=
  [.add (some 1), .add (some 2), .iterator, .remove 0, .get 0, .next 0, .get (-1)]

theorem genericArrays_are_lists_growing :
    let replies kind := (genericArrayClass (fun n : ℕ => n < 10) kind).replies 1 growing
    replies .genericArrayWithT = replies .genericArrayWithFT ∧
      replies .genericArrayWithObject = replies .genericArrayWithFT ∧
      replies .genericArrayWithFT =
        .ok [.ok .void, .ok .void, .ok .void, .ok (.member (some 1)), .ok (.member (some 2)),
          .ok (.member (some 1)), .error .arrayIndexOutOfBoundsException] := by
  have hdoubles : ∀ kind,
      (genericArrayClass (fun n : ℕ => n < 10) kind).Doubles 1 growing := by
    intro kind
    cases kind <;> decide +kernel
  have hlists := genericArrays_are_lists (by decide) (by simp [growing, IGenericArray.WellTyped])
    hdoubles
  exact ⟨(hlists _).trans (hlists _).symm, (hlists _).trans (hlists _).symm, hlists _⟩

end GenericArrayType

end LearnJava
