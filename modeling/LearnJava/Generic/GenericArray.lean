import LearnJava.Java.Lang

/-!
# The three generic arrays

`GenericArrayWithT`, `GenericArrayWithObject` and `GenericArrayWithFT` keep their elements in the
first `size` cells of an array that is replaced by one of twice the length when it is about to
fill up.  The three differ in the class of that array — the class object given to the
constructor, or `Object` — and in how `grow` makes the longer one.  Their other methods are the
same text, which is written once here with `grow` as a parameter.

`members[size++] = member` adds to `size` before the cell is written, so `add` has changed `size`
also when the index or the class of the element is refused.
-/

namespace LearnJava

/-- The fields of the three classes.  `C` is the class of the array's elements. -/
structure GenericArray {α : Type} (C : α → Prop) where
  members : List (Option {x // C x})
  size : ℤ

/-- An iterator over a list that is backed by an array of its own. -/
structure ArrayIterator (α : Type) where
  elements : List (Option α)
  cursor : ℕ
  cursor_le : cursor ≤ elements.length

namespace ArrayIterator

variable {α : Type}

def hasNext : Method (ArrayIterator α) Bool := do
  let it ← get
  return it.cursor ≠ it.elements.length

def next : Method (ArrayIterator α) (Option α) := do
  let it ← get
  if h : it.cursor < it.elements.length then
    set { it with cursor := it.cursor + 1, cursor_le := h }
    return it.elements[it.cursor]
  else
    throw .noSuchElementException

/-- What `next` has still to give. -/
def remaining (it : ArrayIterator α) : List (Option α) := it.elements.drop it.cursor

variable {it : ArrayIterator α}

lemma remaining_eq_nil_iff : it.remaining = [] ↔ it.cursor = it.elements.length := by
  rw [remaining, List.drop_eq_nil_iff]
  exact ⟨it.cursor_le.antisymm, fun h => h.ge⟩

lemma hasNext_run (it : ArrayIterator α) :
    hasNext.run it = .ok (it.remaining ≠ []) it := by
  simp only [ne_eq, remaining_eq_nil_iff]
  rfl

lemma next_run_nil (h : it.remaining = []) : next.run it = .error .noSuchElementException it := by
  have hend : ¬it.cursor < it.elements.length := (remaining_eq_nil_iff.mp h).not_lt
  unfold next
  rw [get_bind_run, dif_neg hend, throw_run]

lemma next_run_cons {x : Option α} {xs : List (Option α)} (h : it.remaining = x :: xs) :
    ∃ it', next.run it = .ok x it' ∧ it'.remaining = xs := by
  have hlt : it.cursor < it.elements.length := by
    refine it.cursor_le.lt_of_ne fun heq => ?_
    rw [remaining_eq_nil_iff.mpr heq] at h
    cases h
  have hdrop := List.drop_eq_getElem_cons hlt
  rw [← remaining, h, List.cons.injEq] at hdrop
  refine ⟨{ it with cursor := it.cursor + 1, cursor_le := hlt }, ?_, hdrop.2.symm⟩
  unfold next
  rw [get_bind_run, dif_pos hlt, hdrop.1]
  rfl

end ArrayIterator

namespace GenericArray

variable {α : Type} {C : α → Prop} [DecidablePred C]

/-- The constructors, after the class of the array is known. -/
def new (size : ℤ) : Except Throwable (GenericArray C) := do
  return { members := ← newArray size, size := 0 }

/-- `grow` of `GenericArrayWithT` and of `GenericArrayWithObject`. -/
def growByCopyOf : Method (GenericArray C) Unit := do
  let a ← get
  let newArraySize := wrap32 (a.members.length * 2)
  let members ← copyOf a.members newArraySize
  set { a with members }

/-- `grow` of `GenericArrayWithFT`. -/
def growByArraycopy : Method (GenericArray C) Unit := do
  let a ← get
  let newArraySize := wrap32 (a.members.length * 2)
  let newMembers ← newArray newArraySize
  let members ← arraycopyInt a.members 0 newMembers 0 a.members.length
  set { a with members }

/-- The statement `members[size++] = member`. -/
def storeNext (member : Option α) : Method (GenericArray C) Unit := do
  let a ← get
  set { a with size := wrap32 (a.size + 1) }
  let members ← astoreRef a.members a.size member
  modify fun a => { a with members }

def add (grow : Method (GenericArray C) Unit) (member : Option α) :
    Method (GenericArray C) Unit := do
  if (← get).size = (← get).members.length - 1 then
    grow
  storeNext member

def get (index : ℤ) : Method (GenericArray C) (Option α) := do
  let a ← MonadState.get
  if index ≥ a.size then return none else return ofCell (← aloadInt a.members index)

def moveMembers (startIndex : ℤ) : Method (GenericArray C) Unit := do
  let a ← MonadState.get
  let members ← arraycopyInt a.members (startIndex + 1) a.members startIndex (a.size - startIndex)
  set { a with members }

def remove (index : ℤ) : Method (GenericArray C) (Option α) := do
  let a ← MonadState.get
  if index ≥ a.size then
    return none
  let value ← aloadInt a.members index
  let members ← astoreRef a.members index none
  set { a with members, size := wrap32 (a.size - 1) }
  if index ≠ a.size then
    moveMembers index
  return ofCell value

def iterator : Method (GenericArray C) (ArrayIterator α) := do
  let a ← MonadState.get
  let cloneList ← copyOf a.members a.size
  return ⟨cloneList.map ofCell, 0, Nat.zero_le _⟩

end GenericArray

/-- The constructor and the methods of a class that implements `IGenericArray`. -/
structure IGenericArray {α : Type} (C : α → Prop) where
  new : ℤ → Except Throwable (GenericArray C)
  add : Option α → Method (GenericArray C) Unit
  get : ℤ → Method (GenericArray C) (Option α)
  remove : ℤ → Method (GenericArray C) (Option α)
  iterator : Method (GenericArray C) (ArrayIterator α)

def GenericArrayWithT {α : Type} (tClass : α → Prop) [DecidablePred tClass] :
    IGenericArray tClass where
  new := GenericArray.new
  add := GenericArray.add GenericArray.growByCopyOf
  get := GenericArray.get
  remove := GenericArray.remove
  iterator := GenericArray.iterator

def GenericArrayWithObject (α : Type) : IGenericArray fun _ : α => True where
  new := GenericArray.new
  add := GenericArray.add GenericArray.growByCopyOf
  get := GenericArray.get
  remove := GenericArray.remove
  iterator := GenericArray.iterator

def GenericArrayWithFT (α : Type) : IGenericArray fun _ : α => True where
  new := GenericArray.new
  add := GenericArray.add GenericArray.growByArraycopy
  get := GenericArray.get
  remove := GenericArray.remove
  iterator := GenericArray.iterator

/-- `GenericArrayType`. -/
inductive GenericArrayType
  | genericArrayWithT
  | genericArrayWithObject
  | genericArrayWithFT
  deriving DecidableEq, Repr

namespace GenericArrayType

variable {α : Type} (tClass : α → Prop) [DecidablePred tClass]

/-- The class of the elements of the array. -/
def component : GenericArrayType → α → Prop
  | genericArrayWithT => tClass
  | genericArrayWithObject | genericArrayWithFT => fun _ => True

instance : ∀ kind, DecidablePred (component tClass kind)
  | genericArrayWithT => inferInstanceAs (DecidablePred tClass)
  | genericArrayWithObject | genericArrayWithFT => fun _ => .isTrue trivial

def genericArrayClass : (kind : GenericArrayType) → IGenericArray (component tClass kind)
  | genericArrayWithT => GenericArrayWithT tClass
  | genericArrayWithObject => GenericArrayWithObject α
  | genericArrayWithFT => GenericArrayWithFT α

end GenericArrayType

end LearnJava
