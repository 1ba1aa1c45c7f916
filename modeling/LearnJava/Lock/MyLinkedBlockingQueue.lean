import LearnJava.Java.Lang

/-!
# `MyLinkedBlockingQueue`: the array and its methods

The bounded queue of `lock/app/MyLinkedBlockingQueue.java` keeps its elements in the cells
`startIndex … insertIndex - 1` of an array of `queueSize` cells.  This file transcribes its
methods as they act on these fields; the lock around each of them and the two conditions the
blocking methods wait on belong to `LearnJava/Lock/QueueMonitor.lean`.

A cell holds `none` for `null`.  The argument of `remove(Object)` and `contains(Object)` is
`none` for `null`, and otherwise the predicate telling which elements it is or equals.

`Valid` bounds the two indices by the array.  For every method one lemma says what it returns and
which fields it leaves in a valid queue; later files use these and do not unfold the methods.
Two details of the source show up there:

* `cleanArray` moves the cells to the front of the array when the last one has been written, but
  leaves both indices where they are (`compacted`), so that `hasPosition` stays false from then
  on and the cells between the indices may have been overwritten;
* `remove(Object)` takes out the last element that matches, and copies one cell more than there are
  elements behind it, which fails when the array has been filled to its end
  (`removeObject_run_full`).
-/

namespace LearnJava

/-- The fields of `MyLinkedBlockingQueue<ELEMENT>`. -/
structure MyLinkedBlockingQueue (α : Type) where
  elements : List (Option α)
  queueSize : ℕ
  startIndex : ℕ
  insertIndex : ℕ
  deriving DecidableEq, Repr

namespace MyLinkedBlockingQueue

variable {α : Type}

/-- `new MyLinkedBlockingQueue(queueSize, elementClass)`. -/
def new (queueSize : ℕ) : MyLinkedBlockingQueue α where
  elements := List.replicate queueSize none
  queueSize := queueSize
  startIndex := 0
  insertIndex := 0

/-! ## The private helpers and the size queries -/

def hasPosition (q : MyLinkedBlockingQueue α) : Bool := q.insertIndex < q.queueSize

def size (q : MyLinkedBlockingQueue α) : ℤ := q.insertIndex - q.startIndex

def isEmpty (q : MyLinkedBlockingQueue α) : Bool := q.startIndex == q.insertIndex

def remainingCapacity (q : MyLinkedBlockingQueue α) : ℤ :=
  let elementCount := (q.insertIndex : ℤ) - q.startIndex
  q.queueSize - elementCount

def cleanArray : Method (MyLinkedBlockingQueue α) Unit := do
  let q ← get
  if q.insertIndex < q.queueSize then
    return
  let length := q.insertIndex - q.startIndex
  let elements ← arraycopy q.elements q.startIndex q.elements 0 length
  set { q with elements }

def addElement (element : Option α) : Method (MyLinkedBlockingQueue α) Unit := do
  let q ← get
  set { q with insertIndex := q.insertIndex + 1 }
  let elements ← astore q.elements q.insertIndex element
  modify fun q => { q with elements }
  cleanArray

def getElement : Method (MyLinkedBlockingQueue α) (Option α) := do
  let q ← get
  set { q with startIndex := q.startIndex + 1 }
  aload q.elements q.startIndex

/-! ## The methods that add and hand out elements -/

def offer (element : Option α) : Method (MyLinkedBlockingQueue α) Bool := do
  if !(← get).hasPosition then
    return false
  addElement element
  return true

def add (element : Option α) : Method (MyLinkedBlockingQueue α) Bool := do
  if ← offer element then
    return true
  else
    throw (.illegalStateException "Queue full")

def poll : Method (MyLinkedBlockingQueue α) (Option α) := do
  if (← get).isEmpty then
    return none
  getElement

def remove : Method (MyLinkedBlockingQueue α) (Option α) := do
  if (← get).isEmpty then
    throw .noSuchElementException
  else
    poll

def element : Method (MyLinkedBlockingQueue α) (Option α) := do
  let q ← get
  if q.isEmpty then
    throw .noSuchElementException
  aload q.elements q.startIndex

def peek : Method (MyLinkedBlockingQueue α) (Option α) := do
  let q ← get
  if q.isEmpty then return none else aload q.elements q.startIndex

def toArray : Method (MyLinkedBlockingQueue α) (List (Option α)) := do
  let q ← get
  copyOfRange q.elements q.startIndex q.insertIndex

/-! ## The methods that search or drain the queue -/

/-- The test `element == o || element.equals(o)`. -/
def sameOrEqual (element : Option α) (o : Option (α → Bool)) :
    Method (MyLinkedBlockingQueue α) Bool :=
  match element, o with
  | none, none => pure true
  | none, some _ => throw .nullPointerException
  | some _, none => pure false
  | some x, some eq => pure (eq x)

/-- The loop of `remove(Object)`: the last index, of the `count` ones from `index`, whose element
matches, and `objIndex` (`none` for `-1`) when there is none. -/
def findObject (o : Option (α → Bool)) :
    ℕ → ℕ → Option ℕ → Method (MyLinkedBlockingQueue α) (Option ℕ)
  | 0, _, objIndex => pure objIndex
  | count + 1, index, objIndex => do
    let hit ← sameOrEqual (← aload (← get).elements index) o
    findObject o count (index + 1) (if hit then some index else objIndex)

/-- `remove(Object o)`. -/
def removeObject (o : Option (α → Bool)) : Method (MyLinkedBlockingQueue α) Bool := do
  let q ← get
  match ← findObject o (q.insertIndex - q.startIndex) q.startIndex none with
  | none => return false
  | some objIndex =>
    let srcPos := objIndex + 1
    let length := q.insertIndex - objIndex
    let elements ← arraycopy q.elements srcPos q.elements objIndex length
    set { q with elements, insertIndex := q.insertIndex - 1 }
    return true

/-- The loop of `contains(Object)` over the array. -/
def containsFrom (o : Option (α → Bool)) :
    List (Option α) → Method (MyLinkedBlockingQueue α) Bool
  | [] => pure false
  | element :: rest => do if ← sameOrEqual element o then return true else containsFrom o rest

/-- `contains(Object o)`. -/
def contains (o : Option (α → Bool)) : Method (MyLinkedBlockingQueue α) Bool := do
  containsFrom o (← get).elements

/-- The collection `c` of `drainTo(c)`: another one, which may refuse the element of a cell with an
exception, or the queue. -/
inductive Receiver
  | collection (refuses : ℕ → Option Throwable)
  | self

namespace Receiver

/-- A collection that refuses nothing. -/
def accepting : Receiver := .collection fun _ => none

/-- `c.add(x)` for the element `x` of the cell `index`. -/
def add (c : Receiver) (index : ℕ) (x : Option α) : Method (MyLinkedBlockingQueue α) PUnit :=
  match c with
  | .collection refuses =>
    match refuses index with
    | none => pure ⟨⟩
    | some e => throw e
  | .self => do
    let _ ← MyLinkedBlockingQueue.add x

/-- What `c.add` may throw. -/
def Throws : Receiver → Throwable → Prop
  | .collection refuses, e => ∃ index, refuses index = some e
  | .self, e => e = .illegalStateException "Queue full"

end Receiver

/-- The loop of `drainTo(c)` from `index` on: the elements it has added.  `index` never gets beyond
the end of the array, so that `fuel` need not be more than its length. -/
def drainFrom (c : Receiver) : ℕ → ℕ → Method (MyLinkedBlockingQueue α) (List (Option α))
  | 0, _ => pure []
  | fuel + 1, index => do
    let q ← get
    if index < q.insertIndex then
      let x ← aload q.elements index
      c.add index x
      return x :: (← drainFrom c fuel (index + 1))
    else
      return []

/-- `drainTo(c)`: the returned count and the elements added to `c`. -/
def drainInto (c : Receiver) : Method (MyLinkedBlockingQueue α) (ℤ × List (Option α)) := do
  let q ← get
  if q.isEmpty then
    return (0, [])
  let added ← drainFrom c q.queueSize q.startIndex
  let q ← get
  let count := q.size
  set { q with startIndex := q.insertIndex }
  return (count, added)

/-- The loop of `drainTo(c, maxElements)`, with `count` passes left. -/
def drainCount (c : Receiver) : ℕ → ℕ → Method (MyLinkedBlockingQueue α) (List (Option α))
  | 0, _ => pure []
  | count + 1, index => do
    let q ← get
    let x ← aload q.elements (q.startIndex + index)
    c.add (q.startIndex + index) x
    return x :: (← drainCount c count (index + 1))

/-- `drainTo(c, maxElements)`. -/
def drainIntoMax (c : Receiver) (maxElements : ℤ) :
    Method (MyLinkedBlockingQueue α) (ℤ × List (Option α)) := do
  let q ← get
  if q.isEmpty then
    return (0, [])
  let count := min q.size maxElements
  let added ← drainCount c count.toNat 0
  return (count, added)

/-- `drainTo(c)` for a collection that takes everything. -/
def drainTo : Method (MyLinkedBlockingQueue α) (ℤ × List (Option α)) := drainInto .accepting

/-- `drainTo(c, maxElements)` for a collection that takes everything. -/
def drainToMax (maxElements : ℤ) : Method (MyLinkedBlockingQueue α) (ℤ × List (Option α)) :=
  drainIntoMax .accepting maxElements

/-! ## Valid queues and their content -/

/-- The indices are ordered and stay inside the array. -/
structure Valid (q : MyLinkedBlockingQueue α) : Prop where
  length_elements : q.elements.length = q.queueSize
  start_le : q.startIndex ≤ q.insertIndex
  insert_le : q.insertIndex ≤ q.queueSize

/-- The queued elements, oldest first: the cells between the two indices. -/
def content (q : MyLinkedBlockingQueue α) : List (Option α) :=
  window q.elements q.startIndex q.insertIndex

/-- No queued element is `null`. -/
def NonNull (q : MyLinkedBlockingQueue α) : Prop := ∀ x ∈ q.content, x ≠ none

variable {q : MyLinkedBlockingQueue α}

lemma valid_new (n : ℕ) : (new n : MyLinkedBlockingQueue α).Valid where
  length_elements := List.length_replicate
  start_le := le_rfl
  insert_le := Nat.zero_le _

@[simp] lemma content_new (n : ℕ) : (new n : MyLinkedBlockingQueue α).content = [] :=
  window_self _ _

lemma length_content (hq : q.Valid) : q.content.length = q.insertIndex - q.startIndex :=
  length_window (hq.length_elements ▸ hq.insert_le)

lemma size_eq_length_content (hq : q.Valid) : q.size = q.content.length := by
  have hle := hq.start_le
  rw [size, length_content hq]
  omega

lemma isEmpty_iff_content (hq : q.Valid) : q.isEmpty = true ↔ q.content = [] := by
  have hle := hq.start_le
  rw [← List.length_eq_zero_iff, length_content hq, isEmpty, beq_iff_eq]
  omega

lemma hasPosition_iff : q.hasPosition = true ↔ q.insertIndex < q.queueSize := by
  simp [hasPosition]

/-! ## The fields after each change -/

/-- After `elements[insertIndex++] = element`. -/
def stored (q : MyLinkedBlockingQueue α) (element : Option α) : MyLinkedBlockingQueue α :=
  { q with elements := q.elements.set q.insertIndex element, insertIndex := q.insertIndex + 1 }

/-- After `cleanArray()`: the cells may have moved, the indices have not. -/
def compacted (q : MyLinkedBlockingQueue α) : MyLinkedBlockingQueue α :=
  if q.insertIndex < q.queueSize then q
  else { q with
    elements := overlay q.elements q.startIndex q.elements 0 (q.insertIndex - q.startIndex) }

/-- After `addElement(element)`. -/
def pushed (q : MyLinkedBlockingQueue α) (element : Option α) : MyLinkedBlockingQueue α :=
  (q.stored element).compacted

/-- After `getElement()`. -/
def popped (q : MyLinkedBlockingQueue α) : MyLinkedBlockingQueue α :=
  { q with startIndex := q.startIndex + 1 }

/-- After `drainTo(c)`. -/
def drained (q : MyLinkedBlockingQueue α) : MyLinkedBlockingQueue α :=
  { q with startIndex := q.insertIndex }

/-- After `remove(o)` took out the cell `k`. -/
def withoutCell (q : MyLinkedBlockingQueue α) (k : ℕ) : MyLinkedBlockingQueue α :=
  { q with
    elements := overlay q.elements (k + 1) q.elements k (q.insertIndex - k)
    insertIndex := q.insertIndex - 1 }

@[simp] lemma queueSize_compacted (q : MyLinkedBlockingQueue α) :
    q.compacted.queueSize = q.queueSize := by
  unfold compacted; split <;> rfl

@[simp] lemma startIndex_compacted (q : MyLinkedBlockingQueue α) :
    q.compacted.startIndex = q.startIndex := by
  unfold compacted; split <;> rfl

@[simp] lemma insertIndex_compacted (q : MyLinkedBlockingQueue α) :
    q.compacted.insertIndex = q.insertIndex := by
  unfold compacted; split <;> rfl

@[simp] lemma queueSize_pushed (q : MyLinkedBlockingQueue α) (e : Option α) :
    (q.pushed e).queueSize = q.queueSize := by simp [pushed, stored]

@[simp] lemma startIndex_pushed (q : MyLinkedBlockingQueue α) (e : Option α) :
    (q.pushed e).startIndex = q.startIndex := by simp [pushed, stored]

@[simp] lemma insertIndex_pushed (q : MyLinkedBlockingQueue α) (e : Option α) :
    (q.pushed e).insertIndex = q.insertIndex + 1 := by simp [pushed, stored]

lemma Valid.compacted (hq : q.Valid) : q.compacted.Valid where
  length_elements := by
    have := hq.start_le
    have := hq.insert_le
    have hlen := hq.length_elements
    unfold MyLinkedBlockingQueue.compacted
    split
    · exact hlen
    · rw [length_overlay (by omega) (by omega)]
      exact hlen
  start_le := by simpa using hq.start_le
  insert_le := by simpa using hq.insert_le

lemma Valid.pushed (hq : q.Valid) (h : q.insertIndex < q.queueSize) (e : Option α) :
    (q.pushed e).Valid := by
  have hstored : (q.stored e).Valid :=
    ⟨by simpa [stored] using hq.length_elements, Nat.le_succ_of_le hq.start_le, h⟩
  exact hstored.compacted

lemma Valid.popped (hq : q.Valid) (h : q.startIndex < q.insertIndex) : q.popped.Valid :=
  ⟨hq.length_elements, h, hq.insert_le⟩

lemma Valid.drained (hq : q.Valid) : q.drained.Valid :=
  ⟨hq.length_elements, le_rfl, hq.insert_le⟩

lemma Valid.withoutCell (hq : q.Valid) {k : ℕ} (hk : q.startIndex ≤ k) (hki : k < q.insertIndex)
    (h : q.insertIndex < q.queueSize) : (q.withoutCell k).Valid where
  length_elements := by
    have hlen := hq.length_elements
    rw [MyLinkedBlockingQueue.withoutCell, length_overlay (by omega) (by omega)]
    exact hlen
  start_le := Nat.le_sub_one_of_lt (hk.trans_lt hki)
  insert_le := (Nat.sub_le _ _).trans h.le

/-! ## What happens to the content -/

lemma content_stored (hq : q.Valid) (h : q.insertIndex < q.queueSize) (e : Option α) :
    (q.stored e).content = q.content ++ [e] := by
  have hcell : (q.elements.set q.insertIndex e)[q.insertIndex]? = some e := by
    rw [List.getElem?_set_self (by rw [hq.length_elements]; exact h)]
  rw [content, stored, window_snoc hq.start_le hcell, window_set_of_le le_rfl, content]

/-- The condition under which `addElement(element)` leaves the elements queued before alone.  It
only matters when the last cell is written, and then asks that the cells between the indices
repeat with period `startIndex` as far as `cleanArray` overwrites them. -/
def CompactsSafely (q : MyLinkedBlockingQueue α) (element : Option α) : Prop :=
  q.insertIndex + 1 = q.queueSize → ∀ j, q.startIndex ≤ j → j + q.startIndex < q.queueSize →
    (q.stored element).elements[j + q.startIndex]? = (q.stored element).elements[j]?

/-- A full queue has no last cell left to write. -/
lemma compactsSafely_of_full (h : ¬ q.insertIndex < q.queueSize) (e : Option α) :
    q.CompactsSafely e := fun heq => absurd heq (by omega)

/-- `addElement` appends its argument exactly when it compacts safely. -/
lemma content_pushed_iff (hq : q.Valid) (h : q.insertIndex < q.queueSize) (e : Option α) :
    (q.pushed e).content = q.content ++ [e] ↔ q.CompactsSafely e := by
  rw [← content_stored hq h e]
  by_cases hlast : q.insertIndex + 1 < q.queueSize
  · have hsame : q.pushed e = q.stored e := if_pos hlast
    simp only [hsame, true_iff]
    exact fun heq => absurd heq (by omega)
  · have heq : q.insertIndex + 1 = q.queueSize := by omega
    have hlen : (q.stored e).elements.length = q.queueSize := by
      simpa [stored] using hq.length_elements
    have hmove : q.pushed e = { q.stored e with
        elements := overlay (q.stored e).elements q.startIndex (q.stored e).elements 0
          ((q.stored e).elements.length - q.startIndex) } := by
      rw [hlen, ← heq]
      exact if_neg hlast
    rw [hmove]
    have hwin := window_overlay_front_iff (l := (q.stored e).elements) (s := q.startIndex)
      (by rw [hlen, ← heq]; exact Nat.le_succ_of_le hq.start_le)
    rw [hlen, ← heq] at hwin
    rw [hlen, ← heq]
    simp only [CompactsSafely, heq, true_implies]
    rw [← heq]
    exact hwin

/-- In any case a cell between the indices holds an element queued before, or the new one. -/
lemma mem_content_pushed (hq : q.Valid) (h : q.insertIndex < q.queueSize) {e x : Option α}
    (hx : x ∈ (q.pushed e).content) : x ∈ q.content ∨ x = e := by
  suffices hmem : x ∈ (q.stored e).content by
    rw [content_stored hq h e] at hmem
    simpa using hmem
  obtain ⟨k, hk, hki, hcell⟩ := mem_window.mp hx
  rw [startIndex_pushed] at hk
  rw [insertIndex_pushed] at hki
  have hstart := hq.start_le
  have hlen : (q.stored e).elements.length = q.queueSize := by
    simpa [stored] using hq.length_elements
  simp only [pushed, compacted] at hcell
  split at hcell
  · exact mem_window.mpr ⟨k, hk, hki, hcell⟩
  · have hins : (q.stored e).insertIndex = q.insertIndex + 1 := rfl
    have hst : (q.stored e).startIndex = q.startIndex := rfl
    rw [getElem?_overlay (by omega) (by omega)] at hcell
    split_ifs at hcell with hmoved
    · exact mem_window.mpr ⟨_, by omega, by omega, hcell⟩
    · exact mem_window.mpr ⟨k, hk, hki, hcell⟩

lemma isEmpty_eq_false (hq : q.Valid) {x : Option α} {rest : List (Option α)}
    (h : q.content = x :: rest) : q.isEmpty = false := by
  rw [← Bool.not_eq_true, isEmpty_iff_content hq, h]
  exact List.cons_ne_nil _ _

lemma start_lt_of_content (hq : q.Valid) {x : Option α} {rest : List (Option α)}
    (h : q.content = x :: rest) : q.startIndex < q.insertIndex := by
  have hlen := length_content hq
  rw [h, List.length_cons] at hlen
  omega

lemma content_eq_cons (hq : q.Valid) (h : q.startIndex < q.insertIndex) :
    ∃ x, q.elements[q.startIndex]? = some x ∧ q.content = x :: q.popped.content := by
  have hlt : q.startIndex < q.elements.length := by
    rw [hq.length_elements]; exact h.trans_le hq.insert_le
  exact ⟨_, List.getElem?_eq_getElem hlt, window_cons h (List.getElem?_eq_getElem hlt)⟩

/-- The cell at `startIndex` holds the first queued element. -/
lemma front_cell (hq : q.Valid) {x : Option α} {rest : List (Option α)}
    (h : q.content = x :: rest) : q.elements[q.startIndex]? = some x := by
  obtain ⟨y, hy, hcons⟩ := content_eq_cons hq (start_lt_of_content hq h)
  rw [h, List.cons.injEq] at hcons
  rw [hy, hcons.1]

lemma content_popped (hq : q.Valid) {x : Option α} {rest : List (Option α)}
    (h : q.content = x :: rest) : q.popped.content = rest := by
  obtain ⟨y, -, hcons⟩ := content_eq_cons hq (start_lt_of_content hq h)
  rw [h, List.cons.injEq] at hcons
  exact hcons.2.symm

@[simp] lemma content_drained (q : MyLinkedBlockingQueue α) : q.drained.content = [] :=
  window_self _ _

lemma content_withoutCell (hq : q.Valid) {k : ℕ} (hk : q.startIndex ≤ k)
    (hki : k < q.insertIndex) (h : q.insertIndex < q.queueSize) :
    (q.withoutCell k).content = q.content.eraseIdx (k - q.startIndex) :=
  window_overlay_eraseIdx hk hki (by omega) (by rw [hq.length_elements]; omega)

/-! ## What each method returns, and the fields it leaves -/

lemma cleanArray_run (hq : q.Valid) : cleanArray.run q = .ok () q.compacted := by
  have := hq.start_le
  have hins := hq.insert_le
  have hlen := hq.length_elements
  unfold cleanArray compacted
  by_cases h : q.insertIndex < q.queueSize
  · simp [h]
  · simp [h, arraycopy_run (show q.startIndex + (q.insertIndex - q.startIndex) ≤ q.elements.length
      by omega) (show 0 + (q.insertIndex - q.startIndex) ≤ q.elements.length by omega)]

lemma addElement_run (hq : q.Valid) (h : q.insertIndex < q.queueSize) (e : Option α) :
    (addElement e).run q = .ok () (q.pushed e) := by
  have hstored : (q.stored e).Valid :=
    ⟨by simpa [stored] using hq.length_elements, Nat.le_succ_of_le hq.start_le, h⟩
  have hstore := astore_run (show q.insertIndex < q.elements.length by
    rw [hq.length_elements]; exact h) e { q with insertIndex := q.insertIndex + 1 }
  simp only [addElement, EStateM.run_bind, EStateM.run_get, EStateM.run_set, hstore,
    EStateM.run_modify]
  exact cleanArray_run hstored

lemma offer_run (hq : q.Valid) (h : q.insertIndex < q.queueSize) (e : Option α) :
    (offer e).run q = .ok true (q.pushed e) := by
  simp [offer, hasPosition_iff.mpr h, map_run (addElement_run hq h e)]

lemma offer_run_full (h : ¬ q.insertIndex < q.queueSize) (e : Option α) :
    (offer e).run q = .ok false q := by
  have hpos : q.hasPosition = false := by simpa [hasPosition] using h
  simp [offer, hpos]

lemma add_run (hq : q.Valid) (h : q.insertIndex < q.queueSize) (e : Option α) :
    (add e).run q = .ok true (q.pushed e) := by
  simp [add, offer_run hq h]

lemma add_run_full (h : ¬ q.insertIndex < q.queueSize) (e : Option α) :
    (add e).run q = .error (.illegalStateException "Queue full") q := by
  simp [add, offer_run_full h]

lemma poll_run_nil (hq : q.Valid) (h : q.content = []) : poll.run q = .ok none q := by
  simp [poll, (isEmpty_iff_content hq).mpr h]

lemma poll_run_cons (hq : q.Valid) {x : Option α} {rest : List (Option α)}
    (h : q.content = x :: rest) : poll.run q = .ok x q.popped := by
  simp [poll, isEmpty_eq_false hq h, getElement, popped, aload_run (front_cell hq h)]

lemma remove_run_nil (hq : q.Valid) (h : q.content = []) :
    remove.run q = .error .noSuchElementException q := by
  simp [remove, (isEmpty_iff_content hq).mpr h]

lemma remove_run_cons (hq : q.Valid) {x : Option α} {rest : List (Option α)}
    (h : q.content = x :: rest) : remove.run q = .ok x q.popped := by
  simp [remove, isEmpty_eq_false hq h, poll_run_cons hq h]

lemma element_run_nil (hq : q.Valid) (h : q.content = []) :
    element.run q = .error .noSuchElementException q := by
  simp [element, (isEmpty_iff_content hq).mpr h]

lemma element_run_cons (hq : q.Valid) {x : Option α} {rest : List (Option α)}
    (h : q.content = x :: rest) : element.run q = .ok x q := by
  simp [element, isEmpty_eq_false hq h, aload_run (front_cell hq h)]

lemma peek_run_nil (hq : q.Valid) (h : q.content = []) : peek.run q = .ok none q := by
  simp [peek, (isEmpty_iff_content hq).mpr h]

lemma peek_run_cons (hq : q.Valid) {x : Option α} {rest : List (Option α)}
    (h : q.content = x :: rest) : peek.run q = .ok x q := by
  simp [peek, isEmpty_eq_false hq h, aload_run (front_cell hq h)]

lemma toArray_run (hq : q.Valid) : toArray.run q = .ok q.content q := by
  simp [toArray, content,
    copyOfRange_run hq.start_le (hq.length_elements ▸ hq.insert_le)]

/-! ### The loops -/

/-- Whether a non-null element is, or equals, the object `o`. -/
def matchesObject (o : Option (α → Bool)) (x : α) : Bool :=
  match o with
  | none => false
  | some eq => eq x

lemma sameOrEqual_run (o : Option (α → Bool)) (x : α) (q : MyLinkedBlockingQueue α) :
    (sameOrEqual (some x) o).run q = .ok (matchesObject o x) q := by
  cases o <;> rfl

lemma sameOrEqual_run_state (element : Option α) (o : Option (α → Bool))
    (q : MyLinkedBlockingQueue α) :
    (∃ b, (sameOrEqual element o).run q = .ok b q) ∨
      (sameOrEqual element o).run q = .error .nullPointerException q := by
  rcases element with _ | x
  · rcases o with _ | eq
    · exact .inl ⟨true, rfl⟩
    · exact .inr rfl
  · exact .inl ⟨_, sameOrEqual_run o x q⟩

/-- Of the cells from `i` up to `j`, the cell `k` is the last one whose element matches `o`. -/
structure LastMatch (q : MyLinkedBlockingQueue α) (o : Option (α → Bool)) (i j k : ℕ) : Prop where
  le : i ≤ k
  lt : k < j
  hit : ∃ x, q.elements[k]? = some (some x) ∧ matchesObject o x = true
  later : ∀ l x, k < l → l < j → q.elements[l]? = some (some x) → matchesObject o x = false

/-- Over cells that hold elements, the loop of `remove(Object)` ends with the last index whose
element matches, or with its start value when no element matches. -/
lemma findObject_run (o : Option (α → Bool)) (count index : ℕ) (objIndex : Option ℕ)
    (hcells : ∀ k, index ≤ k → k < index + count → ∃ x, q.elements[k]? = some (some x)) :
    ∃ r, (findObject o count index objIndex).run q = .ok r q ∧
      ((r = objIndex ∧ ∀ k x, index ≤ k → k < index + count → q.elements[k]? = some (some x) →
          matchesObject o x = false) ∨
        ∃ k, r = some k ∧ q.LastMatch o index (index + count) k) := by
  induction count generalizing index objIndex with
  | zero => exact ⟨objIndex, rfl, .inl ⟨rfl, fun k x h h' => by omega⟩⟩
  | succ count ih =>
      obtain ⟨x, hx⟩ := hcells index le_rfl (by omega)
      obtain ⟨r, hrun, hr⟩ := ih (index + 1) (if matchesObject o x then some index else objIndex)
        (fun k hk hlt => hcells k (by omega) (by omega))
      have hsum : index + 1 + count = index + (count + 1) := by omega
      rw [hsum] at hr
      refine ⟨r, ?_, ?_⟩
      · simpa [findObject, aload_run hx, sameOrEqual_run] using hrun
      rcases hr with ⟨rfl, hnone⟩ | ⟨k, rfl, hlast⟩
      · cases hm : matchesObject o x with
        | true => exact .inr ⟨index, by simp, le_rfl, by omega, ⟨x, hx, hm⟩, hnone⟩
        | false =>
            refine .inl ⟨by simp, fun k y hk hlt hy => ?_⟩
            rcases hk.eq_or_lt with rfl | hgt
            · obtain rfl : x = y := by simpa [hx] using hy
              exact hm
            · exact hnone k y hgt hlt hy
      · exact .inr ⟨k, rfl, Nat.le_of_succ_le hlast.le, hlast.lt, hlast.hit, hlast.later⟩

/-- A cell before `insertIndex` is in the array. -/
lemma exists_cell (hq : q.Valid) {index : ℕ} (h : index < q.insertIndex) :
    ∃ x, q.elements[index]? = some x := by
  have hlt : index < q.elements.length := by
    rw [hq.length_elements]
    exact h.trans_le hq.insert_le
  exact ⟨_, List.getElem?_eq_getElem hlt⟩

lemma drainFrom_accepting (hq : q.Valid) {fuel index : ℕ} (h : q.insertIndex ≤ index + fuel) :
    (drainFrom .accepting fuel index).run q = .ok (window q.elements index q.insertIndex) q := by
  have hnil : ∀ {i}, q.insertIndex ≤ i → window q.elements i q.insertIndex = [] := by
    intro i hi
    rw [window, Nat.sub_eq_zero_of_le hi, List.take_zero]
  induction fuel generalizing index with
  | zero =>
      rw [hnil (by omega)]
      rfl
  | succ fuel ih =>
      by_cases hin : index < q.insertIndex
      · obtain ⟨x, hx⟩ := exists_cell hq hin
        rw [window_cons hin hx]
        simp only [drainFrom, get_bind_run, if_pos hin, bind_of_run (aload_run hx q)]
        exact bind_of_run (ih (by omega)) _
      · simp [drainFrom, hin, hnil (not_lt.mp hin)]

lemma drainCount_accepting (hq : q.Valid) {count index : ℕ}
    (h : q.startIndex + index + count ≤ q.insertIndex) :
    (drainCount .accepting count index).run q =
      .ok (window q.elements (q.startIndex + index) (q.startIndex + index + count)) q := by
  induction count generalizing index with
  | zero =>
      rw [Nat.add_zero, window_self]
      rfl
  | succ count ih =>
      obtain ⟨x, hx⟩ := exists_cell hq (show q.startIndex + index < q.insertIndex by omega)
      have hend : q.startIndex + index + (count + 1) = q.startIndex + (index + 1) + count := by
        omega
      rw [window_cons (by omega) hx, hend]
      simp only [drainCount, get_bind_run, bind_of_run (aload_run hx q)]
      exact bind_of_run (ih (by omega)) _

lemma drainTo_run (hq : q.Valid) : drainTo.run q = .ok (q.size, q.content) q.drained := by
  unfold drainTo drainInto
  rw [get_bind_run]
  cases hempty : q.isEmpty with
  | true =>
      have hnil := (isEmpty_iff_content hq).mp hempty
      rw [isEmpty, beq_iff_eq] at hempty
      have hsame : q.drained = q := congrArg (fun i => { q with startIndex := i }) hempty.symm
      have hsize : q.size = 0 := by simp [size, hempty]
      rw [hsame, hsize, hnil]
      rfl
  | false =>
      simp only [Bool.false_eq_true, if_false]
      exact bind_of_run (drainFrom_accepting hq (hq.insert_le.trans (Nat.le_add_left _ _))) _

/-- `drainTo(c, maxElements)` hands out copies: the queue keeps all its elements. -/
lemma drainToMax_run_nil (h : q.isEmpty = true) (maxElements : ℤ) :
    (drainToMax maxElements).run q = .ok (0, []) q := by
  simp [drainToMax, drainIntoMax, h]

lemma drainToMax_run_nonempty (hq : q.Valid) (h : q.isEmpty = false) (maxElements : ℤ) :
    (drainToMax maxElements).run q =
      .ok (min q.size maxElements, q.content.take (min q.size maxElements).toNat) q := by
  have hle : q.startIndex + (min q.size maxElements).toNat ≤ q.insertIndex := by
    have hstart := hq.start_le
    have hsize : q.size = q.insertIndex - q.startIndex := rfl
    omega
  have hrun := drainCount_accepting hq (show q.startIndex + 0 + _ ≤ q.insertIndex from hle)
  rw [content, window_take hle]
  simp only [drainToMax, drainIntoMax, get_bind_run, h, Bool.false_eq_true, if_false]
  exact bind_of_run hrun _

lemma drainToMax_run (hq : q.Valid) (maxElements : ℤ) :
    ∃ r, (drainToMax maxElements).run q = .ok r q := by
  cases h : q.isEmpty with
  | true => exact ⟨_, drainToMax_run_nil h maxElements⟩
  | false => exact ⟨_, drainToMax_run_nonempty hq h maxElements⟩

lemma containsFrom_run_state (o : Option (α → Bool)) (cells : List (Option α)) :
    (∃ b, (containsFrom o cells).run q = .ok b q) ∨
      (containsFrom o cells).run q = .error .nullPointerException q := by
  induction cells with
  | nil => exact .inl ⟨false, rfl⟩
  | cons cell rest ih =>
      rcases sameOrEqual_run_state cell o q with ⟨b, hb⟩ | herr
      · cases b with
        | true => exact .inl ⟨true, by simp [containsFrom, hb]⟩
        | false => simpa [containsFrom, hb] using ih
      · exact .inr (by simp [containsFrom, herr])

lemma exists_cell_of_nonNull (hq : q.Valid) (hnn : q.NonNull) {k : ℕ} (hk : q.startIndex ≤ k)
    (hki : k < q.insertIndex) : ∃ x, q.elements[k]? = some (some x) := by
  have hlt : k < q.elements.length := by
    rw [hq.length_elements]; exact hki.trans_le hq.insert_le
  have hmem : q.elements[k] ∈ q.content :=
    mem_window.mpr ⟨k, hk, hki, List.getElem?_eq_getElem hlt⟩
  obtain ⟨x, hx⟩ := Option.ne_none_iff_exists'.mp (hnn _ hmem)
  exact ⟨x, by rw [List.getElem?_eq_getElem hlt, hx]⟩

/-- Some queued element is, or equals, the object `o`. -/
def HasMatch (q : MyLinkedBlockingQueue α) (o : Option (α → Bool)) : Prop :=
  ∃ x, some x ∈ q.content ∧ matchesObject o x = true

lemma removeObject_run_absent (hq : q.Valid) (hnn : q.NonNull) {o : Option (α → Bool)}
    (h : ¬ q.HasMatch o) : (removeObject o).run q = .ok false q := by
  obtain ⟨r, hrun, ⟨rfl, -⟩ | ⟨k, -, hlast⟩⟩ := findObject_run (q := q) o
    (q.insertIndex - q.startIndex) q.startIndex none
    (fun k hk hlt => exists_cell_of_nonNull hq hnn hk (by omega))
  · simp [removeObject, hrun]
  · rw [Nat.add_sub_cancel' hq.start_le] at hlast
    obtain ⟨x, hx, hm⟩ := hlast.hit
    exact absurd ⟨x, mem_window.mpr ⟨k, hlast.le, hlast.lt, hx⟩, hm⟩ h

lemma findObject_run_of_hasMatch (hq : q.Valid) (hnn : q.NonNull) {o : Option (α → Bool)}
    (h : q.HasMatch o) :
    ∃ k, q.LastMatch o q.startIndex q.insertIndex k ∧
      (findObject o (q.insertIndex - q.startIndex) q.startIndex none).run q = .ok (some k) q := by
  obtain ⟨r, hrun, ⟨-, hnone⟩ | ⟨k, rfl, hlast⟩⟩ := findObject_run (q := q) o
    (q.insertIndex - q.startIndex) q.startIndex none
    (fun k hk hlt => exists_cell_of_nonNull hq hnn hk (by omega))
  · obtain ⟨x, hx, hm⟩ := h
    obtain ⟨k, hk, hki, hcell⟩ := mem_window.mp hx
    rw [hnone k x hk (by omega) hcell] at hm
    cases hm
  · rw [Nat.add_sub_cancel' hq.start_le] at hlast
    exact ⟨k, hlast, hrun⟩

/-- `remove(Object)` takes out the last matching element. -/
lemma removeObject_run (hq : q.Valid) (hnn : q.NonNull) {o : Option (α → Bool)}
    (h : q.HasMatch o) (hroom : q.insertIndex < q.queueSize) :
    ∃ k, q.LastMatch o q.startIndex q.insertIndex k ∧
      (removeObject o).run q = .ok true (q.withoutCell k) := by
  obtain ⟨k, hlast, hrun⟩ := findObject_run_of_hasMatch hq hnn h
  have hlt := hlast.lt
  have hlen := hq.length_elements
  have hcopy := fun s : MyLinkedBlockingQueue α => arraycopy_run
    (show k + 1 + (q.insertIndex - k) ≤ q.elements.length by omega)
    (show k + (q.insertIndex - k) ≤ q.elements.length by omega) s
  exact ⟨k, hlast, by simp [removeObject, hrun, hcopy, withoutCell]⟩

/-- Once the array has been filled to its end, the copy that closes the gap reads one cell too
far: a matching element makes `remove(Object)` throw, with the queue unchanged. -/
lemma removeObject_run_full (hq : q.Valid) (hnn : q.NonNull) {o : Option (α → Bool)}
    (h : q.HasMatch o) (hfull : q.insertIndex = q.queueSize) :
    (removeObject o).run q = .error .arrayIndexOutOfBoundsException q := by
  obtain ⟨k, hlast, hrun⟩ := findObject_run_of_hasMatch hq hnn h
  have hki := hlast.lt
  have hlen := hq.length_elements
  have hcopy := fun s : MyLinkedBlockingQueue α =>
    arraycopy_run_error q.elements k
      (show q.elements.length < k + 1 + (q.insertIndex - k) by omega) s
  simp [removeObject, hrun, hcopy]

end MyLinkedBlockingQueue

end LearnJava
