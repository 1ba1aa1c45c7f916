import LearnJava.Externalizable.ExternalizableObj
import LearnJava.Foundation.Calls

/-!
# `SubNormalSerializable`

The object of `data/SubNormalSerializable.java`: a deque that elements are added to and popped from,
with a copy of what has been popped.  `serialPersistentFields` says which of its own fields are
serialized; the others have their default value in the object that is read.  Of its superclass all
fields are written but the transient one, and an `OtherNormalSerializable` writes one of its two.

Elements are added and popped as by a queue, wherever the object is serialized and read back
(`popped_then_queued`); the two indices are lost, and only the two containers carry the queue.
-/

namespace LearnJava

/-- `OtherNormalSerializable` -/
structure OtherNormalSerializable where
  info : Option Text
  own : Option (List (Option Text))
  deriving DecidableEq, Repr

namespace OtherNormalSerializable

/-- `writeObject(objectOutputStream)`: the one object it writes. -/
def writeObject (o : OtherNormalSerializable) : Option (List (Option Text)) := o.own

/-- `readObject(objectInputStream)`, for a new object with default values. -/
def readObject (own : Option (List (Option Text))) : OtherNormalSerializable := ⟨none, own⟩

end OtherNormalSerializable

/-- The fields of `NormalSerializable`. -/
structure NormalSerializable where
  name : Option Text
  age : ℤ
  own : Option (List (Option Text))
  noSerialInfo : Option Text
  externalizableObj : Option ExternalizableObj
  deriving DecidableEq, Repr

/-- `new NormalSerializable(name, noSerialInfo, age, externalizableObj, owns)` -/
def NormalSerializable.new (name noSerialInfo : Option Text) (age : ℤ)
    (externalizableObj : Option ExternalizableObj) (owns : List (Option Text)) :
    NormalSerializable :=
  ⟨name, age, some owns, noSerialInfo, externalizableObj⟩

/-- What is read of the superclass where an object was written. -/
def NormalSerializable.roundTrip (n : NormalSerializable) :
    Except Throwable NormalSerializable := do
  let externalizableObj ← n.externalizableObj.mapM ExternalizableObj.roundTrip
  return { n with noSerialInfo := none, externalizableObj }

/-- The fields of `SubNormalSerializable`. -/
structure SubNormalSerializable where
  superFields : NormalSerializable
  startIndex : ℤ
  endIndex : ℤ
  deque : Option (List Text)
  popCopy : Option (List (Option Text))
  otherNormalSerializable : Option OtherNormalSerializable
  deriving DecidableEq, Repr

namespace SubNormalSerializable

/-- `new SubNormalSerializable(name, noSerialInfo, age, externalizableObj, otherNormalSerializable,
owns)` -/
def new (name noSerialInfo : Option Text) (age : ℤ) (externalizableObj : Option ExternalizableObj)
    (otherNormalSerializable : Option OtherNormalSerializable) (owns : List (Option Text)) :
    SubNormalSerializable :=
  ⟨.new name noSerialInfo age externalizableObj owns, 0, 0, some [], some [],
    otherNormalSerializable⟩

/-! ## The methods -/

/-- `this.deque.offerLast(ele)` -/
def offerLast (ele : Option Text) : Method SubNormalSerializable Bool := do
  let deque ← ofExcept (deref (← get).deque)
  let e ← ofExcept (deref ele)
  modify fun s => { s with deque := some (deque ++ [e]) }
  return true

/-- `add(ele)`: the `if` ends at its semicolon. -/
def add (ele : Option Text) : Method SubNormalSerializable PUnit := do
  let _ ← offerLast ele
  modify fun s => { s with endIndex := wrap32 (s.endIndex + 1) }

/-- `this.deque.pollFirst()` -/
def pollFirst : Method SubNormalSerializable (Option Text) := do
  match ← ofExcept (deref (← get).deque) with
  | [] => return none
  | e :: deque =>
    modify fun s => { s with deque := some deque }
    return some e

/-- `pop()` -/
def pop : Method SubNormalSerializable (Option Text) := do
  match ← pollFirst with
  | none => return none
  | some popEle =>
    let popCopy ← ofExcept (deref (← get).popCopy)
    let copy ← copyOf popCopy (popCopy.length + 1)
    let copy ← astore copy (copy.length - 1) (some popEle)
    modify fun s => { s with popCopy := some copy, startIndex := wrap32 (s.startIndex + 1) }
    return some popEle

/-! ## Serialization -/

/-- The fields of the class, by name. -/
inductive Field
  | startIndex
  | endIndex
  | deque
  | popCopy
  | otherNormalSerializable
  deriving DecidableEq, Repr

/-- `serialPersistentFields` -/
def serialPersistentFields : List Field := [.deque, .popCopy, .otherNormalSerializable]

/-- What is written of a field. -/
inductive FieldValue
  | int (n : ℤ)
  | deque (elements : Option (List Text))
  | strings (cells : Option (List (Option Text)))
  | other (written : Option (Option (List (Option Text))))
  deriving DecidableEq, Repr

/-- Write a field. -/
def writeField (s : SubNormalSerializable) : Field → FieldValue
  | .startIndex => .int s.startIndex
  | .endIndex => .int s.endIndex
  | .deque => .deque s.deque
  | .popCopy => .strings s.popCopy
  | .otherNormalSerializable =>
    .other (s.otherNormalSerializable.map OtherNormalSerializable.writeObject)

/-- Read a field; a value of another type than the field's is not read. -/
def readField (s : SubNormalSerializable) : Field × FieldValue → SubNormalSerializable
  | (.startIndex, .int n) => { s with startIndex := n }
  | (.endIndex, .int n) => { s with endIndex := n }
  | (.deque, .deque deque) => { s with deque }
  | (.popCopy, .strings popCopy) => { s with popCopy }
  | (.otherNormalSerializable, .other written) =>
    { s with otherNormalSerializable := written.map OtherNormalSerializable.readObject }
  | _ => s

/-- The object before its fields are read. -/
def defaults (superFields : NormalSerializable) : SubNormalSerializable :=
  ⟨superFields, 0, 0, none, none, none⟩

/-- `readSerializable` of what was written of the object. -/
def roundTrip (s : SubNormalSerializable) : Except Throwable SubNormalSerializable := do
  let superFields ← s.superFields.roundTrip
  let written := serialPersistentFields.map fun field => (field, s.writeField field)
  return written.foldl readField (defaults superFields)

/-! ## Calls -/

/-- A call of one of the methods, or the object is serialized and replaced by the one read back. -/
inductive Call
  | add (ele : Text)
  | pop
  | roundTrip
  deriving DecidableEq, Repr

/-- What comes of it. -/
inductive Reply
  | void
  | element (popEle : Option Text)
  | thrown (e : Throwable)
  deriving DecidableEq, Repr

/-- The reply and the fields that a method ends with. -/
def reply {β : Type} (f : β → Reply) :
    EStateM.Result Throwable SubNormalSerializable β → Reply × SubNormalSerializable
  | .ok r s => (f r, s)
  | .error e s => (.thrown e, s)

/-- Make a call.  An object that cannot be serialized is kept. -/
def call (s : SubNormalSerializable) : Call → Reply × SubNormalSerializable
  | .add ele => reply (fun _ => .void) ((add (some ele)).run s)
  | .pop => reply .element (pop.run s)
  | .roundTrip =>
    match s.roundTrip with
    | .ok s' => (.void, s')
    | .error e => (.thrown e, s)

/-- The element that a call adds. -/
def Call.added : Call → Option Text
  | .add ele => some ele
  | _ => none

/-- The element that is popped, by the reply. -/
def Reply.popped : Reply → Option Text
  | .element popEle => popEle
  | _ => none

/-- The elements ever added, and those that the pops have returned. -/
def added (calls : List Call) : List Text := calls.filterMap Call.added

def popped (replies : List Reply) : List Text := replies.filterMap Reply.popped

@[simp] lemma added_singleton (c : Call) : added [c] = c.added.toList := by
  cases c <;> rfl

@[simp] lemma popped_singleton (r : Reply) : popped [r] = r.popped.toList := by
  cases r with
  | element popEle => cases popEle <;> rfl
  | _ => rfl

lemma added_cons (c : Call) (calls : List Call) :
    added (c :: calls) = added [c] ++ added calls := by
  rw [← List.singleton_append, added, List.filterMap_append]
  rfl

lemma popped_cons (r : Reply) (replies : List Reply) :
    popped (r :: replies) = popped [r] ++ popped replies := by
  rw [← List.singleton_append, popped, List.filterMap_append]
  rfl

/-! ## The two containers -/

/-- The containers hold the elements `xs`, which have been popped, and `ys`, which have not. -/
structure Holds (s : SubNormalSerializable) (xs ys : List Text) : Prop where
  popCopy : s.popCopy = some (xs.map some)
  deque : s.deque = some ys

variable {s : SubNormalSerializable} {xs ys : List Text}

lemma holds_new (name noSerialInfo : Option Text) (age : ℤ)
    (externalizableObj : Option ExternalizableObj)
    (otherNormalSerializable : Option OtherNormalSerializable) (owns : List (Option Text)) :
    Holds (new name noSerialInfo age externalizableObj otherNormalSerializable owns) [] [] :=
  ⟨rfl, rfl⟩

lemma add_run_eq (hs : Holds s xs ys) (ele : Text) :
    (add (some ele)).run s = .ok ⟨⟩ { s with
      deque := some (ys ++ [ele]), endIndex := wrap32 (s.endIndex + 1) } := by
  have hdeque : deref s.deque = .ok ys := by rw [hs.deque]; rfl
  have hele : deref (some ele) = .ok ele := rfl
  have hoffer : (offerLast (some ele)).run s = .ok true { s with deque := some (ys ++ [ele]) } := by
    rw [offerLast, get_bind_run, bind_of_run (ofExcept_run_ok hdeque s),
      bind_of_run (ofExcept_run_ok hele s), modify_bind_run]
    rfl
  exact bind_of_run hoffer _

lemma add_run (hs : Holds s xs ys) (ele : Text) :
    ∃ s', (add (some ele)).run s = .ok ⟨⟩ s' ∧ Holds s' xs (ys ++ [ele]) :=
  ⟨_, add_run_eq hs ele, hs.popCopy, rfl⟩

lemma pop_run_nil (hs : Holds s xs []) : pop.run s = .ok none s := by
  have hdeque : deref s.deque = .ok [] := by rw [hs.deque]; rfl
  have hpoll : pollFirst.run s = .ok none s := by
    rw [pollFirst, get_bind_run, bind_of_run (ofExcept_run_ok hdeque s)]
    rfl
  exact bind_of_run hpoll _

lemma pop_run_eq {y : Text} (hs : Holds s xs (y :: ys)) :
    pop.run s = .ok (some y) { s with
      deque := some ys
      popCopy := some ((xs ++ [y]).map some)
      startIndex := wrap32 (s.startIndex + 1) } := by
  have hdeque : deref s.deque = .ok (y :: ys) := by rw [hs.deque]; rfl
  have hpoll : pollFirst.run s = .ok (some y) { s with deque := some ys } := by
    rw [pollFirst, get_bind_run, bind_of_run (ofExcept_run_ok hdeque s)]
    rfl
  have hpopCopy : deref s.popCopy = .ok (xs.map some) := by rw [hs.popCopy]; rfl
  -- the new cell of the copy is the last one
  have hcopy : ∀ s' : SubNormalSerializable,
      (copyOf (xs.map some) ((xs.map some).length + 1)).run s' =
        .ok (xs.map some ++ [none]) s' := by
    intro s'
    have hrun := copyOf_run (xs.map some) ((xs.map some).length + 1) s'
    rwa [List.take_of_length_le (Nat.le_succ _), Nat.add_sub_cancel_left, List.replicate_one,
      Nat.cast_succ] at hrun
  have hcell : (xs.map some ++ [none]).length - 1 = xs.length := by simp
  have hstore : (xs.map some ++ [none]).set xs.length (some y) = (xs ++ [y]).map some := by
    rw [List.set_append_right _ _ (by simp)]
    simp
  rw [pop, bind_of_run hpoll]
  simp only [get_bind_run]
  rw [bind_of_run (ofExcept_run_ok hpopCopy _), bind_of_run (hcopy _), hcell,
    bind_of_run (astore_run (by simp) _ _), hstore, modify_bind_run]
  rfl

lemma pop_run_cons {y : Text} (hs : Holds s xs (y :: ys)) :
    ∃ s', pop.run s = .ok (some y) s' ∧ Holds s' (xs ++ [y]) ys :=
  ⟨_, pop_run_eq hs, rfl, rfl⟩

/-- `serialPersistentFields` lists both containers. -/
lemma roundTrip_holds {s' : SubNormalSerializable} (hs : Holds s xs ys)
    (h : s.roundTrip = .ok s') : Holds s' xs ys := by
  unfold roundTrip at h
  cases hsuper : s.superFields.roundTrip with
  | error e =>
      rw [hsuper] at h
      cases h
  | ok superFields =>
      rw [hsuper] at h
      obtain rfl := Except.ok.inj h
      exact ⟨hs.popCopy, hs.deque⟩

/-! ## Sequences of calls -/

/-- **One call** adds its element at the end, or pops the first one, or leaves both containers. -/
lemma call_holds (hs : Holds s xs ys) (c : Call) :
    ∃ ys', Holds (call s c).2 (xs ++ popped [(call s c).1]) ys' ∧
      popped [(call s c).1] ++ ys' = ys ++ added [c] := by
  cases c with
  | add ele =>
      obtain ⟨s', hrun, hs'⟩ := add_run hs ele
      rw [call, hrun]
      exact ⟨ys ++ [ele], by simpa [reply, Reply.popped] using hs', rfl⟩
  | pop =>
      cases ys with
      | nil =>
          rw [call, pop_run_nil hs]
          exact ⟨[], by simpa [reply, Reply.popped] using hs, rfl⟩
      | cons y ys =>
          obtain ⟨s', hrun, hs'⟩ := pop_run_cons hs
          rw [call, hrun]
          exact ⟨ys, hs', by simp [reply, Reply.popped, Call.added]⟩
  | roundTrip =>
      rw [call]
      cases hr : s.roundTrip with
      | ok s' =>
          refine ⟨ys, ?_, by simp [Reply.popped, Call.added]⟩
          simpa [Reply.popped] using roundTrip_holds hs hr
      | error e =>
          refine ⟨ys, ?_, by simp [Reply.popped, Call.added]⟩
          simpa [Reply.popped] using hs

/-- A sequence of calls pops what the containers hold, and then what is added. -/
lemma calls_hold (hs : Holds s xs ys) (calls : List Call) :
    ∃ ys', Holds (Calls.final call s calls) (xs ++ popped (Calls.replies call s calls)) ys' ∧
      popped (Calls.replies call s calls) ++ ys' = ys ++ added calls := by
  induction calls generalizing s xs ys with
  | nil =>
      refine ⟨ys, ?_, by simp [Calls.replies, popped, added]⟩
      simpa [Calls.final, Calls.replies, popped] using hs
  | cons c calls ih =>
      obtain ⟨ys₁, hs₁, hone⟩ := call_holds hs c
      obtain ⟨ys', hs', hrest⟩ := ih hs₁
      rw [Calls.final, Calls.replies, popped_cons, added_cons, ← List.append_assoc]
      refine ⟨ys', hs', ?_⟩
      rw [List.append_assoc, hrest, ← List.append_assoc, hone, List.append_assoc]

/-- In every sequence of calls, with the object serialized and read back anywhere, `popCopy` and the
deque after it hold what was ever added, in this order, and the pops return it in this order. -/
theorem popped_then_queued (name noSerialInfo : Option Text) (age : ℤ)
    (externalizableObj : Option ExternalizableObj)
    (otherNormalSerializable : Option OtherNormalSerializable) (owns : List (Option Text))
    (calls : List Call) :
    let s := new name noSerialInfo age externalizableObj otherNormalSerializable owns
    ∃ popCopy deque, (Calls.final call s calls).popCopy = some popCopy ∧
      (Calls.final call s calls).deque = some deque ∧
      popCopy ++ deque.map some = (added calls).map some ∧
      ∀ k < (popped (Calls.replies call s calls)).length,
        (popped (Calls.replies call s calls))[k]? = (added calls)[k]? := by
  intro s
  obtain ⟨deque, hs, hall⟩ := calls_hold (holds_new name noSerialInfo age externalizableObj
    otherNormalSerializable owns) calls
  refine ⟨_, deque, hs.popCopy, hs.deque, ?_, ?_⟩
  · rw [← List.map_append, List.nil_append, hall, List.nil_append]
  · intro k hk
    rw [List.nil_append] at hall
    rw [← hall, List.getElem?_append_left hk]

end SubNormalSerializable

end LearnJava
