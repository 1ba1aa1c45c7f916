import LearnJava.Java.Lang
import LearnJava.Java.Text

/-!
# `ExternalizableObj`

The object of `data/ExternalizableObj.java` writes its fields to an object stream one after the
other and reads them back in the same order.  Its `ReplaceAndResolveClass` is written as the string
that `writeReplace` returns for it, and `readExternal` puts whatever string it reads into a new one:
also the `null` that stood for no `ReplaceAndResolveClass` at all.
-/

namespace LearnJava

/-! ## Object streams -/

/-- What is in a stream: an `int`, or an object, which for these classes is a string or `null`. -/
inductive StreamItem
  | int (n : ℤ)
  | object (s : Option Text)
  deriving DecidableEq, Repr

/-- The items of a stream: those written so far, or those still to be read. -/
abbrev ObjectStream := List StreamItem

namespace ObjectStream

/-- `out.writeInt(n)` -/
def writeInt (n : ℤ) : Method ObjectStream PUnit := modify fun out => out ++ [.int n]

/-- `out.writeObject(s)` for a string. -/
def writeObject (s : Option Text) : Method ObjectStream PUnit :=
  modify fun out => out ++ [.object s]

/-- `in.readInt()` -/
def readInt : Method ObjectStream ℤ := do
  match ← get with
  | .int n :: rest =>
    set rest
    return n
  | _ => throw (.ioException "EOFException")

/-- `(String) in.readObject()` -/
def readObject : Method ObjectStream (Option Text) := do
  match ← get with
  | .object s :: rest =>
    set rest
    return s
  | _ => throw (.ioException "OptionalDataException")

lemma readInt_run (n : ℤ) (rest : ObjectStream) :
    readInt.run (.int n :: rest) = .ok n rest := rfl

lemma readObject_run (s : Option Text) (rest : ObjectStream) :
    readObject.run (.object s :: rest) = .ok s rest := rfl

end ObjectStream

open ObjectStream

/-! ## The classes -/

/-- `ReplaceAndResolveClass` -/
structure ReplaceAndResolveClass where
  info : Option Text
  deriving DecidableEq, Repr

/-- `writeReplace()` -/
def ReplaceAndResolveClass.writeReplace (r : ReplaceAndResolveClass) : Option Text := r.info

/-- `ExternalizableObj` -/
structure ExternalizableObj where
  name : Option Text
  age : ℤ
  replaceAndResolveClass : Option ReplaceAndResolveClass
  own : Option (List (Option Text))
  deriving DecidableEq, Repr

namespace ExternalizableObj

/-- `new ExternalizableObj(name, age, replaceAndResolveClass, owns)` -/
def new (name : Option Text) (age : ℤ) (replaceAndResolveClass : Option ReplaceAndResolveClass)
    (owns : List (Option Text)) : ExternalizableObj :=
  ⟨name, age, replaceAndResolveClass, some owns⟩

/-- The loop of `writeExternal`. -/
def writeOwn : List (Option Text) → Method ObjectStream PUnit
  | [] => pure ⟨⟩
  | ownStr :: own => do
    writeObject ownStr
    writeOwn own

/-- `writeExternal(out)`: for an object, `writeObject` writes what its `writeReplace` returns. -/
def writeExternal (o : ExternalizableObj) : Method ObjectStream PUnit := do
  writeObject o.name
  writeInt o.age
  writeObject (o.replaceAndResolveClass.bind ReplaceAndResolveClass.writeReplace)
  let own ← ofExcept (deref o.own)
  writeInt own.length
  writeOwn own

/-- The loop of `readExternal`. -/
def readOwn : ℕ → Method ObjectStream (List (Option Text))
  | 0 => return []
  | size + 1 => do
    let ownStr ← readObject
    let own ← readOwn size
    return ownStr :: own

/-- `readExternal(in)`, which sets all the fields. -/
def readExternal : Method ObjectStream ExternalizableObj := do
  let name ← readObject
  let age ← readInt
  let replaceAndResolveClass : ReplaceAndResolveClass := ⟨← readObject⟩
  let size ← readInt
  if size < 0 then throw .illegalArgumentException
  let own ← readOwn size.toNat
  return ⟨name, age, some replaceAndResolveClass, some own⟩

/-- What `writeExternal` writes is what `readExternal` makes of it. -/
def roundTrip (o : ExternalizableObj) : Except Throwable ExternalizableObj :=
  match (writeExternal o).run [] with
  | .error e _ => .error e
  | .ok _ written =>
    match readExternal.run written with
    | .error e _ => .error e
    | .ok o' _ => .ok o'

/-! ## What comes back -/

section RoundTrip

variable (out rest : ObjectStream) (own : List (Option Text))

lemma writeOwn_run : (writeOwn own).run out = .ok ⟨⟩ (out ++ own.map .object) := by
  induction own generalizing out with
  | nil => simp [writeOwn]
  | cons ownStr own ih =>
      rw [writeOwn, writeObject, modify_bind_run, ih]
      simp

lemma readOwn_run : (readOwn own.length).run (own.map .object ++ rest) = .ok own rest := by
  induction own with
  | nil => rfl
  | cons ownStr own ih =>
      rw [List.length_cons, readOwn, List.map_cons, List.cons_append,
        bind_of_run (readObject_run _ _), bind_of_run ih]
      rfl

/-- The items of an object with a list. -/
lemma writeExternal_run (name : Option Text) (age : ℤ) (r : Option ReplaceAndResolveClass) :
    (writeExternal (new name age r own)).run [] =
      .ok ⟨⟩ ([.object name, .int age, .object (r.bind ReplaceAndResolveClass.writeReplace),
        .int own.length] ++ own.map .object) := by
  have hown : deref (new name age r own).own = .ok own := rfl
  rw [writeExternal, writeObject, writeInt, writeObject, modify_bind_run, modify_bind_run,
    modify_bind_run, bind_of_run (ofExcept_run_ok hown _), writeInt, modify_bind_run, writeOwn_run]
  rfl

lemma readExternal_run (name : Option Text) (age : ℤ) (info : Option Text) :
    readExternal.run ([.object name, .int age, .object info, .int own.length] ++
      own.map .object ++ rest) = .ok (new name age (some ⟨info⟩) own) rest := by
  have hsize : ¬(own.length : ℤ) < 0 := (Int.natCast_nonneg _).not_gt
  rw [readExternal, List.append_assoc]
  simp only [List.cons_append, List.nil_append]
  rw [bind_of_run (readObject_run _ _), bind_of_run (readInt_run _ _),
    bind_of_run (readObject_run _ _), bind_of_run (readInt_run _ _), if_neg hsize,
    Int.toNat_natCast, bind_of_run (readOwn_run rest own)]
  rfl

end RoundTrip

/-- Everything comes back, but a `ReplaceAndResolveClass` that is `null` comes back as one whose
`info` is. -/
lemma roundTrip_new (name : Option Text) (age : ℤ) (r : Option ReplaceAndResolveClass)
    (owns : List (Option Text)) :
    roundTrip (new name age r owns) =
      .ok (new name age (some ⟨r.bind ReplaceAndResolveClass.writeReplace⟩) owns) := by
  have hread := readExternal_run [] owns name age (r.bind ReplaceAndResolveClass.writeReplace)
  rw [List.append_nil] at hread
  rw [roundTrip, writeExternal_run]
  simp only [hread]

/-- An object is restored exactly when its `ReplaceAndResolveClass` is not `null`. -/
theorem restored_iff (name : Option Text) (age : ℤ) (r : Option ReplaceAndResolveClass)
    (owns : List (Option Text)) :
    roundTrip (new name age r owns) = .ok (new name age r owns) ↔ r ≠ none := by
  rw [roundTrip_new, Except.ok.injEq]
  cases r with
  | none => simp [new]
  | some r => simp [ReplaceAndResolveClass.writeReplace]

theorem null_not_restored :
    roundTrip (new (some (text "Matcha")) 23 none []) =
        .ok (new (some (text "Matcha")) 23 (some ⟨none⟩) []) ∧
      roundTrip (new (some (text "Matcha")) 23 none []) ≠
        .ok (new (some (text "Matcha")) 23 none []) := by
  decide

end ExternalizableObj

end LearnJava
