import LearnJava.Foundation.Calls
import LearnJava.Foundation.Guarantee
import LearnJava.Java.ByteBuffer
import LearnJava.Java.Text

/-!
# `OwnClassLoader`

`classloader/OwnClassLoader.java` defines the classes whose files it finds under its base path, and
leaves the others to its parent.  Unlike `ClassLoader.loadClass` it does not ask first whether it
has loaded the class before: a class that it has already defined is defined once more, which the
virtual machine refuses.

The virtual machine itself calls `loadClass` for the superclass and the interfaces of a class that
is being defined, and for what a class refers to when it is linked.  It does so only for names
that it has no class of this loader for.  Which names these are, what the parent does and which
classes can be linked is left open, but for the fact that the class files and the parent's answers
do not change.
-/

namespace LearnJava

/-- What is at the path of a class file. -/
inductive ClassFile
  | invalidPath
  | missing
  | unreadable (message : String)
  | bytes (classBytes : List Byte)

/-- A class that a loader returns: the one that it has itself defined as its `index`-th, or one of
its parent's. -/
inductive LoadedClass (π : Type)
  | own (name : Text) (index : ℕ)
  | parents (c : π)
  deriving DecidableEq

/-- What a loader finds around it. -/
structure Surroundings (π : Type) where
  /-- What is at a path, from the base path on. -/
  classFile : Text → ClassFile
  /-- The class that the parent loads, if it finds one. -/
  parent : Text → Except String (Option π)
  /-- The checks of `defineClass`, and the names of the superclass and the interfaces. -/
  supertypes : Text → List Byte → Except String (List Text)
  /-- The names that a class refers to when it is linked. -/
  references : Text → List Text
  link : LoadedClass π → Except String PUnit

/-- A `loadClass` that has ended: the class that there was for the name when it began, and what it
returned or threw. -/
structure Load (π : Type) where
  name : Text
  earlier : Option (LoadedClass π)
  result : Except Throwable (LoadedClass π)

/-- A load returns the class that there already was for the name. -/
def Load.Same {π : Type} (l : Load π) : Prop := ∀ c, l.earlier = some c → l.result = .ok c

/-- An `OwnClassLoader` and what the virtual machine knows of it: the names of the classes it has
defined, the class of each name that it has been recorded as an initiating loader of, and its
loads. -/
structure OwnClassLoader (π : Type) where
  classes : List Text
  initiated : Text → Option (LoadedClass π)
  loads : List (Load π)

namespace OwnClassLoader

variable {π : Type}

/-- `new OwnClassLoader(parent)` -/
def new : OwnClassLoader π := ⟨[], fun _ => none, []⟩

/-- The virtual machine records the loader as an initiating loader. -/
def record (s : OwnClassLoader π) (name : Text) (c : LoadedClass π) : OwnClassLoader π :=
  { s with initiated := Function.update s.initiated name (some c) }

/-- The loader has defined a class. -/
def define (s : OwnClassLoader π) (name : Text) : OwnClassLoader π :=
  { s.record name (.own name s.classes.length) with classes := s.classes ++ [name] }

/-- The class that there already is for a name: the loader has defined it, or a load has returned
it. -/
def earlier (s : OwnClassLoader π) (name : Text) : Option (LoadedClass π) :=
  if name ∈ s.classes then some (.own name (s.classes.idxOf name))
  else s.loads.findSome? fun l => if l.name = name then l.result.toOption else none

/-- `name.replace('.', '/') + ".class"` -/
def path (name : Text) : Text := replaceChar '.' '/' name ++ text ".class"

/-! ## What the virtual machine does

The parameter `load` is the loader's `loadClass`, for the names of the classes that are being
defined. -/

section VirtualMachine

variable (around : Surroundings π)
  (load : List Text → Text → Method (OwnClassLoader π) (LoadedClass π))

/-- A class that is not found when the virtual machine needs it. -/
def notFoundError : Throwable → Throwable
  | .classNotFoundException => .error "NoClassDefFoundError"
  | e => e

/-- Load a name that a class refers to. -/
def loadReference (inProgress : List Text) (name : Text) : Method (OwnClassLoader π) PUnit := do
  match (← get).initiated name with
  | some _ => pure ⟨⟩
  | none =>
    let c ← tryCatch (load inProgress name) fun e => throw (notFoundError e)
    modify (record · name c)

/-- Load one name after the other. -/
def loadReferences (inProgress : List Text) : List Text → Method (OwnClassLoader π) PUnit
  | [] => pure ⟨⟩
  | name :: names => do
    loadReference load inProgress name
    loadReferences inProgress names

/-- Record a class as defined. -/
def addClass (name : Text) : Method (OwnClassLoader π) (LoadedClass π) := do
  let s ← get
  if name ∈ s.classes then throw (.error "LinkageError")
  else
    set (s.define name)
    return .own name s.classes.length

/-- `defineClass(name, classBytes, 0, classBytes.length)` -/
def defineClass (inProgress : List Text) (name : Text) (classBytes : List Byte) :
    Method (OwnClassLoader π) (LoadedClass π) :=
  match around.supertypes name classBytes with
  | .error message => throw (.error message)
  | .ok supertypes =>
    if name ∈ inProgress then throw (.error "ClassCircularityError")
    else do
      loadReferences load (name :: inProgress) supertypes
      addClass name

/-- `resolveClass(theClass)` -/
def resolveClass (theClass : LoadedClass π) : Method (OwnClassLoader π) PUnit := do
  match theClass with
  | .own name _ => loadReferences load [] (around.references name)
  | .parents _ => pure ⟨⟩
  ofExcept ((around.link theClass).mapError .error)

end VirtualMachine

/-! ## Loading -/

section LoadClass

variable (around : Surroundings π)
  (load : List Text → Text → Method (OwnClassLoader π) (LoadedClass π))

/-- `if(resolve) this.resolveClass(theClass); return theClass;` -/
def resolved (resolve : Bool) (theClass : LoadedClass π) :
    Method (OwnClassLoader π) (LoadedClass π) :=
  if resolve then do
    resolveClass around load theClass
    return theClass
  else return theClass

/-- The class of the parent. -/
def parentClass (name : Text) : Method (OwnClassLoader π) (LoadedClass π) :=
  match around.parent name with
  | .ok (some c) => return .parents c
  | .ok none => throw .classNotFoundException
  | .error message => throw (.error message)

/-- `findLoadedClass(name)`, and else the class of the parent. -/
def findClass (name : Text) : Method (OwnClassLoader π) (LoadedClass π) := do
  match (← get).initiated name with
  | some c => return c
  | none => parentClass around name

/-- `super.loadClass(name, resolve)` -/
def superLoadClass (name : Text) (resolve : Bool) : Method (OwnClassLoader π) (LoadedClass π) :=
  findClass around name >>= resolved around load resolve

/-- The body of `loadClass(name, resolve)`, where `defineClass` never returns `null`. -/
def loadBody (inProgress : List Text) (name : Text) (resolve : Bool) :
    Method (OwnClassLoader π) (LoadedClass π) :=
  match around.classFile (path name) with
  | .invalidPath => throw .illegalArgumentException
  | .missing => superLoadClass around load name resolve
  -- `readAllBytes` throws an `IOException`, which is caught.
  | .unreadable _ => superLoadClass around load name resolve
  | .bytes classBytes =>
    defineClass around load inProgress name classBytes >>= resolved around load resolve

/-- Note down how a load ends. -/
def logged (name : Text) (body : Method (OwnClassLoader π) (LoadedClass π)) :
    Method (OwnClassLoader π) (LoadedClass π) := fun s =>
  match body.run s with
  | .ok c s' => .ok c { s' with loads := s'.loads ++ [⟨name, s.earlier name, .ok c⟩] }
  | .error e s' => .error e { s' with loads := s'.loads ++ [⟨name, s.earlier name, .error e⟩] }

end LoadClass

/-- `loadClass(name, resolve)` on a stack with room for `depth` calls of it. -/
def loadClass (around : Surroundings π) :
    ℕ → List Text → Text → Bool → Method (OwnClassLoader π) (LoadedClass π)
  | 0, _, _, _ => throw (.error "StackOverflowError")
  | depth + 1, inProgress, name, resolve =>
    logged name (loadBody around (fun inProgress name =>
      loadClass around depth inProgress name false) inProgress name resolve)

/-- A call `loadClass(name, resolve)` on a stack with room for it and `depth` more. -/
def call (around : Surroundings π) (depth : ℕ) (s : OwnClassLoader π) (i : Text × Bool) :
    Except Throwable (LoadedClass π) × OwnClassLoader π :=
  match (loadClass around (depth + 1) [] i.1 i.2).run s with
  | .ok c s' => (.ok c, s')
  | .error e s' => (.error e, s')

/-! ## The property -/

/-- No name has been defined twice, and every load has returned the class that there already was,
be it called by the program or by the virtual machine. -/
structure LoadsOnce (s : OwnClassLoader π) : Prop where
  nodup : s.classes.Nodup
  same : ∀ l ∈ s.loads, l.Same

/-- The name of the call has not been defined by this loader, and a class of the parent that was
loaded before is only resolved if it can be linked. -/
def NotDefined (around : Surroundings π) (s : OwnClassLoader π) (i : Text × Bool) : Prop :=
  i.1 ∉ s.classes ∧
    (i.2 = true → ∀ c, s.earlier i.1 = some c → around.link c = .ok ⟨⟩)

/-! ## Which class a name has -/

/-- The class of a name is left to the parent. -/
def Delegated (around : Surroundings π) (name : Text) : Prop :=
  match around.classFile (path name) with
  | .missing => True
  | .unreadable _ => True
  | .invalidPath => False
  | .bytes _ => False

/-- The class of a name, once the loader has defined `classes`. -/
def IsClassOf (around : Surroundings π) (classes : List Text) (name : Text) :
    LoadedClass π → Prop
  | .own name' index => name' = name ∧ classes[index]? = some name
  | .parents c => Delegated around name ∧ around.parent name = .ok (some c)

/-- What holds after any calls that meet the condition. -/
structure Inv (around : Surroundings π) (s : OwnClassLoader π) : Prop extends LoadsOnce s where
  file : ∀ name ∈ s.classes, ∃ classBytes, around.classFile (path name) = .bytes classBytes
  initiated : ∀ name c, s.initiated name = some c → IsClassOf around s.classes name c
  recorded : ∀ name ∈ s.classes, s.initiated name ≠ none
  returned : ∀ l ∈ s.loads, ∀ c, l.result = .ok c → IsClassOf around s.classes l.name c

/-- The later state has all classes of the earlier one, and keeps the invariant. -/
def Extends (around : Surroundings π) (s s' : OwnClassLoader π) : Prop :=
  s.classes <+: s'.classes ∧ (Inv around s → Inv around s')

section Classes

variable {around : Surroundings π} {s s' : OwnClassLoader π} {name : Text} {c c' : LoadedClass π}

instance : Std.Refl (Extends around) := ⟨fun _ => ⟨List.prefix_refl _, id⟩⟩

instance : IsTrans (OwnClassLoader π) (Extends around) :=
  ⟨fun _ _ _ h h' => ⟨h.1.trans h'.1, h'.2 ∘ h.2⟩⟩

lemma inv_new (around : Surroundings π) : Inv around new where
  nodup := List.nodup_nil
  same l hl := absurd hl List.not_mem_nil
  file name hname := absurd hname List.not_mem_nil
  initiated name c h := by cases h
  recorded name hname := absurd hname List.not_mem_nil
  returned l hl := absurd hl List.not_mem_nil

lemma IsClassOf.mono {classes classes' : List Text} (h : IsClassOf around classes name c)
    (hclasses : classes <+: classes') : IsClassOf around classes' name c := by
  cases c with
  | own name' index =>
      refine ⟨h.1, ?_⟩
      obtain ⟨hlt, -⟩ := List.getElem?_eq_some_iff.mp h.2
      obtain ⟨rest, rfl⟩ := hclasses
      rw [List.getElem?_append_left hlt, h.2]
  | parents p => exact h

/-- A name that this loader has defined is not left to the parent. -/
lemma Inv.not_delegated (h : Inv around s) (hname : name ∈ s.classes) :
    ¬Delegated around name := by
  obtain ⟨classBytes, hfile⟩ := h.file name hname
  rw [Delegated, hfile]
  exact not_false

/-- There is only one class for a name. -/
lemma IsClassOf.unique (hinv : Inv around s) (h : IsClassOf around s.classes name c)
    (h' : IsClassOf around s.classes name c') : c = c' := by
  match c, c', h, h' with
  | .own _ _, .own _ _, ⟨rfl, h⟩, ⟨rfl, h'⟩ =>
      obtain ⟨hlt, -⟩ := List.getElem?_eq_some_iff.mp h
      rw [← h'] at h
      rw [(List.getElem?_inj hlt hinv.nodup).mp h]
  | .own _ _, .parents _, ⟨_, h⟩, h' =>
      exact absurd h'.1 (hinv.not_delegated (List.mem_of_getElem? h))
  | .parents _, .own _ _, h, ⟨_, h'⟩ =>
      exact absurd h.1 (hinv.not_delegated (List.mem_of_getElem? h'))
  | .parents p, .parents p', h, h' =>
      have heq := h.2.symm.trans h'.2
      rw [Option.some.inj (Except.ok.inj heq)]

/-- What there already is for a name is its class. -/
lemma Inv.isClassOf_earlier (hinv : Inv around s) (h : s.earlier name = some c) :
    IsClassOf around s.classes name c := by
  unfold earlier at h
  split_ifs at h with hname
  · obtain rfl := Option.some.inj h
    exact ⟨rfl, List.getElem?_idxOf hname⟩
  · obtain ⟨l, hl, hsome⟩ := List.exists_of_findSome?_eq_some h
    split_ifs at hsome with heq
    cases hresult : l.result with
    | ok c₁ =>
        rw [hresult] at hsome
        obtain rfl := Option.some.inj hsome
        exact heq ▸ hinv.returned l hl c₁ hresult
    | error e =>
        rw [hresult] at hsome
        cases hsome

/-- A name that this loader has not defined has a class of the parent. -/
lemma IsClassOf.exists_parents (h : IsClassOf around s.classes name c) (hname : name ∉ s.classes) :
    ∃ p, c = .parents p ∧ Delegated around name ∧ around.parent name = .ok (some p) := by
  cases c with
  | own name' index => exact absurd (List.mem_of_getElem? h.2) hname
  | parents p => exact ⟨p, rfl, h⟩

end Classes

/-! ## What is loaded on the way -/

/-- What the virtual machine can rely on when it loads a name that it has no class for. -/
def LoadsWell (around : Surroundings π)
    (load : List Text → Text → Method (OwnClassLoader π) (LoadedClass π)) : Prop :=
  ∀ inProgress name s, Inv around s → name ∉ s.classes →
    Guarantees (Extends around) (load inProgress name) s
      fun c s' => IsClassOf around s'.classes name c

section Loading

variable {around : Surroundings π}
  {load : List Text → Text → Method (OwnClassLoader π) (LoadedClass π)}
  {s : OwnClassLoader π} {inProgress : List Text} {name : Text} {c : LoadedClass π}
  {resolve : Bool}

lemma guarantees_tryCatch {σ α : Type} {R : σ → σ → Prop} {x : Method σ α} {s : σ}
    {Q : α → σ → Prop} (hx : Guarantees R x s Q) (f : Throwable → Throwable) :
    Guarantees R (tryCatch x fun e => throw (f e)) s Q := by
  cases hrun : x.run s with
  | ok a s₁ =>
      obtain ⟨hR, hQ⟩ := hx.returns hrun
      exact .of_run_ok (by rw [tryCatch_run, hrun]) hR hQ
  | error e s₁ =>
      have hthrow : (tryCatch x fun e => throw (f e)).run s = .error (f e) s₁ := by
        rw [tryCatch_run, hrun]
        exact throw_run (f e) s₁
      exact .of_run_error hthrow (hx.throws hrun)

@[simp] lemma record_initiated_self (s : OwnClassLoader π) (name : Text) (c : LoadedClass π) :
    (s.record name c).initiated name = some c := Function.update_self _ _ _

lemma record_initiated_of_ne {name' : Text} (h : name' ≠ name) (s : OwnClassLoader π)
    (c : LoadedClass π) : (s.record name c).initiated name' = s.initiated name' :=
  Function.update_of_ne h _ _

/-- What is recorded stays right when a class of the name is recorded. -/
lemma Inv.isClassOf_record {classes : List Text} {name' : Text} {c' : LoadedClass π}
    (hinv : Inv around s) (hclasses : s.classes <+: classes)
    (hc : IsClassOf around classes name c) (h : (s.record name c).initiated name' = some c') :
    IsClassOf around classes name' c' := by
  by_cases heq : name' = name
  · subst heq
    rw [record_initiated_self] at h
    exact Option.some.inj h ▸ hc
  · rw [record_initiated_of_ne heq] at h
    exact (hinv.initiated name' c' h).mono hclasses

lemma Inv.recorded_record {name' : Text} (hinv : Inv around s)
    (h : name' ∈ s.classes ∨ name' = name) : (s.record name c).initiated name' ≠ none := by
  by_cases heq : name' = name
  · subst heq
    rw [record_initiated_self]
    exact Option.some_ne_none c
  · rw [record_initiated_of_ne heq]
    exact hinv.recorded name' (h.resolve_right heq)

lemma extends_record (h : IsClassOf around s.classes name c) :
    Extends around s (s.record name c) where
  left := List.prefix_refl _
  right hinv :=
    { hinv with
      initiated := fun _ _ => hinv.isClassOf_record (List.prefix_refl _) h
      recorded := fun _ hname => hinv.recorded_record (.inl hname) }

lemma loadReference_guarantees (hload : LoadsWell around load) (hinv : Inv around s) :
    Guarantees (Extends around) (loadReference load inProgress name) s fun _ _ => True := by
  cases h : s.initiated name with
  | some c =>
      have hrun : (loadReference load inProgress name).run s = .ok ⟨⟩ s := by
        rw [loadReference, get_bind_run, h]
        rfl
      exact .of_run_ok hrun (refl s) trivial
  | none =>
      have hname : name ∉ s.classes := fun hname => hinv.recorded name hname h
      have hrun : (loadReference load inProgress name).run s =
          (tryCatch (load inProgress name) (fun e => throw (notFoundError e)) >>= fun c =>
            modify (record · name c) : Method (OwnClassLoader π) PUnit).run s := by
        rw [loadReference, get_bind_run, h]
      refine .of_run_eq hrun ((guarantees_tryCatch (hload inProgress name s hinv hname) _).bind ?_)
      intro c s' _ hc
      exact .of_run_ok rfl (extends_record hc) trivial

lemma loadReferences_guarantees (hload : LoadsWell around load) (names : List Text) :
    ∀ {s}, Inv around s →
      Guarantees (Extends around) (loadReferences load inProgress names) s fun _ _ => True := by
  induction names with
  | nil => exact fun _ => .of_run_ok rfl (refl _) trivial
  | cons name names ih =>
      intro s hinv
      exact (loadReference_guarantees hload hinv).bind fun _ s' hs' _ => ih (hs'.2 hinv)

/-! ### A class of this loader -/

lemma isClassOf_define (around : Surroundings π) (s : OwnClassLoader π) (name : Text) :
    IsClassOf around (s.define name).classes name (.own name s.classes.length) :=
  ⟨rfl, List.getElem?_concat_length⟩

lemma extends_define {classBytes : List Byte} (hname : name ∉ s.classes)
    (hfile : around.classFile (path name) = .bytes classBytes) :
    Extends around s (s.define name) := by
  have hgrows : s.classes <+: (s.define name).classes := List.prefix_append _ _
  have hmem : ∀ {name'}, name' ∈ (s.define name).classes → name' ∈ s.classes ∨ name' = name :=
    fun h => (List.mem_append.mp h).imp_right List.mem_singleton.mp
  refine ⟨hgrows, fun hinv => ⟨⟨?_, hinv.same⟩, ?_, ?_, ?_, ?_⟩⟩
  · have hnodup := hinv.nodup.concat hname
    rwa [List.concat_eq_append] at hnodup
  · intro name' hname'
    rcases hmem hname' with h | rfl
    · exact hinv.file name' h
    · exact ⟨classBytes, hfile⟩
  · exact fun _ _ => hinv.isClassOf_record hgrows (isClassOf_define around s name)
  · exact fun _ hname' => hinv.recorded_record (hmem hname')
  · exact fun l hl c hc => (hinv.returned l hl c hc).mono hgrows

lemma addClass_run_error (hname : name ∈ s.classes) :
    (addClass name).run s = .error (.error "LinkageError") s := by
  rw [addClass, get_bind_run, if_pos hname]
  rfl

lemma addClass_run (hname : name ∉ s.classes) :
    (addClass name).run s = .ok (.own name s.classes.length) (s.define name) := by
  rw [addClass, get_bind_run, if_neg hname]
  rfl

lemma addClass_guarantees {classBytes : List Byte}
    (hfile : around.classFile (path name) = .bytes classBytes) :
    Guarantees (Extends around) (addClass name) s
      fun c s' => IsClassOf around s'.classes name c := by
  by_cases hname : name ∈ s.classes
  · exact .of_run_error (addClass_run_error hname) (refl s)
  · exact .of_run_ok (addClass_run hname) (extends_define hname hfile)
      (isClassOf_define around s name)

lemma defineClass_guarantees {classBytes : List Byte} (hload : LoadsWell around load)
    (hinv : Inv around s) (hfile : around.classFile (path name) = .bytes classBytes) :
    Guarantees (Extends around) (defineClass around load inProgress name classBytes) s
      fun c s' => IsClassOf around s'.classes name c := by
  unfold defineClass
  split
  · exact .of_run_error rfl (refl s)
  · split_ifs
    · exact .of_run_error rfl (refl s)
    · exact (loadReferences_guarantees hload _ hinv).bind fun _ _ _ _ => addClass_guarantees hfile

/-- A class that this loader has defined is not defined again. -/
lemma defineClass_ne_ok {classBytes : List Byte} {s' : OwnClassLoader π}
    (hload : LoadsWell around load) (hinv : Inv around s) (hname : name ∈ s.classes) :
    (defineClass around load inProgress name classBytes).run s ≠ .ok c s' := by
  intro h
  unfold defineClass at h
  split at h
  · cases h
  · split_ifs at h
    · cases h
    · obtain ⟨⟨⟩, s₁, hsupertypes, hadd⟩ := exists_of_bind_run h
      have hmem : name ∈ s₁.classes :=
        ((loadReferences_guarantees hload _ hinv).returns hsupertypes).1.1.mem hname
      rw [addClass_run_error hmem] at hadd
      cases hadd

/-! ### Resolving, and the parent -/

lemma resolveClass_guarantees (hload : LoadsWell around load) (hinv : Inv around s) :
    Guarantees (Extends around) (resolveClass around load c) s fun _ _ => True := by
  have hlink : ∀ s', Guarantees (Extends around)
      (ofExcept ((around.link c).mapError .error) : Method (OwnClassLoader π) PUnit) s'
      fun _ _ => True := by
    intro s'
    cases around.link c with
    | ok u => exact .of_run_ok rfl (refl s') trivial
    | error message => exact .of_run_error rfl (refl s')
  cases c with
  | own name index => exact (loadReferences_guarantees hload _ hinv).bind fun _ s' _ _ => hlink s'
  | parents p => exact hlink s

lemma resolved_guarantees (hload : LoadsWell around load) (hinv : Inv around s)
    (hc : IsClassOf around s.classes name c) :
    Guarantees (Extends around) (resolved around load resolve c) s
      fun c' s' => IsClassOf around s'.classes name c' := by
  cases resolve with
  | false => exact .of_run_ok rfl (refl s) hc
  | true =>
      refine (resolveClass_guarantees hload hinv).bind fun _ s' hs' _ => ?_
      exact .of_run_ok rfl (refl s') (hc.mono hs'.1)

lemma findClass_run (h : s.initiated name = some c) :
    (findClass around name).run s = .ok c s := by
  rw [findClass, get_bind_run, h]
  rfl

lemma findClass_run_none (h : s.initiated name = none) :
    (findClass around name).run s = (parentClass around name).run s := by
  rw [findClass, get_bind_run, h]

lemma findClass_guarantees (hinv : Inv around s) (hname : Delegated around name) :
    Guarantees (Extends around) (findClass around name) s
      fun c s' => IsClassOf around s'.classes name c ∧ s' = s := by
  cases h : s.initiated name with
  | some c => exact .of_run_ok (findClass_run h) (refl s) ⟨hinv.initiated name c h, rfl⟩
  | none =>
      refine .of_run_eq (findClass_run_none h) ?_
      unfold parentClass
      split
      · rename_i c hparent
        exact .of_run_ok rfl (refl s) ⟨⟨hname, hparent⟩, rfl⟩
      · exact .of_run_error rfl (refl s)
      · exact .of_run_error rfl (refl s)

lemma superLoadClass_guarantees (hload : LoadsWell around load) (hinv : Inv around s)
    (hname : Delegated around name) :
    Guarantees (Extends around) (superLoadClass around load name resolve) s
      fun c s' => IsClassOf around s'.classes name c := by
  apply (findClass_guarantees hinv hname).bind
  rintro c s' - ⟨hc, rfl⟩
  exact resolved_guarantees hload hinv hc

/-- The body of `loadClass` keeps the invariant, and returns the class of the name. -/
lemma loadBody_guarantees (hload : LoadsWell around load) (hinv : Inv around s) :
    Guarantees (Extends around) (loadBody around load inProgress name resolve) s
      fun c s' => IsClassOf around s'.classes name c := by
  unfold loadBody
  cases hfile : around.classFile (path name) with
  | invalidPath => exact .of_run_error rfl (refl s)
  | missing => exact superLoadClass_guarantees hload hinv (by rw [Delegated, hfile]; trivial)
  | unreadable message =>
      exact superLoadClass_guarantees hload hinv (by rw [Delegated, hfile]; trivial)
  | bytes classBytes =>
      refine (defineClass_guarantees hload hinv hfile).bind fun c s' hs' hc => ?_
      exact resolved_guarantees hload (hs'.2 hinv) hc

/-- A class of the parent is loaded again, and nothing changes. -/
lemma loadBody_of_earlier (hinv : Inv around s) (hname : name ∉ s.classes)
    (hc : s.earlier name = some c) :
    (loadBody around load inProgress name resolve).run s =
      (resolved around load resolve c).run s := by
  have hclass := hinv.isClassOf_earlier hc
  obtain ⟨p, rfl, hdelegated, hparent⟩ := hclass.exists_parents hname
  have hfind : (findClass around name).run s = .ok (.parents p) s := by
    cases h : s.initiated name with
    | some c' => rw [findClass_run h, (hinv.initiated name c' h).unique hinv hclass]
    | none =>
        rw [findClass_run_none h, parentClass, hparent]
        rfl
  have hsuper : (superLoadClass around load name resolve).run s =
      (resolved around load resolve (.parents p)).run s := bind_of_run hfind _
  unfold Delegated at hdelegated
  unfold loadBody
  split at hdelegated
  · rename_i hfile
    rw [hfile]
    exact hsuper
  · rename_i hfile
    rw [hfile]
    exact hsuper
  · exact hdelegated.elim
  · exact hdelegated.elim

/-! ### A load and its record -/

lemma Inv.log {l : Load π} (hinv : Inv around s) (hsame : l.Same)
    (hclass : ∀ c, l.result = .ok c → IsClassOf around s.classes l.name c) :
    Inv around { s with loads := s.loads ++ [l] } where
  nodup := hinv.nodup
  same l' hl' := by
    rcases List.mem_append.mp hl' with h | h
    · exact hinv.same l' h
    · exact List.mem_singleton.mp h ▸ hsame
  file := hinv.file
  initiated := hinv.initiated
  recorded := hinv.recorded
  returned l' hl' c hc := by
    rcases List.mem_append.mp hl' with h | h
    · exact hinv.returned l' h c hc
    · obtain rfl := List.mem_singleton.mp h
      exact hclass c hc

section Logged

variable {body : Method (OwnClassLoader π) (LoadedClass π)} {s₁ : OwnClassLoader π} {e : Throwable}

lemma logged_run (h : body.run s = .ok c s₁) :
    (logged name body).run s =
      .ok c { s₁ with loads := s₁.loads ++ [⟨name, s.earlier name, .ok c⟩] } := by
  change logged name body s = _
  rw [logged, h]

lemma logged_run_error (h : body.run s = .error e s₁) :
    (logged name body).run s =
      .error e { s₁ with loads := s₁.loads ++ [⟨name, s.earlier name, .error e⟩] } := by
  change logged name body s = _
  rw [logged, h]

/-- A load that returns the class there already is keeps the invariant. -/
lemma logged_guarantees (hinv : Inv around s)
    (hbody : Guarantees (Extends around) body s fun c s' => IsClassOf around s'.classes name c)
    (hsame : ∀ c, s.earlier name = some c → ∃ s', body.run s = .ok c s') :
    Guarantees (Extends around) (logged name body) s
      fun c s' => IsClassOf around s'.classes name c := by
  cases hrun : body.run s with
  | ok c s₁ =>
      obtain ⟨hextends, hc⟩ := hbody.returns hrun
      have hl : Load.Same ⟨name, s.earlier name, .ok c⟩ := by
        intro c' hc'
        obtain ⟨s', hrun'⟩ := hsame c' hc'
        rw [hrun] at hrun'
        rw [(EStateM.Result.ok.inj hrun').1]
      refine .of_run_ok (logged_run hrun) ⟨hextends.1, fun _ => ?_⟩ hc
      exact (hextends.2 hinv).log hl fun c' hc' => Except.ok.inj hc' ▸ hc
  | error e s₁ =>
      have hextends := hbody.throws hrun
      have hl : Load.Same ⟨name, s.earlier name, .error e⟩ := by
        intro c' hc'
        obtain ⟨s', hrun'⟩ := hsame c' hc'
        rw [hrun] at hrun'
        cases hrun'
      refine .of_run_error (logged_run_error hrun) ⟨hextends.1, fun _ => ?_⟩
      exact (hextends.2 hinv).log hl fun c' hc' => by cases hc'

/-- How a load ended is noted down. -/
lemma exists_logged (name : Text) (body : Method (OwnClassLoader π) (LoadedClass π))
    (s : OwnClassLoader π) :
    ∃ result, ⟨name, s.earlier name, result⟩ ∈ ((logged name body).after s).loads ∧
      ∀ c, result = .ok c → ∃ s', body.run s = .ok c s' := by
  cases hrun : body.run s with
  | ok c s₁ =>
      rw [after_of_run (logged_run hrun)]
      exact ⟨.ok c, List.mem_append_right _ (List.mem_singleton_self _),
        fun c' hc' => ⟨s₁, Except.ok.inj hc' ▸ rfl⟩⟩
  | error e s₁ =>
      rw [after_of_throw (logged_run_error hrun)]
      exact ⟨.error e, List.mem_append_right _ (List.mem_singleton_self _),
        fun c' hc' => by cases hc'⟩

end Logged

/-- **Loads on the way.**  By induction on the room on the stack: whatever the virtual machine loads
keeps the invariant. -/
theorem loadsWell_loadClass (around : Surroundings π) (depth : ℕ) :
    LoadsWell around fun inProgress name => loadClass around depth inProgress name false := by
  induction depth with
  | zero => exact fun inProgress name s hinv hname => .of_run_error rfl (refl s)
  | succ depth ih =>
      intro inProgress name s hinv hname
      refine logged_guarantees hinv (loadBody_guarantees ih hinv) fun c hc => ⟨s, ?_⟩
      rw [loadBody_of_earlier hinv hname hc]
      rfl

/-! ## Calls -/

variable {depth : ℕ}

lemma call_snd (around : Surroundings π) (depth : ℕ) (s : OwnClassLoader π) (i : Text × Bool) :
    (call around depth s i).2 = (logged i.1 (loadBody around (fun inProgress name =>
      loadClass around depth inProgress name false) [] i.1 i.2)).after s := by
  rw [call, loadClass]
  split
  · rename_i hrun
    exact (after_of_run hrun).symm
  · rename_i hrun
    exact (after_of_throw hrun).symm

lemma extends_after {α : Type} {x : Method (OwnClassLoader π) α} {Q : α → OwnClassLoader π → Prop}
    (h : Guarantees (Extends around) x s Q) : Extends around s (x.after s) := by
  cases hrun : x.run s with
  | ok a s' =>
      rw [after_of_run hrun]
      exact (h.returns hrun).1
  | error e s' =>
      rw [after_of_throw hrun]
      exact h.throws hrun

/-- A class of the parent is resolved exactly if it can be linked. -/
lemma exists_resolved_iff {p : π} :
    (∃ s', (resolved around load resolve (.parents p)).run s = .ok (.parents p) s') ↔
      (resolve = true → around.link (.parents p) = .ok ⟨⟩) := by
  cases resolve with
  | false => exact iff_of_true ⟨s, rfl⟩ fun h => absurd h Bool.false_ne_true
  | true =>
      have hrun : (resolved around load true (.parents p)).run s =
          (ofExcept ((around.link (.parents p)).mapError .error) >>= fun _ =>
            return .parents p : Method (OwnClassLoader π) (LoadedClass π)).run s := rfl
      rw [hrun]
      cases h : around.link (.parents p) with
      | ok u => exact iff_of_true ⟨s, rfl⟩ fun _ => rfl
      | error message =>
          refine iff_of_false ?_ fun hlink => by cases hlink rfl
          rintro ⟨s', hreturn⟩
          cases hreturn

/-- A load returns the class there already is exactly under the condition. -/
lemma notDefined_iff (hload : LoadsWell around load) (hinv : Inv around s) :
    NotDefined around s (name, resolve) ↔ ∀ c, s.earlier name = some c →
      ∃ s', (loadBody around load inProgress name resolve).run s = .ok c s' := by
  by_cases hname : name ∈ s.classes
  · refine iff_of_false (fun h => h.1 hname) fun h => ?_
    obtain ⟨classBytes, hfile⟩ := hinv.file name hname
    obtain ⟨s', hrun⟩ := h _ (if_pos hname)
    rw [loadBody, hfile] at hrun
    obtain ⟨c, s₁, hdefine, -⟩ := exists_of_bind_run hrun
    exact defineClass_ne_ok hload hinv hname hdefine
  · constructor
    · intro h c hc
      obtain ⟨p, rfl, -⟩ := (hinv.isClassOf_earlier hc).exists_parents hname
      rw [loadBody_of_earlier hinv hname hc]
      exact exists_resolved_iff.mpr fun hresolve => h.2 hresolve _ hc
    · intro h
      refine ⟨hname, fun hresolve c hc => ?_⟩
      obtain ⟨p, rfl, -⟩ := (hinv.isClassOf_earlier hc).exists_parents hname
      have hreturns := h _ hc
      rw [loadBody_of_earlier hinv hname hc] at hreturns
      exact exists_resolved_iff.mp hreturns hresolve

/-- A call under the condition keeps the invariant. -/
lemma inv_call {i : Text × Bool} (hinv : Inv around s) (hi : NotDefined around s i) :
    Inv around (call around depth s i).2 := by
  have hload := loadsWell_loadClass around depth
  rw [call_snd]
  exact (extends_after (logged_guarantees hinv (loadBody_guarantees hload hinv)
    ((notDefined_iff hload hinv).mp hi))).2 hinv

/-- A call after which every load has returned the class there already was met the condition. -/
lemma notDefined_of_loadsOnce {i : Text × Bool} (hinv : Inv around s)
    (h : LoadsOnce (call around depth s i).2) : NotDefined around s i := by
  rw [call_snd] at h
  obtain ⟨result, hmem, hreturns⟩ := exists_logged i.1 (loadBody around (fun inProgress name =>
    loadClass around depth inProgress name false) [] i.1 i.2) s
  exact (notDefined_iff (loadsWell_loadClass around depth) hinv).mpr fun c hc =>
    hreturns c (h.same _ hmem c hc)

/-- **Loading again.**  Along any calls, no name is defined twice and every load returns the class
that there already was for its name, exactly if none of the calls is for a name that the loader
has already defined (nor resolves a class that was loaded before and cannot be linked). -/
theorem loadsOnce_iff (around : Surroundings π) (depth : ℕ) (calls : List (Text × Bool)) :
    Calls.Along (call around depth) (fun s i => LoadsOnce (call around depth s i).2) new calls ↔
      Calls.Along (call around depth) (NotDefined around) new calls :=
  Calls.along_iff (I := Inv around) (fun _ _ => inv_call)
    (fun _ _ hinv => ⟨notDefined_of_loadsOnce hinv, fun hi => (inv_call hinv hi).toLoadsOnce⟩)
    (inv_new around)

end Loading

/-! ## A superclass that is loaded again -/

/-- A class `A` and its subclass `B` under the base path. -/
def twoClasses : Surroundings Unit where
  classFile p :=
    if p = path (text "A") then .bytes [1] else if p = path (text "B") then .bytes [2] else .missing
  parent _ := .ok none
  supertypes _ classBytes := .ok (if classBytes = [2] then [text "A"] else [])
  references _ := []
  link _ := .ok ⟨⟩

/-- The first load of `B` defines both classes, and loading `A` is then refused. -/
theorem superclass_not_loaded_again :
    Calls.replies (call twoClasses 1) new [(text "B", false), (text "A", false)] =
        [.ok (.own (text "B") 1), .error (.error "LinkageError")] ∧
      ¬Calls.Along (call twoClasses 1) (fun s i => LoadsOnce (call twoClasses 1 s i).2) new
        [(text "B", false), (text "A", false)] := by
  have hloads : (Calls.final (call twoClasses 1) new [(text "B", false), (text "A", false)]).loads =
      [⟨text "A", none, .ok (.own (text "A") 0)⟩, ⟨text "B", none, .ok (.own (text "B") 1)⟩,
        ⟨text "A", some (.own (text "A") 0), .error (.error "LinkageError")⟩] := rfl
  refine ⟨rfl, ?_⟩
  rintro ⟨-, hsecond, -⟩
  have hmem : ⟨text "A", some (.own (text "A") 0), .error (.error "LinkageError")⟩ ∈
      (Calls.final (call twoClasses 1) new [(text "B", false), (text "A", false)]).loads := by
    rw [hloads]
    simp
  have hresult := hsecond.same _ hmem _ rfl
  cases hresult

end OwnClassLoader

end LearnJava
