import LearnJava.Java.Text

/-!
# `Searcher`

`search/Searcher.java` looks for the classes of a package: it goes through the directories that the
class loader finds for it, and gives the name of each class file to `Class.forName`.  On the way
down the package name is replaced by the name of the subdirectory, which should be appended to it.
What `forName` returns is dropped, and so is the set of classes in the end.
-/

namespace LearnJava

/-- What a path leads to: a file, or a directory with what `listFiles()` gives for it. -/
inductive File
  | file (name : Text)
  | directory (name : Text) (children : List File)

namespace File

/-- Induction on what is in a directory, at every depth. -/
theorem children_induction {P : List File → Prop} (nil : P [])
    (file : ∀ name rest, P rest → P (.file name :: rest))
    (directory : ∀ name children rest, P children → P rest →
      P (.directory name children :: rest)) : ∀ files, P files
  | [] => nil
  | .file name :: rest => file name rest (children_induction nil file directory rest)
  | .directory name children :: rest =>
    directory name children rest (children_induction nil file directory children)
      (children_induction nil file directory rest)

/-- The name of a file ends with `.class`. -/
def isClassFile (name : Text) : Bool := (text ".class").isSuffixOf name

/-- The name of the class in a class file. -/
def className (name : Text) : Text := name.take (name.length - 6)

/-- `isDirectory()` -/
def isDirectory : File → Bool
  | .file _ => false
  | .directory _ _ => true

/-- `getName()` -/
def getName : File → Text
  | .file name => name
  | .directory name _ => name

mutual

/-- The class files that a path leads to, each with the names of the directories on the way. -/
def classFilesOf : File → List (List Text × Text)
  | .file name => if isClassFile name then [([], name)] else []
  | .directory name children => (classFiles children).map fun f => (name :: f.1, f.2)

/-- The class files in and below a directory. -/
def classFiles : List File → List (List Text × Text)
  | [] => []
  | child :: rest => classFilesOf child ++ classFiles rest

end

end File

/-- A `URL` that `getResources` finds, by its protocol: what the decoded path leads to, or the names
of the entries of the jar file. -/
inductive Resource
  | file (dirFile : Option File)
  | jar (jarFile : Except Throwable (List Text))
  | other (protocol : Text)

/-- A `ClassLoader` of classes `π`, for what a `Searcher` asks of it. -/
structure ClassLoader (π : Type) where
  getResources : Text → Except Throwable (List Resource)
  /-- `Class.forName(name, false, classLoader)` -/
  forName : Text → Except Throwable π

/-- The fields of a `Searcher`. -/
structure Searcher (π : Type) where
  classLoader : ClassLoader π
  basePackageName : Text
  superClass : π
  basePackageName_ne : basePackageName ≠ []

namespace Searcher

open File (isClassFile className classFilesOf classFiles)

variable {π : Type}

/-- `new Searcher(classLoader, basePackageName, superClass)` -/
def new (classLoader : Option (ClassLoader π)) (contextClassLoader : ClassLoader π)
    (basePackageName : Option Text) (superClass : Option π) (object : π) :
    Except Throwable (Searcher π) :=
  match basePackageName with
  | none => .error .illegalArgumentException
  | some basePackageName =>
    if h : basePackageName = [] then .error .illegalArgumentException
    else .ok ⟨classLoader.getD contextClassLoader, basePackageName, superClass.getD object, h⟩

/-- The names that `Class.forName` is called with, and the set `classes`. -/
structure Search (π : Type) where
  lookups : List Text
  classes : List π
  deriving DecidableEq

/-- What a search starts with. -/
def Search.start : Search π := ⟨[], []⟩

/-- `Class.forName(name, false, classLoader)` -/
def forName (classLoader : ClassLoader π) (name : Text) : Method (Search π) π := do
  modify fun search => { search with lookups := search.lookups ++ [name] }
  ofExcept (classLoader.forName name)

/-- The filter of `listFiles`. -/
def accept (pathname : File) : Bool := pathname.isDirectory || isClassFile pathname.getName

mutual

/-- `findAndAddClassesInPackageByFile(packageName, dirPath, classes)`, for what is at the path. -/
def findAndAddClassesInPackageByFile (classLoader : ClassLoader π) (packageName : Text) :
    File → Method (Search π) PUnit
  | .file _ => pure ⟨⟩
  | .directory _ children => findInChildren classLoader packageName children

/-- The loop of `findAndAddClassesInPackageByFile`. -/
def findInChildren (classLoader : ClassLoader π) (packageName : Text) :
    List File → Method (Search π) PUnit
  | [] => pure ⟨⟩
  | childFile :: rest => do
    if accept childFile then
      if childFile.isDirectory then
        findAndAddClassesInPackageByFile classLoader childFile.getName childFile
      else
        let _ ← forName classLoader (packageName ++ text "." ++ className childFile.getName)
    findInChildren classLoader packageName rest

end

variable (s : Searcher π)

/-- The body of the loop of `search`, where the entries of a jar file are only counted off. -/
def searchResource : Resource → Method (Search π) PUnit
  | .file none => pure ⟨⟩
  | .file (some dirFile) =>
    findAndAddClassesInPackageByFile s.classLoader s.basePackageName dirFile
  | .jar jarFile => ofExcept (jarFile.map fun _ => ⟨⟩)
  | .other _ => pure ⟨⟩

/-- The loop of `search`. -/
def searchResources : List Resource → Method (Search π) PUnit
  | [] => pure ⟨⟩
  | resource :: rest => do
    s.searchResource resource
    searchResources rest

/-- `catch (IOException | ClassNotFoundException e) { throw new RuntimeException(e); }` -/
def rethrow : Throwable → Throwable
  | .ioException message => .runtimeException (.ioException message)
  | .classNotFoundException => .runtimeException .classNotFoundException
  | e => e

/-- The resources of the base package. -/
def getResources : Except Throwable (List Resource) :=
  s.classLoader.getResources (replaceChar '.' '/' s.basePackageName)

/-- `search()` -/
def search : Method (Search π) (Option (List π)) := do
  tryCatch (ofExcept s.getResources >>= s.searchResources) fun e => throw (rethrow e)
  return none

/-! ## The property -/

/-- The class files under the directories of the base package. -/
def classFilesUnder (resources : List Resource) : List (List Text × Text) :=
  resources.flatMap fun
    | .file (some (.directory _ children)) => classFiles children
    | _ => []

/-- The name of the class in a class file: the package, the directories on the way to the file, and
its own name, with dots between them. -/
def qualifiedName (packageName : Text) (f : List Text × Text) : Text :=
  packageName ++ f.1.flatMap (text "." ++ ·) ++ text "." ++ className f.2

/-- `search` looks up every class file under its qualified name, and nothing else, and returns the
classes among them that `isAssignable` from the class of the searcher. -/
structure Finds (isAssignable : π → π → Prop) (resources : List Resource) : Prop where
  lookups : (s.search.after .start).lookups.Perm
    ((classFilesUnder resources).map (qualifiedName s.basePackageName))
  returns : ∃ classes search, s.search.run .start = .ok (some classes) search ∧
    ∀ c, c ∈ classes ↔ isAssignable s.superClass c ∧
      ∃ f ∈ classFilesUnder resources,
        s.classLoader.forName (qualifiedName s.basePackageName f) = .ok c

/-! ## What is looked up -/

/-- The name under which a class file is looked up: the last directory stands for the package. -/
def lookedUpName (packageName : Text) (f : List Text × Text) : Text :=
  f.1.getLastD packageName ++ text "." ++ className f.2

section Lookups

variable {s} {classLoader : ClassLoader π} {packageName : Text} {st st' : Search π}

lemma forName_lookups {name : Text} {c : π} (h : (forName classLoader name).run st = .ok c st') :
    st'.lookups = st.lookups ++ [name] := by
  rw [forName, modify_bind_run] at h
  obtain ⟨-, rfl⟩ := eq_ok_of_ofExcept_run h
  rfl

lemma findInChildren_file (classLoader : ClassLoader π) (packageName name : Text)
    (rest : List File) : findInChildren classLoader packageName (.file name :: rest) = (do
      if isClassFile name then
        let _ ← forName classLoader (packageName ++ text "." ++ className name)
      findInChildren classLoader packageName rest) := rfl

/-- A subdirectory is gone through under its own name. -/
lemma findInChildren_directory (classLoader : ClassLoader π) (packageName name : Text)
    (children rest : List File) :
    findInChildren classLoader packageName (.directory name children :: rest) = (do
      findInChildren classLoader name children
      findInChildren classLoader packageName rest) := rfl

/-- By induction on the directory: in a subdirectory the way starts anew from its name. -/
lemma findInChildren_lookups (files : List File) :
    ∀ {packageName : Text} {st st' : Search π},
      (findInChildren classLoader packageName files).run st = .ok ⟨⟩ st' →
        st'.lookups = st.lookups ++ (classFiles files).map (lookedUpName packageName) := by
  induction files using File.children_induction with
  | nil =>
      intro packageName st st' h
      rw [findInChildren] at h
      obtain ⟨-, rfl⟩ := EStateM.Result.ok.inj h
      rw [classFiles, List.map_nil, List.append_nil]
  | file name rest ih =>
      intro packageName st st' h
      rw [findInChildren_file] at h
      rw [classFiles, classFilesOf]
      split_ifs at h ⊢ with hclass
      · obtain ⟨c, st₁, hlookup, hrest⟩ := exists_of_bind_run h
        rw [ih hrest, forName_lookups hlookup, List.append_assoc]
        rfl
      · exact ih h
  | directory name children rest ihchildren ihrest =>
      intro packageName st st' h
      rw [findInChildren_directory] at h
      obtain ⟨⟨⟩, st₁, hchildren, hrest⟩ := exists_of_bind_run h
      rw [ihrest hrest, ihchildren hchildren, classFiles, classFilesOf, List.map_append,
        List.map_map, List.append_assoc]
      congr 2
      refine List.map_congr_left fun f _ => ?_
      rw [Function.comp_apply, lookedUpName, lookedUpName, List.getLastD_cons]

lemma searchResource_lookups {resource : Resource}
    (h : (s.searchResource resource).run st = .ok ⟨⟩ st') :
    st'.lookups = st.lookups ++
      (classFilesUnder [resource]).map (lookedUpName s.basePackageName) := by
  rw [classFilesUnder, List.flatMap_singleton]
  match resource, h with
  | .file (some (.directory _ children)), h => exact findInChildren_lookups children h
  | .file (some (.file _)), h | .file none, h | .other _, h =>
      obtain ⟨-, rfl⟩ := EStateM.Result.ok.inj h
      rw [List.map_nil, List.append_nil]
  | .jar jarFile, h =>
      obtain ⟨-, rfl⟩ := eq_ok_of_ofExcept_run h
      rw [List.map_nil, List.append_nil]

lemma searchResources_lookups (resources : List Resource) :
    ∀ {st st'}, (s.searchResources resources).run st = .ok ⟨⟩ st' →
      st'.lookups = st.lookups ++
        (classFilesUnder resources).map (lookedUpName s.basePackageName) := by
  induction resources with
  | nil =>
      intro st st' h
      obtain ⟨-, rfl⟩ := EStateM.Result.ok.inj h
      rw [classFilesUnder, List.flatMap_nil, List.map_nil, List.append_nil]
  | cons resource rest ih =>
      intro st st' h
      obtain ⟨⟨⟩, st₁, hresource, hrest⟩ := exists_of_bind_run h
      have hsplit : classFilesUnder (resource :: rest) =
          classFilesUnder [resource] ++ classFilesUnder rest := by
        rw [classFilesUnder, List.flatMap_cons, classFilesUnder, List.flatMap_singleton,
          classFilesUnder]
      rw [ih hrest, searchResource_lookups hresource, hsplit, List.map_append, List.append_assoc]

/-! ## The names -/

lemma length_getLastD_le (packageName : Text) (dirs : List Text) :
    (dirs.getLastD packageName).length ≤ packageName.length +
      (dirs.flatMap (text "." ++ ·)).length ∧
    (dirs ≠ [] → (dirs.getLastD packageName).length < packageName.length +
      (dirs.flatMap (text "." ++ ·)).length) := by
  induction dirs generalizing packageName with
  | nil => exact ⟨Nat.le_add_right _ _, fun h => absurd rfl h⟩
  | cons dir dirs ih =>
      have hdir := (ih dir).1
      have hdot : (text ".").length = 1 := rfl
      rw [List.getLastD_cons, List.flatMap_cons, List.length_append, List.length_append, hdot]
      omega

/-- The looked up name is never longer than the qualified one, and shorter below a subdirectory. -/
lemma length_lookedUpName_le (packageName : Text) (f : List Text × Text) :
    (lookedUpName packageName f).length ≤ (qualifiedName packageName f).length ∧
      (f.1 ≠ [] →
        (lookedUpName packageName f).length < (qualifiedName packageName f).length) := by
  have hle := length_getLastD_le packageName f.1
  simp only [lookedUpName, qualifiedName, List.length_append, Nat.add_lt_add_iff_right,
    Nat.add_le_add_iff_right]
  exact hle

/-- All names together are the qualified ones exactly if there is no subdirectory on any way: else
they are shorter in total. -/
lemma perm_qualifiedName_iff (packageName : Text) (files : List (List Text × Text)) :
    (files.map (lookedUpName packageName)).Perm (files.map (qualifiedName packageName)) ↔
      ∀ f ∈ files, f.1 = [] := by
  constructor
  · intro hperm
    by_contra hdeep
    push Not at hdeep
    obtain ⟨f, hf, hne⟩ := hdeep
    have hlt : (files.map fun f => (lookedUpName packageName f).length).sum <
        (files.map fun f => (qualifiedName packageName f).length).sum :=
      List.sum_lt_sum _ _ (fun f _ => (length_lookedUpName_le packageName f).1)
        ⟨f, hf, (length_lookedUpName_le packageName f).2 hne⟩
    have heq := (hperm.map List.length).sum_eq
    rw [List.map_map, List.map_map] at heq
    exact hlt.ne heq
  · intro htop
    refine List.Perm.of_eq (List.map_congr_left fun f hf => ?_)
    rw [lookedUpName, qualifiedName, htop f hf, List.flatMap_nil, List.append_nil,
      List.getLastD_nil]

/-! ## The search -/

/-- `search` returns nothing but `null`. -/
lemma eq_none_of_search {found : Option (List π)} (h : s.search.run st = .ok found st') :
    found = none := by
  obtain ⟨⟨⟩, st₁, -, hreturn⟩ := exists_of_bind_run h
  exact (EStateM.Result.ok.inj hreturn).1.symm

lemma search_lookups {resources : List Resource} {found : Option (List π)}
    (hresources : s.getResources = .ok resources) (h : s.search.run st = .ok found st') :
    st'.lookups =
      st.lookups ++ (classFilesUnder resources).map (lookedUpName s.basePackageName) := by
  obtain ⟨⟨⟩, st₁, hsearch, hreturn⟩ := exists_of_bind_run h
  obtain ⟨-, rfl⟩ := EStateM.Result.ok.inj hreturn
  rw [tryCatch_run, bind_of_run (ofExcept_run_ok hresources st)] at hsearch
  cases hrun : (s.searchResources resources).run st with
  | ok u st₂ =>
      rw [hrun] at hsearch
      obtain ⟨-, rfl⟩ := EStateM.Result.ok.inj hsearch
      exact searchResources_lookups resources hrun
  | error e st₂ =>
      rw [hrun] at hsearch
      cases hsearch

end Lookups

/-- **Searching.**  `search` never finds the classes of a package.  Where it returns, it has looked
up the class files under their qualified names exactly if there are none in subdirectories. -/
theorem not_finds (s : Searcher π) (isAssignable : π → π → Prop) (resources : List Resource)
    (h : s.getResources = .ok resources) :
    ¬s.Finds isAssignable resources ∧
      ∀ found search, s.search.run .start = .ok found search →
        (search.lookups.Perm ((classFilesUnder resources).map (qualifiedName s.basePackageName)) ↔
          ∀ f ∈ classFilesUnder resources, f.1 = []) := by
  constructor
  · rintro ⟨-, classes, search, hrun, -⟩
    cases eq_none_of_search hrun
  · intro found search hrun
    rw [search_lookups h hrun]
    exact perm_qualifiedName_iff s.basePackageName (classFilesUnder resources)

/-! ## A package with a subdirectory -/

/-- The directory of `com`, with the class `com.A` and the package `com.b`, which has `com.b.B`. -/
def comResources : List Resource :=
  [.file (some (.directory (text "com")
    [.file (text "A.class"), .directory (text "b") [.file (text "B.class")]]))]

/-- A searcher in `com`, whose class loader has the two classes. -/
def comSearcher : Searcher Text where
  classLoader :=
    { getResources _ := .ok comResources
      forName name :=
        if name = text "com.A" ∨ name = text "com.b.B" then .ok name
        else .error .classNotFoundException }
  basePackageName := text "com"
  superClass := text "java.lang.Object"
  basePackageName_ne := by decide

/-- In `com`. -/
theorem not_finds_com :
    ¬comSearcher.Finds (fun _ _ => True) comResources ∧
      ∀ found search, comSearcher.search.run .start = .ok found search →
        (search.lookups.Perm ((classFilesUnder comResources).map (qualifiedName (text "com"))) ↔
          ∀ f ∈ classFilesUnder comResources, f.1 = []) :=
  not_finds comSearcher (fun _ _ => True) comResources rfl

/-- The class `com.b.B` is looked up as `b.B`, and the search ends with an exception. -/
theorem subdirectory_loses_package :
    comSearcher.search.run .start = .error (.runtimeException .classNotFoundException)
        ⟨[text "com.A", text "b.B"], []⟩ ∧
      ¬comSearcher.Finds (fun _ _ => True) comResources := by
  have hrun : comSearcher.search.run .start =
      .error (.runtimeException .classNotFoundException) ⟨[text "com.A", text "b.B"], []⟩ := rfl
  refine ⟨hrun, ?_⟩
  rintro ⟨-, classes, search, hfound, -⟩
  rw [hrun] at hfound
  cases hfound

end Searcher

end LearnJava
