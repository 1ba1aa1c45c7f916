import LearnJava.Java.Channels
import LearnJava.Java.Text

/-!
# `OwnClassLoader2`

`classloader/OwnClassLoader2.java` defines classes from bytes that it reads itself from a `URL`.
The array for them is as long as `available()` says at the beginning, and one `read` of a channel
is to fill it.  But `available()` is only an estimate of what can be read without blocking, and the
channel reads no further once nothing is available: then the class is defined from a part of its
bytes, or the array is longer than what was read.

What the virtual machine does with the bytes is left open.  The state of a method is the list of
the names and the bytes that were passed to `defineClass`.
-/

namespace LearnJava

/-- A `URL`, with the stream that it opens. -/
structure URL where
  openStream : Except Throwable ((content : List Byte) × InputStream content)

/-- What the virtual machine and `java.lang.ClassLoader` do for an `OwnClassLoader2`, for classes
`π`. -/
structure ClassLoading (π : Type) where
  defineClass : Text → List Byte → Except Throwable π
  unsafeDefineClass : Text → List Byte → Except Throwable π
  resolveClass : π → Except Throwable PUnit
  getBootstrapResource : Text → Except Throwable (Option URL)
  /-- The location of the code source of the protection domain, where there are all three. -/
  location : π → Option URL

namespace OwnClassLoader2

open Fuel (Returns Stable)

variable {π : Type} {content : List Byte} (jvm : ClassLoading π)

/-- The names and the bytes that were passed to `defineClass`. -/
abbrev Passed := List (Text × List Byte)

/-- `catch (IOException e) { throw new RuntimeException(e); }` -/
def rethrow : Throwable → Throwable
  | .ioException message => .runtimeException (.ioException message)
  | e => e

/-- The bytes that `loadClass(URL, …)` reads from the stream. -/
def readBytes (inputStream : InputStream content) (fuel : ℕ) :
    Option (Except Throwable (List Byte)) :=
  let available := inputStream.available 0
  (Channels.read inputStream (.allocate available) fuel).map fun read => do
    let (_, byteBuffer) ← read
    let (loadedClassBytes, _) ← byteBuffer.flip.get available
    return loadedClassBytes

/-- `defineClass(name, loadedClassBytes)` -/
def defineClass (name : Text) (loadedClassBytes : List Byte) : Method Passed π := do
  modify (· ++ [(name, loadedClassBytes)])
  match jvm.defineClass name loadedClassBytes with
  | .ok newClass => return newClass
  | .error _ =>
    match jvm.unsafeDefineClass name loadedClassBytes with
    | .ok newClass => return newClass
    | .error _ => throw .classNotFoundException

/-- `if (resolve) this.resolveClass(newClass); return newClass;` -/
def resolved (resolve : Bool) (newClass : π) : Method Passed π := do
  if resolve then ofExcept (jvm.resolveClass newClass)
  return newClass

/-- What follows the reading in `loadClass(URL, …)`. -/
def loadRead (name : Text) (resolve : Bool) (read : Except Throwable (List Byte)) :
    Method Passed π := do
  let loadedClassBytes ← ofExcept (read.mapError rethrow)
  let newClass ← defineClass jvm name loadedClassBytes
  resolved jvm resolve newClass

/-- `loadClass(location, name, resolve)` -/
def loadClass (location : Option URL) (name : Text) (resolve : Bool) (passed : Passed)
    (fuel : ℕ) : Option (EStateM.Result Throwable Passed π) :=
  match location with
  | none => some (.error .classNotFoundException passed)
  | some location =>
    match location.openStream with
    | .error e => some (.error (rethrow e) passed)
    | .ok ⟨_, inputStream⟩ =>
      (readBytes inputStream fuel).map fun read => (loadRead jvm name resolve read).run passed

/-- `name.replace('.', '/') + ".class"` -/
def path (name : Text) : Text := replaceChar '.' '/' name ++ text ".class"

/-- `tryLoadBootstrapClass(name, resolve)`, where all that is thrown is caught. -/
def tryLoadBootstrapClass (name : Text) (resolve : Bool) (passed : Passed) (fuel : ℕ) :
    Option (EStateM.Result Throwable Passed π) :=
  match jvm.getBootstrapResource (path name) with
  | .error _ => some (.error .classNotFoundException passed)
  | .ok classURL =>
    (loadClass jvm classURL name resolve passed fuel).map fun
      | .ok newClass passed => .ok newClass passed
      | .error _ passed => .error .classNotFoundException passed

/-- `loadLoadedClass(name, resolve, theClass)` -/
def loadLoadedClass (name : Text) (resolve : Bool) (theClass : π) (passed : Passed)
    (fuel : ℕ) : Option (EStateM.Result Throwable Passed π) :=
  loadClass jvm (jvm.location theClass) name resolve passed fuel

/-! ## The property -/

/-- What has been passed when a method has ended. -/
def passedBy : EStateM.Result Throwable Passed π → Passed
  | .ok _ passed => passed
  | .error _ passed => passed

/-- The reading throws nothing, and `defineClass` gets the name and all the bytes of the
resource. -/
structure PassesWhole (inputStream : InputStream content) : Prop where
  reading : Returns (readBytes inputStream) (.ok content)
  passed : ∀ location : URL, location.openStream = .ok ⟨content, inputStream⟩ →
    ∀ name resolve passed, ∃ r, Returns (loadClass jvm (some location) name resolve passed) r ∧
      passedBy r = passed ++ [(name, content)]

/-- At the beginning all of the resource is available, and after every read that leaves some of it
there is again something available. -/
structure AvailableThroughout (inputStream : InputStream content) : Prop where
  atStart : inputStream.available 0 = content.length
  goesOn : Channels.NeverStalls inputStream content.length

section Passes

variable {jvm} {inputStream : InputStream content} {location : URL} {name : Text}
  {resolve : Bool} {passed : Passed} {fuel : ℕ}

/-! ## What is read -/

lemma stable_readBytes (inputStream : InputStream content) : Stable (readBytes inputStream) :=
  (Loop.stable_run _ _).map _

/-- The array is filled as long as the reads do not stall, and else there are too few bytes
for it. -/
lemma exists_readBytes (inputStream : InputStream content) :
    ∃ x, Returns (readBytes inputStream) x ∧
      (Channels.NeverStalls inputStream (inputStream.available 0) ∧
          x = .ok (content.take (inputStream.available 0)) ∨
        ¬Channels.NeverStalls inputStream (inputStream.available 0) ∧
          x = .error .bufferUnderflowException) := by
  have hroom : inputStream.available 0 ≤ content.length := inputStream.available_le 0
  obtain ⟨x, hreturns, hreads⟩ :=
    Channels.exists_read inputStream (.allocate (inputStream.available 0)) hroom
  refine ⟨_, hreturns.map _, ?_⟩
  cases x with
  | error e => exact hreads.elim
  | ok r =>
      obtain ⟨n, dst⟩ := r
      obtain ⟨m, hle, -, hwritten, hfull⟩ := hreads
      have hremaining : (ByteBuffer.allocate (inputStream.available 0)).remaining =
          inputStream.available 0 := Nat.sub_zero _
      rw [ByteBuffer.written_allocate, List.nil_append] at hwritten
      rw [hremaining] at hle hfull
      have hposition : dst.position = m := by
        rw [← dst.length_written, hwritten, List.length_take]
        omega
      by_cases hm : m = inputStream.available 0
      · refine .inl ⟨hfull.mp hm, ?_⟩
        obtain ⟨b, hget, -⟩ := dst.flip_get
        rw [hposition, hm, hwritten, hm] at hget
        simp only [bind, Except.bind, hget, pure, Except.pure]
      · refine .inr ⟨fun hnever => hm (hfull.mpr hnever), ?_⟩
        have hshort : dst.flip.remaining < inputStream.available 0 := by
          rw [dst.flip_remaining, hposition]
          omega
        simp only [bind, Except.bind, ByteBuffer.get_error hshort]

/-! ## What is passed on -/

lemma defineClass_after (name : Text) (bytes : List Byte) (passed : Passed) :
    (defineClass jvm name bytes).after passed = passed ++ [(name, bytes)] := by
  unfold Method.after defineClass
  rw [modify_bind_run]
  cases jvm.defineClass name bytes with
  | ok newClass => rfl
  | error e => cases jvm.unsafeDefineClass name bytes <;> rfl

lemma resolved_after (newClass : π) (passed : Passed) :
    (resolved jvm resolve newClass).after passed = passed := by
  cases resolve with
  | false => rfl
  | true =>
      unfold Method.after resolved
      cases jvm.resolveClass newClass <;> rfl

lemma passedBy_run (x : Method Passed π) (passed : Passed) :
    passedBy (x.run passed) = x.after passed := by
  unfold Method.after
  cases x.run passed <;> rfl

lemma passedBy_loadRead (bytes : List Byte) :
    passedBy ((loadRead jvm name resolve (.ok bytes)).run passed) = passed ++ [(name, bytes)] := by
  have hread : (loadRead jvm name resolve (.ok bytes)).run passed =
      (defineClass jvm name bytes >>= resolved jvm resolve).run passed :=
    bind_of_run (ofExcept_run_ok rfl passed) _
  rw [hread, passedBy_run, bind_after resolved_after, defineClass_after]

/-- What comes of the bytes that `readBytes` returns, or of its exception. -/
lemma returns_loadClass (hlocation : location.openStream = .ok ⟨content, inputStream⟩)
    {read : Except Throwable (List Byte)} (h : Returns (readBytes inputStream) read) :
    Returns (loadClass jvm (some location) name resolve passed)
      ((loadRead jvm name resolve read).run passed) := by
  have hread : loadClass jvm (some location) name resolve passed = fun fuel =>
      (readBytes inputStream fuel).map fun read =>
        (loadRead jvm name resolve read).run passed := by
    funext fuel
    simp only [loadClass, hlocation]
  rw [hread]
  exact h.map _

/-- A reading that stalls passes nothing on. -/
lemma loadClass_of_stall (hlocation : location.openStream = .ok ⟨content, inputStream⟩)
    (h : ¬Channels.NeverStalls inputStream (inputStream.available 0)) :
    Returns (loadClass jvm (some location) name resolve passed)
      (.error .bufferUnderflowException passed) := by
  obtain ⟨x, hreturns, ⟨hnever, -⟩ | ⟨-, rfl⟩⟩ := exists_readBytes inputStream
  · exact absurd hnever h
  · exact returns_loadClass hlocation hreturns

/-- One that does not stall passes on as many bytes as were available at the beginning. -/
lemma loadClass_of_neverStalls (hlocation : location.openStream = .ok ⟨content, inputStream⟩)
    (h : Channels.NeverStalls inputStream (inputStream.available 0)) :
    ∃ r, Returns (loadClass jvm (some location) name resolve passed) r ∧
      passedBy r = passed ++ [(name, content.take (inputStream.available 0))] := by
  obtain ⟨x, hreturns, ⟨-, rfl⟩ | ⟨hstalls, -⟩⟩ := exists_readBytes inputStream
  · exact ⟨_, returns_loadClass hlocation hreturns, passedBy_loadRead _⟩
  · exact absurd h hstalls

/-- **Truncation.**  All of the resource is read, and passed on, exactly if all of it is available
at the beginning and something is available after every read that leaves some of it. -/
theorem passesWhole_iff (jvm : ClassLoading π) (inputStream : InputStream content) :
    PassesWhole jvm inputStream ↔ AvailableThroughout inputStream := by
  constructor
  · intro h
    obtain ⟨x, hreturns, hx⟩ := exists_readBytes inputStream
    obtain rfl := (stable_readBytes inputStream).unique h.reading hreturns
    obtain ⟨hnever, hx⟩ | ⟨-, hx⟩ := hx
    · have hlength := congrArg List.length (Except.ok.inj hx)
      rw [List.length_take] at hlength
      have hle := inputStream.available_le 0
      have hstart : inputStream.available 0 = content.length := by omega
      exact ⟨hstart, hstart ▸ hnever⟩
    · cases hx
  · rintro ⟨hstart, hnever⟩
    rw [← hstart] at hnever
    have hwhole : content.take (inputStream.available 0) = content := by
      rw [hstart, List.take_length]
    constructor
    · obtain ⟨x, hreturns, ⟨-, rfl⟩ | ⟨hstalls, -⟩⟩ := exists_readBytes inputStream
      · rwa [hwhole] at hreturns
      · exact absurd hnever hstalls
    · intro location hlocation name resolve passed
      rw [← hwhole]
      exact loadClass_of_neverStalls hlocation hnever

/-- A class whose reading stalls is not found by `tryLoadBootstrapClass`, like one that does not
exist. -/
theorem tryLoadBootstrapClass_of_stall
    (hbootstrap : jvm.getBootstrapResource (path name) = .ok (some location))
    (hlocation : location.openStream = .ok ⟨content, inputStream⟩)
    (h : ¬Channels.NeverStalls inputStream (inputStream.available 0)) :
    Returns (tryLoadBootstrapClass jvm name resolve passed)
      (.error .classNotFoundException passed) := by
  have hload : Returns (loadClass jvm (some location) name resolve passed)
      (.error .bufferUnderflowException passed) := loadClass_of_stall hlocation h
  obtain ⟨fuel, hfuel⟩ := hload
  refine ⟨fuel, ?_⟩
  simp only [tryLoadBootstrapClass, hbootstrap, hfuel, Option.map_some]

end Passes

/-! ## A stream with a low estimate -/

/-- Reads that give all there is room for, and never more than `bound` bytes that are said to be
available. -/
def cautious (content : List Byte) (bound : ℕ) (h : bound < 2 ^ 31) : InputStream content where
  toByteSource := .eager content
  available position := min bound (content.length - position)
  available_le _ := Nat.min_le_right _ _
  available_isInt _ := (Nat.min_le_left _ _).trans_lt h
  endValue_neg := rfl

/-- A virtual machine that defines a class from any bytes. -/
def anyBytes : ClassLoading (List Byte) where
  defineClass _ bytes := .ok bytes
  unsafeDefineClass _ bytes := .ok bytes
  resolveClass _ := .ok ⟨⟩
  getBootstrapResource _ := .ok none
  location _ := none

/-- The last of three bytes is not passed on if two are available at the beginning. -/
theorem last_byte_not_passed :
    Returns (loadClass anyBytes (some ⟨.ok ⟨[1, 2, 3], cautious [1, 2, 3] 2 (by decide)⟩⟩)
        (text "A") false []) (.ok [1, 2] [(text "A", [1, 2])]) ∧
      ¬PassesWhole anyBytes (cautious [1, 2, 3] 2 (by decide)) := by
  have hread : Returns (readBytes (cautious [1, 2, 3] 2 (by decide))) (.ok [1, 2]) := ⟨2, rfl⟩
  refine ⟨⟨2, rfl⟩, fun h => ?_⟩
  have heq := (stable_readBytes _).unique h.reading hread
  cases heq

end OwnClassLoader2

end LearnJava
