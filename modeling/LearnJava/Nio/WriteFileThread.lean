import LearnJava.Foundation.Patch
import LearnJava.Java.ByteBuffer
import LearnJava.Java.FileLock
import LearnJava.Java.Text

/-!
# `WriteFileThread`

`TestNIO/…/test/app/WriteFileThread.java` locks a file and writes the bytes of a string into it.  It
asks the lock for the position to write at.  A lock on the region of the string has the position
that the thread was given; a lock on the whole file has the position 0, and the string is written
there whatever the thread's position is.

The state of `run` is the content of the file.
-/

namespace LearnJava

/-- The fields of a `WriteFileThread` that `run` uses. -/
structure WriteFileThread where
  lockHoleFile : Bool
  position : ℕ
  str2Write : Text
  strBytes2Write : List Byte

namespace WriteFileThread

/-- What is written for want of a string. -/
def strs2Write : List Text := [text "LiSA", text "蓝井艾露", text "さユり", text "ユリカ"]

/-- The string that is written; `index` is the random number that is drawn. -/
def chosen (str2Write : Option Text) (index : Fin strs2Write.length) : Text :=
  match str2Write with
  | none => strs2Write.get index
  | some [] => strs2Write.get index
  | some s => s

/-- `new WriteFileThread(filePath, lockHoleFile, position, str2Write, charset)`, where the charset
is what `getBytes` makes of strings. -/
def new (getBytes : Text → List Byte) (lockHoleFile : Bool) (position : ℕ)
    (str2Write : Option Text) (index : Fin strs2Write.length) : WriteFileThread where
  lockHoleFile
  position
  str2Write := chosen str2Write index
  strBytes2Write := getBytes (chosen str2Write index)

variable (t : WriteFileThread)

/-- `getFileLock(fileChannel)`, for a channel that can be written. -/
def getFileLock (contention : Contention) : Except Throwable (Option FileLock) :=
  if t.lockHoleFile then FileLock.tryLock true contention 0 FileLock.wholeFile false
  else FileLock.tryLock true contention t.position t.strBytes2Write.length false

/-- `run()`, where `fileChannel.write` writes all of the buffer. -/
def run (contention : Contention) : Method (List Byte) PUnit := do
  match ← ofExcept (t.getFileLock contention) with
  | none => throw (.runtimeExceptionWith "can not get file lock!!!")
  | some fileLock =>
    let thePosition := fileLock.position
    let byteBuffer ← ofExcept ((ByteBuffer.allocate t.strBytes2Write.length).put t.strBytes2Write)
    modify fun file => patch 0 file thePosition byteBuffer.flip.content

/-! ## The property -/

/-- The file holds the bytes at the position, zeros in the gap before them and what it held
before everywhere else. -/
structure WrittenAt (file : List Byte) (position : ℕ) (bytes after : List Byte) : Prop where
  written : ∀ i < bytes.length, after[position + i]? = bytes[i]?
  gap : bytes ≠ [] → ∀ i, file.length ≤ i → i < position → after[i]? = some 0
  before : ∀ i, i < file.length → i < position → after[i]? = file[i]?
  behind : ∀ i, position + bytes.length ≤ i → after[i]? = file[i]?

/-- Whenever a thread gets its lock and `run` succeeds, the string is where it belongs. -/
def WritesRight (t : WriteFileThread) (file : List Byte) : Prop :=
  ∀ contention after, (t.run contention).run file = .ok ⟨⟩ after →
    WrittenAt file t.position t.strBytes2Write after

/-- The file begins with the first `position` of the bytes already, and when all of them are at its
beginning they are found at the position too. -/
def SameAtStart (file : List Byte) (position : ℕ) (bytes : List Byte) : Prop :=
  bytes.take position <+: file ∧ bytes <+: (bytes ++ file.drop bytes.length).drop position

instance (file : List Byte) (position : ℕ) (bytes : List Byte) :
    Decidable (SameAtStart file position bytes) := inferInstanceAs (Decidable (_ ∧ _))

/-! ## What is written, and where -/

section Run

variable {t : WriteFileThread} {contention : Contention} {fileLock : FileLock}

/-- A thread that has its lock writes the bytes where the lock is. -/
lemma run_of_lock (h : t.getFileLock contention = .ok (some fileLock)) (file : List Byte) :
    (t.run contention).run file = .ok ⟨⟩ (patch 0 file fileLock.position t.strBytes2Write) := by
  obtain ⟨b, hput, hwritten, -⟩ :=
    ByteBuffer.put_written (b := .allocate t.strBytes2Write.length) le_rfl
  rw [ByteBuffer.written_allocate, List.nil_append] at hwritten
  unfold run
  rw [bind_of_run (ofExcept_run_ok h file)]
  dsimp only
  rw [bind_of_run (ofExcept_run_ok hput file), b.content_flip, hwritten]
  rfl

/-- A `run` that succeeds had its lock. -/
lemma exists_lock_of_run {file after : List Byte}
    (h : (t.run contention).run file = .ok ⟨⟩ after) :
    ∃ fileLock, t.getFileLock contention = .ok (some fileLock) := by
  obtain ⟨lock, file₁, hcall, hrest⟩ := exists_of_bind_run h
  cases lock with
  | none => cases hrest
  | some fileLock => exact ⟨fileLock, (eq_ok_of_ofExcept_run hcall).1⟩

/-- Where the lock is. -/
lemma position_of_lock (h : t.getFileLock contention = .ok (some fileLock)) :
    fileLock.position = if t.lockHoleFile then 0 else t.position := by
  unfold getFileLock at h
  split_ifs at h ⊢ <;> rw [FileLock.eq_of_tryLock h]

end Run

/-! ## When this is the right place -/

variable {file bytes : List Byte} {position : ℕ}

lemma writtenAt_patch (file : List Byte) (position : ℕ) (bytes : List Byte) :
    WrittenAt file position bytes (patch 0 file position bytes) := by
  by_cases hnil : bytes = []
  · subst hnil
    exact ⟨fun i hi => absurd hi (Nat.not_lt_zero i), fun h => absurd rfl h, fun _ _ _ => rfl,
      fun _ _ => rfl⟩
  · refine ⟨fun i hi => ?_, fun _ i hin hi => ?_, fun i hin hi => ?_, fun i hi => ?_⟩
    · rw [getElem?_patch hnil, if_neg (by omega), if_pos (by omega), Nat.add_sub_cancel_left]
    · rw [getElem?_patch hnil, if_pos hi, if_neg (Nat.not_lt.mpr hin)]
    · rw [getElem?_patch hnil, if_pos hi, if_pos hin]
    · rw [getElem?_patch hnil, if_neg (by omega), if_neg (Nat.not_lt.mpr hi)]

/-- What is found at a position behind the beginning was in the file. -/
lemma length_le_of_found (hpos : 0 < position) (hnil : bytes ≠ [])
    (h : bytes <+: (bytes ++ file.drop bytes.length).drop position) :
    position + bytes.length ≤ file.length := by
  have hle := h.length_le
  have hbytes := List.length_pos_iff.mpr hnil
  simp only [List.length_drop, List.length_append] at hle
  omega

/-- Bytes that are written at the beginning are where they belong exactly if the file comes to the
same. -/
lemma writtenAt_start_iff :
    WrittenAt file position bytes (patch 0 file 0 bytes) ↔ SameAtStart file position bytes := by
  have hfound : bytes <+: (bytes ++ file.drop bytes.length).drop position ↔
      ∀ i < bytes.length, (patch 0 file 0 bytes)[position + i]? = bytes[i]? := by
    rw [prefix_iff_forall_lt, patch_zero]
    simp only [List.getElem?_drop]
  have hbegin : bytes.take position <+: file ↔
      ∀ i < bytes.length, i < position → file[i]? = bytes[i]? := by
    rw [prefix_iff_forall_lt, List.length_take]
    refine forall_congr' fun i => ?_
    rw [Nat.lt_min, and_comm, and_imp]
    refine forall₂_congr fun hi hposition => ?_
    rw [List.getElem?_take_of_lt hposition]
  rw [SameAtStart, hfound, hbegin]
  constructor
  · intro h
    refine ⟨fun i hi hposition => ?_, h.written⟩
    have hnil : bytes ≠ [] := List.length_pos_iff.mp (by omega)
    have hlength := length_le_of_found (by omega) hnil (hfound.mpr h.written)
    rw [← h.before i (by omega) hposition, getElem?_patch_zero, if_pos hi]
  · rintro ⟨hsame, hwritten⟩
    refine ⟨hwritten, fun hnil i hin hposition => ?_, fun i hin hposition => ?_, fun i hi => ?_⟩
    · have hlength := length_le_of_found (by omega) hnil (hfound.mpr hwritten)
      omega
    · rw [getElem?_patch_zero]
      split_ifs with hi
      · exact (hsame i hi hposition).symm
      · rfl
    · rw [getElem?_patch_zero, if_neg (by omega)]

/-- **Writing.**  A thread that is made for a string, a position and any charset writes the string
where it belongs exactly if it locks the region, or the file comes to the same with the string at
its beginning. -/
theorem writesRight_iff (getBytes : Text → List Byte) (file : List Byte) (lockHoleFile : Bool)
    (position : ℕ) {s : Text} (hs : s ≠ []) (index : Fin strs2Write.length) :
    (new getBytes lockHoleFile position (some s) index).WritesRight file ↔
      lockHoleFile = false ∨ SameAtStart file position (getBytes s) := by
  have hbytes :
      (new getBytes lockHoleFile position (some s) index).strBytes2Write = getBytes s := by
    cases s with
    | nil => exact absurd rfl hs
    | cons c s => rfl
  cases lockHoleFile with
  | false =>
      refine iff_of_true (fun contention after h => ?_) (.inl rfl)
      obtain ⟨fileLock, hlock⟩ := exists_lock_of_run h
      rw [run_of_lock hlock file, position_of_lock hlock] at h
      obtain ⟨-, rfl⟩ := EStateM.Result.ok.inj h
      exact writtenAt_patch file _ _
  | true =>
      rw [WritesRight, hbytes, ← writtenAt_start_iff]
      constructor
      · intro h
        have hlock : (new getBytes true position (some s) index).getFileLock .free =
            .ok (some ⟨0, FileLock.wholeFile, false⟩) := rfl
        have hrun := run_of_lock hlock file
        rw [hbytes] at hrun
        exact .inr (h .free _ hrun)
      · rintro (⟨⟨⟩⟩ | hsame) contention after h
        obtain ⟨fileLock, hlock⟩ := exists_lock_of_run h
        rw [run_of_lock hlock file, position_of_lock hlock, hbytes] at h
        obtain ⟨-, rfl⟩ := EStateM.Result.ok.inj h
        exact hsame

theorem writesRight_iff_region :
    (new (fun _ => [7]) false 2 (some [76]) ⟨0, by decide⟩).WritesRight [1] ↔
      false = false ∨ SameAtStart [1] 2 [7] :=
  writesRight_iff (fun _ => [7]) [1] false 2 (List.cons_ne_nil 76 []) ⟨0, by decide⟩

/-- With the whole file locked, two bytes for the position 3 overwrite the first two. -/
theorem whole_file_writes_at_start :
    ((new (fun _ => [7, 8]) true 3 (some [76]) ⟨0, by decide⟩).run .free).run [1, 2, 3, 4] =
        .ok ⟨⟩ [7, 8, 3, 4] ∧
      ¬(new (fun _ => [7, 8]) true 3 (some [76]) ⟨0, by decide⟩).WritesRight [1, 2, 3, 4] := by
  refine ⟨rfl, fun h => ?_⟩
  have hwritten := (h .free _ rfl).written 0 (by decide)
  cases hwritten

end WriteFileThread

end LearnJava
