import LearnJava.Java.ByteSource
import LearnJava.Java.FileLock
import LearnJava.Java.Text

/-!
# `ReadFileThread`

`TestNIO/…/test/app/ReadFileThread.java` locks a region of a file, or all of it, reads once into a
buffer of the region's size and takes as many bytes from the buffer.  A region may reach beyond the
end of the file, and a read may give less than there is room for: the buffer then has fewer bytes
than are taken from it.

The size of a lock is a `long` and the size of the buffer an `int`, which makes a difference for a
whole file of `2 ^ 31` bytes or more.
-/

namespace LearnJava

/-- The fields of a `ReadFileThread`. -/
structure ReadFileThread where
  part : Bool
  position : ℕ
  size : ℕ
  share : Bool

/-- `new byte[n]` -/
def newByteArray (n : ℤ) : Except Throwable (List Byte) :=
  if n < 0 then .error .negativeArraySizeException else .ok (List.replicate n.toNat 0)

namespace ReadFileThread

/-- `new ReadFileThread(filePath, part, position, size, share, charset)` -/
def new (exists_ part : Bool) (position size : ℕ) (share : Bool) :
    Except Throwable ReadFileThread :=
  if !exists_ then .error .illegalArgumentException else .ok { part, position, size, share }

variable {content : List Byte} {τ : Type} (t : ReadFileThread)

/-- `getFileLock(fileChannel)`, for a channel that cannot be written. -/
def getFileLock (fileSize : ℕ) (contention : Contention) : Except Throwable (Option FileLock) :=
  if t.part then FileLock.tryLock false contention t.position t.size t.share
  else FileLock.tryLock false contention 0 fileSize t.share

/-- What follows the lock in `run`, with the position and the size of it. -/
def readAt (fileChannel : ByteSource content) (thePosition : ℕ) (theSize : ℤ) :
    Except Throwable (List Byte) := do
  let bytes ← newByteArray theSize
  let byteBuffer ← ByteBuffer.allocateInt theSize
  let byteBuffer ← byteBuffer.put (fileChannel.read thePosition byteBuffer.remaining).2
  let (bytes, _) ← byteBuffer.flip.get bytes.length
  return bytes

/-- `run()` up to the bytes of the string. -/
def readLocked (fileChannel : ByteSource content) (contention : Contention) :
    Except Throwable (List Byte) := do
  match ← t.getFileLock content.length contention with
  | none => .error (.runtimeExceptionWith "can not get file lock!!!")
  | some fileLock => readAt fileChannel fileLock.position (wrap32 fileLock.size)

/-- `run()`: the string it prints, which the charset decodes from the bytes. -/
def run (charset : List Byte → τ) (fileChannel : ByteSource content) (contention : Contention) :
    Except Throwable τ := do
  let bytes ← t.readLocked fileChannel contention
  return charset bytes

/-! ## The property -/

/-- Where the locked region starts. -/
def start : ℕ := if t.part then t.position else 0

/-- The size of the locked region. -/
def regionSize (fileSize : ℕ) : ℕ := if t.part then t.size else fileSize

/-- The bytes of the region that there are in the file. -/
def region (content : List Byte) : List Byte :=
  window content (min t.start content.length)
    (min (t.start + t.regionSize content.length) content.length)

/-- `run` decodes the bytes of the region and throws nothing. -/
structure DecodesRegion (charset : List Byte → τ) (fileChannel : ByteSource content)
    (contention : Contention) : Prop where
  bytes : t.readLocked fileChannel contention = .ok (t.region content)
  string : t.run charset fileChannel contention = .ok (charset (t.region content))

/-- The region is empty, or lies in the file, its size is an `int` and one read gives all of it. -/
def ReadAtOnce (fileChannel : ByteSource content) : Prop :=
  t.regionSize content.length = 0 ∨
    t.start + t.regionSize content.length ≤ content.length ∧
      t.regionSize content.length < 2 ^ 31 ∧
      fileChannel.count t.start (t.regionSize content.length) = t.regionSize content.length

/-! ## What is read -/

section Run

variable {t} {fileChannel : ByteSource content} {contention : Contention} {fileLock : FileLock}

lemma lock_eq (h : t.getFileLock content.length contention = .ok (some fileLock)) :
    fileLock.position = t.start ∧ fileLock.size = t.regionSize content.length := by
  unfold getFileLock at h
  unfold start regionSize
  split_ifs at h ⊢ <;> rw [FileLock.eq_of_tryLock h] <;> exact ⟨rfl, rfl⟩

lemma readLocked_of_lock (h : t.getFileLock content.length contention = .ok (some fileLock)) :
    t.readLocked fileChannel contention =
      readAt fileChannel t.start (wrap32 (t.regionSize content.length)) := by
  obtain ⟨hposition, hsize⟩ := lock_eq h
  rw [← hposition, ← hsize, readLocked, h, ok_bind]

lemma readAt_neg {n : ℤ} (position : ℕ) (h : n < 0) :
    readAt fileChannel position n = .error .negativeArraySizeException := by
  rw [readAt, newByteArray, if_pos h]
  rfl

/-- All that is read is what one read gives, if it is enough. -/
lemma readAt_natCast (position n : ℕ) :
    readAt fileChannel position n =
      if (fileChannel.read position n).2.length < n then .error .bufferUnderflowException
      else .ok (fileChannel.read position n).2 := by
  have hnonneg : ¬(n : ℤ) < 0 := (Int.natCast_nonneg n).not_gt
  have hle := fileChannel.length_read_le position n
  obtain ⟨b, hput, hwritten, -⟩ := ByteBuffer.put_written (b := .allocate n) hle
  rw [ByteBuffer.written_allocate, List.nil_append] at hwritten
  have hposition : b.position = (fileChannel.read position n).2.length := by
    rw [← b.length_written, hwritten]
  have hrun : readAt fileChannel position n =
      (b.flip.get n >>= fun r => .ok r.1 : Except Throwable (List Byte)) := by
    rw [readAt, newByteArray, if_neg hnonneg, ByteBuffer.allocateInt, if_neg hnonneg,
      Int.toNat_natCast]
    have hput' : (ByteBuffer.allocate n).put
        (fileChannel.read position (ByteBuffer.allocate n).remaining).2 = .ok b := hput
    simp only [bind, Except.bind, hput', List.length_replicate]
    rfl
  rw [hrun]
  split_ifs with hshort
  · rw [ByteBuffer.get_error (b.flip_remaining ▸ hposition ▸ hshort)]
    rfl
  · obtain ⟨b', hget, -⟩ := b.flip_get
    rw [hposition, hwritten, le_antisymm hle (not_lt.mp hshort)] at hget
    rw [hget]
    rfl

/-- A size that is no `int` makes the array too short, or no array at all. -/
lemma length_lt_of_readAt {position : ℕ} {size : ℤ} {bytes : List Byte}
    (h : readAt fileChannel position (wrap32 size) = .ok bytes) : bytes.length < 2 ^ 31 := by
  have hint := isInt_wrap32 size
  generalize wrap32 size = n at h hint
  rcases lt_or_ge n 0 with hneg | hnonneg
  · rw [readAt_neg position hneg] at h
    cases h
  · lift n to ℕ using hnonneg
    rw [readAt_natCast] at h
    split_ifs at h
    obtain rfl := Except.ok.inj h
    have hle := fileChannel.length_read_le position n
    have hlt := hint.2
    omega

lemma length_region_le (content : List Byte) (t : ReadFileThread) :
    (t.region content).length =
      min (t.start + t.regionSize content.length) content.length - min t.start content.length :=
  length_window (Nat.min_le_right _ _)

/-- One read that gives the whole region. -/
lemma read_eq_region (h : t.start + t.regionSize content.length ≤ content.length)
    (hcount : fileChannel.count t.start (t.regionSize content.length) =
      t.regionSize content.length) (hpos : 0 < t.regionSize content.length) :
    (fileChannel.read t.start (t.regionSize content.length)).2 = t.region content := by
  rw [fileChannel.read_more _ (by omega), hcount, region, Nat.min_eq_left h,
    Nat.min_eq_left (by omega), window, Nat.add_sub_cancel_left]

/-- `run` up to the bytes, for a region whose size is an `int`. -/
lemma readAt_eq_region_iff (hsize : t.regionSize content.length < 2 ^ 31) :
    readAt fileChannel t.start (wrap32 (t.regionSize content.length)) =
        .ok (t.region content) ↔ t.ReadAtOnce fileChannel := by
  rw [wrap32_of_range (by omega) (by omega), readAt_natCast, ReadAtOnce]
  rcases Nat.eq_zero_or_pos (t.regionSize content.length) with hzero | hpos
  · have hempty : t.region content = [] := by
      rw [← List.length_eq_zero_iff, length_region_le, hzero, Nat.add_zero, Nat.sub_self]
    have hread := fileChannel.length_read_le t.start 0
    rw [Nat.le_zero, List.length_eq_zero_iff] at hread
    rw [hzero, hempty, hread]
    exact iff_of_true rfl (.inl rfl)
  · by_cases hmore : t.start < content.length
    · have hlen := fileChannel.length_read (t.regionSize content.length) hmore
      have hle := fileChannel.count_le t.start (t.regionSize content.length)
      have hroom := fileChannel.count_le_room t.start (t.regionSize content.length)
      by_cases hcount : fileChannel.count t.start (t.regionSize content.length) =
          t.regionSize content.length
      · have hin : t.start + t.regionSize content.length ≤ content.length := by omega
        rw [if_neg (by omega), read_eq_region hin hcount hpos]
        exact iff_of_true rfl (.inr ⟨hin, hsize, hcount⟩)
      · rw [if_pos (by omega)]
        refine iff_of_false nofun ?_
        rintro (hzero | ⟨-, -, hall⟩)
        · omega
        · exact hcount hall
    · have hshort : (fileChannel.read t.start (t.regionSize content.length)).2.length <
          t.regionSize content.length := by
        rw [fileChannel.read_end _ (not_lt.mp hmore)]
        exact hpos
      rw [if_pos hshort]
      refine iff_of_false nofun ?_
      rintro (hzero | ⟨hin, -⟩) <;> omega

/-- **Reading.**  A thread that has its lock decodes the bytes of its region exactly if the region
is empty, or lies in the file, is no larger than an `int` and one read gives all of it. -/
theorem decodesRegion_iff (h : t.getFileLock content.length contention = .ok (some fileLock))
    (hsize : t.part = true → t.size < 2 ^ 31) (charset : List Byte → τ) :
    t.DecodesRegion charset fileChannel contention ↔ t.ReadAtOnce fileChannel := by
  have hiff : t.DecodesRegion charset fileChannel contention ↔
      readAt fileChannel t.start (wrap32 (t.regionSize content.length)) =
        .ok (t.region content) := by
    rw [← readLocked_of_lock h]
    refine ⟨fun hdecodes => hdecodes.bytes, fun hbytes => ⟨hbytes, ?_⟩⟩
    rw [run, hbytes]
    rfl
  rw [hiff]
  rcases lt_or_ge (t.regionSize content.length) (2 ^ 31) with hint | hlarge
  · exact readAt_eq_region_iff hint
  · have hwhole : t.part = false := by
      by_contra hpart
      rw [Bool.not_eq_false] at hpart
      rw [regionSize, if_pos hpart] at hlarge
      exact absurd (hsize hpart) (by omega)
    have hregion : t.regionSize content.length = content.length := by simp [regionSize, hwhole]
    have hstart : t.start = 0 := by simp [start, hwhole]
    refine iff_of_false (fun hbytes => ?_) ?_
    · have hlt := length_lt_of_readAt hbytes
      rw [length_region_le, hregion, hstart, Nat.zero_add, Nat.min_self, Nat.zero_min] at hlt
      omega
    · rintro (hzero | ⟨-, hlt, -⟩) <;> omega

end Run

/-- The bytes 3 and 4 of a file of five, which one read gives. -/
theorem decodesRegion_iff_inside :
    (⟨true, 2, 2, true⟩ : ReadFileThread).DecodesRegion id (.eager [1, 2, 3, 4, 5]) .free ↔
      (⟨true, 2, 2, true⟩ : ReadFileThread).ReadAtOnce (.eager [1, 2, 3, 4, 5]) :=
  decodesRegion_iff (show (⟨true, 2, 2, true⟩ : ReadFileThread).getFileLock 5 .free =
    .ok (some ⟨2, 2, true⟩) from rfl) (by decide) id

/-- The region reaches two bytes beyond the end of the file. -/
theorem region_beyond_end :
    (⟨true, 3, 4, true⟩ : ReadFileThread).getFileLock 5 .free = .ok (some ⟨3, 4, true⟩) ∧
      (⟨true, 3, 4, true⟩ : ReadFileThread).run id (.eager [1, 2, 3, 4, 5]) .free =
        .error .bufferUnderflowException ∧
      ¬(⟨true, 3, 4, true⟩ : ReadFileThread).DecodesRegion id (.eager [1, 2, 3, 4, 5]) .free := by
  have hrun : (⟨true, 3, 4, true⟩ : ReadFileThread).run id (.eager [1, 2, 3, 4, 5]) .free =
      .error .bufferUnderflowException := rfl
  refine ⟨rfl, hrun, fun h => ?_⟩
  rw [h.string] at hrun
  cases hrun

end ReadFileThread

end LearnJava
