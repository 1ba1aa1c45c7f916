import LearnJava.Java.Lang

/-!
# Byte buffers of `java.nio`

A buffer is an array of bytes with a position and a limit, which never leave their order.  Relative
reads and writes move the position, `clear` and `flip` set both; a read past the limit underflows
and a write past it overflows, and neither changes the buffer.

An `int` is four bytes, the highest one first.
-/

namespace LearnJava

/-- A byte. -/
abbrev Byte := UInt8

/-- The four bytes of an `int`. -/
def intBytes (x : ℤ) : List Byte :=
  let n := (x % 2 ^ 32).toNat
  [UInt8.ofNat (n / 2 ^ 24), UInt8.ofNat (n / 2 ^ 16), UInt8.ofNat (n / 2 ^ 8), UInt8.ofNat n]

@[simp] lemma length_intBytes (x : ℤ) : (intBytes x).length = 4 := rfl

/-- The `int` in four bytes. -/
def intOfBytes (bs : List Byte) : ℤ := wrap32 (bs.foldl (fun n b => n * 256 + b.toNat) 0)

/-- The four bytes of an `int` are read as this `int`. -/
lemma intOfBytes_intBytes {x : ℤ} (hlo : -2 ^ 31 ≤ x) (hhi : x < 2 ^ 31) :
    intOfBytes (intBytes x) = x := by
  have hrange : (x % 2 ^ 32).toNat < 2 ^ 32 := by omega
  have hvalue : ((x % 2 ^ 32).toNat : ℤ) = x % 2 ^ 32 := by omega
  simp only [intOfBytes, intBytes, List.foldl_cons, List.foldl_nil, UInt8.toNat_ofNat']
  generalize (x % 2 ^ 32).toNat = n at hrange hvalue
  have hbytes : (((0 * 256 + ((n / 2 ^ 24 % 2 ^ 8 : ℕ) : ℤ)) * 256 +
      (n / 2 ^ 16 % 2 ^ 8 : ℕ)) * 256 + (n / 2 ^ 8 % 2 ^ 8 : ℕ)) * 256 +
        (n % 2 ^ 8 : ℕ) = n := by
    omega
  rw [hbytes, hvalue, wrap32]
  omega

/-- The two bytes of a `char`. -/
def charBytes (c : CodeUnit) : List Byte := [UInt8.ofNat (c.toNat / 2 ^ 8), UInt8.ofNat c.toNat]

@[simp] lemma length_charBytes (c : CodeUnit) : (charBytes c).length = 2 := rfl

/-- `Arrays.copyOf(a, n)` for an array of bytes. -/
def copyOfBytes (a : List Byte) (n : ℕ) : List Byte := a.take n ++ List.replicate (n - a.length) 0

/-- A `java.nio.ByteBuffer`. -/
structure ByteBuffer where
  cells : List Byte
  position : ℕ
  limit : ℕ
  capacity : ℕ
  position_le : position ≤ limit
  limit_le : limit ≤ capacity
  length_cells : cells.length = capacity

namespace ByteBuffer

/-- `ByteBuffer.allocate(capacity)` -/
def allocate (capacity : ℕ) : ByteBuffer :=
  ⟨List.replicate capacity 0, 0, capacity, capacity, Nat.zero_le _, le_rfl, List.length_replicate⟩

/-- `ByteBuffer.allocate(capacity)` for a capacity that may be negative. -/
def allocateInt (capacity : ℤ) : Except Throwable ByteBuffer :=
  if capacity < 0 then .error .illegalArgumentException else .ok (allocate capacity.toNat)

/-- `clear()` -/
def clear (b : ByteBuffer) : ByteBuffer :=
  { b with position := 0, limit := b.capacity, position_le := Nat.zero_le _, limit_le := le_rfl }

/-- `flip()` -/
def flip (b : ByteBuffer) : ByteBuffer :=
  { b with
    position := 0, limit := b.position, position_le := Nat.zero_le _
    limit_le := b.position_le.trans b.limit_le }

/-- `remaining()` -/
def remaining (b : ByteBuffer) : ℕ := b.limit - b.position

/-- `hasRemaining()` -/
def hasRemaining (b : ByteBuffer) : Bool := b.position < b.limit

/-- `ByteBuffer.wrap(array, 0, length)` -/
def wrap (array : List Byte) (length : ℕ) (h : length ≤ array.length) : ByteBuffer :=
  ⟨array, 0, length, array.length, Nat.zero_le _, h, rfl⟩

/-- `get(dst)` for an array of `n` bytes: the bytes, and the buffer after them. -/
def get (b : ByteBuffer) (n : ℕ) : Except Throwable (List Byte × ByteBuffer) :=
  if h : n ≤ b.remaining then
    .ok ((b.cells.drop b.position).take n, { b with
      position := b.position + n
      position_le := by
        have hlimit := b.position_le
        unfold remaining at h
        omega })
  else .error .bufferUnderflowException

/-- `put(src)` for an array of bytes. -/
def put (b : ByteBuffer) (bs : List Byte) : Except Throwable ByteBuffer :=
  if h : bs.length ≤ b.remaining then
    .ok { b with
      cells := b.cells.take b.position ++ bs ++ b.cells.drop (b.position + bs.length)
      position := b.position + bs.length
      position_le := by
        have hlimit := b.position_le
        unfold remaining at h
        omega
      length_cells := by
        have hposition := b.position_le
        have hlimit := b.limit_le
        have hcells := b.length_cells
        unfold remaining at h
        simp only [List.length_append, List.length_take, List.length_drop]
        omega }
  else .error .bufferOverflowException

/-- `getInt()` -/
def getInt (b : ByteBuffer) : Except Throwable (ℤ × ByteBuffer) :=
  (b.get 4).map fun r => (intOfBytes r.1, r.2)

/-- `putInt(x)` -/
def putInt (b : ByteBuffer) (x : ℤ) : Except Throwable ByteBuffer := b.put (intBytes x)

/-- `putChar(c)` -/
def putChar (b : ByteBuffer) (c : CodeUnit) : Except Throwable ByteBuffer := b.put (charBytes c)

variable {b : ByteBuffer}

@[simp] lemma clear_remaining : b.clear.remaining = b.capacity := rfl

@[simp] lemma flip_remaining : b.flip.remaining = b.position := rfl

/-! ## What has been written, and what is left to read -/

/-- The bytes before the position. -/
def written (b : ByteBuffer) : List Byte := b.cells.take b.position

/-- The bytes from the position to the limit. -/
def content (b : ByteBuffer) : List Byte := (b.cells.drop b.position).take b.remaining

@[simp] lemma length_written (b : ByteBuffer) : b.written.length = b.position := by
  have hposition := b.position_le
  have hlimit := b.limit_le
  rw [written, List.length_take, b.length_cells]
  omega

@[simp] lemma length_content (b : ByteBuffer) : b.content.length = b.remaining := by
  have hlimit := b.limit_le
  rw [content, List.length_take, List.length_drop, b.length_cells, remaining]
  omega

@[simp] lemma written_allocate (capacity : ℕ) : (allocate capacity).written = [] := List.take_zero

@[simp] lemma written_clear (b : ByteBuffer) : b.clear.written = [] := List.take_zero

/-- `flip` gives what has been written to be read. -/
@[simp] lemma content_flip (b : ByteBuffer) : b.flip.content = b.written := by
  simp [content, written, flip, remaining]

@[simp] lemma content_wrap {array : List Byte} {length : ℕ} (h : length ≤ array.length) :
    (wrap array length h).content = array.take length := by
  simp [content, wrap, remaining]

lemma hasRemaining_eq (b : ByteBuffer) : b.hasRemaining = !b.content.isEmpty := by
  rw [hasRemaining, Bool.eq_iff_iff, Bool.not_eq_true', List.isEmpty_eq_false_iff,
    ← List.length_pos_iff, length_content, remaining, decide_eq_true_eq]
  exact Nat.sub_pos_iff_lt.symm

/-- A write appends to what has been written. -/
lemma put_written {bs : List Byte} (h : bs.length ≤ b.remaining) :
    ∃ b', b.put bs = .ok b' ∧ b'.written = b.written ++ bs ∧ b'.limit = b.limit ∧
      b'.capacity = b.capacity := by
  rw [put, dif_pos h]
  refine ⟨_, rfl, ?_, rfl, rfl⟩
  have hlength : (b.written ++ bs).length = b.position + bs.length := by
    rw [List.length_append, length_written]
  exact List.take_left' hlength

/-- A read takes the first bytes of what is left. -/
lemma get_content {n : ℕ} (h : n ≤ b.remaining) :
    ∃ b', b.get n = .ok (b.content.take n, b') ∧ b'.content = b.content.drop n ∧
      b'.position = b.position + n ∧ b'.limit = b.limit ∧ b'.capacity = b.capacity := by
  rw [get, dif_pos h, content, List.take_take, Nat.min_eq_left h]
  refine ⟨_, rfl, ?_, rfl, rfl, rfl⟩
  simp only [content, remaining, List.drop_take, List.drop_drop]
  congr 1
  omega

/-- `flip` gives all that has been written to a read for as many bytes. -/
lemma flip_get (b : ByteBuffer) :
    ∃ b', b.flip.get b.position = .ok (b.written, b') ∧ b'.capacity = b.capacity := by
  obtain ⟨b', hget, -, -, -, hcapacity⟩ := b.flip.get_content (n := b.position) le_rfl
  have hall : b.flip.content.take b.position = b.written := by
    rw [content_flip, ← b.length_written, List.take_length]
  rw [hall] at hget
  exact ⟨b', hget, hcapacity⟩

lemma getInt_take (h : 4 ≤ b.remaining) :
    ∃ b', b.getInt = .ok (intOfBytes (b.content.take 4), b') ∧ b'.content = b.content.drop 4 := by
  obtain ⟨b', hget, hcontent, -⟩ := b.get_content h
  exact ⟨b', by rw [getInt, hget]; rfl, hcontent⟩

/-- An `int` is read from its four bytes. -/
lemma getInt_content {x : ℤ} {bs : List Byte} (hx : -2 ^ 31 ≤ x ∧ x < 2 ^ 31)
    (h : b.content = intBytes x ++ bs) : ∃ b', b.getInt = .ok (x, b') ∧ b'.content = bs := by
  have hroom : 4 ≤ b.remaining := by
    rw [← b.length_content, h, List.length_append, length_intBytes]
    omega
  obtain ⟨b', hget, hcontent⟩ := b.getInt_take hroom
  refine ⟨b', ?_, ?_⟩
  · rw [hget, h, List.take_left' (length_intBytes x), intOfBytes_intBytes hx.1 hx.2]
  · rw [hcontent, h, List.drop_left' (length_intBytes x)]

lemma put_error {bs : List Byte} (h : b.remaining < bs.length) :
    b.put bs = .error .bufferOverflowException := by
  rw [put, dif_neg (Nat.not_le.mpr h)]

lemma putInt_written (x : ℤ) (h : 4 ≤ b.remaining) :
    ∃ b', b.putInt x = .ok b' ∧ b'.written = b.written ++ intBytes x ∧ b'.limit = b.limit ∧
      b'.capacity = b.capacity := by
  rw [putInt]
  exact put_written h

lemma putInt_error (x : ℤ) (h : b.remaining < 4) :
    b.putInt x = .error .bufferOverflowException := by
  rw [putInt]
  exact put_error h

/-- `char`s that are put one after the other. -/
lemma foldlM_putChar_written {cs : List CodeUnit} (h : 2 * cs.length ≤ b.remaining) :
    ∃ b', cs.foldlM putChar b = .ok b' ∧ b'.written = b.written ++ cs.flatMap charBytes := by
  induction cs generalizing b with
  | nil => exact ⟨b, rfl, by simp⟩
  | cons c cs ih =>
      rw [List.length_cons] at h
      have hroom : (charBytes c).length ≤ b.remaining := by
        rw [length_charBytes]
        omega
      obtain ⟨b₁, hput, hwritten, hlimit, -⟩ := b.put_written hroom
      have hposition : b₁.position = b.position + 2 := by
        have hlength := congrArg List.length hwritten
        simpa using hlength
      have hroom : 2 * cs.length ≤ b₁.remaining := by
        unfold remaining at *
        omega
      obtain ⟨b', hrest, hwritten'⟩ := ih hroom
      refine ⟨b', ?_, ?_⟩
      · rw [List.foldlM_cons, putChar, hput]
        exact hrest
      · rw [hwritten', hwritten, List.flatMap_cons, List.append_assoc]

/-- Nothing else is thrown than for want of room. -/
lemma error_of_foldlM_putChar {cs : List CodeUnit} {e : Throwable}
    (h : cs.foldlM putChar b = .error e) : e = .bufferOverflowException := by
  induction cs generalizing b with
  | nil => cases h
  | cons c cs ih =>
      rw [List.foldlM_cons, putChar] at h
      by_cases hroom : (charBytes c).length ≤ b.remaining
      · obtain ⟨b₁, hput, -⟩ := b.put_written hroom
        rw [hput] at h
        exact ih h
      · rw [put_error (not_le.mp hroom)] at h
        exact (Except.error.inj h).symm

/-- They have been put if nothing was thrown. -/
lemma written_of_foldlM_putChar {cs : List CodeUnit} {b' : ByteBuffer}
    (h : cs.foldlM putChar b = .ok b') : b'.written = b.written ++ cs.flatMap charBytes := by
  induction cs generalizing b with
  | nil =>
      obtain rfl := Except.ok.inj h
      simp
  | cons c cs ih =>
      rw [List.foldlM_cons, putChar] at h
      by_cases hroom : (charBytes c).length ≤ b.remaining
      · obtain ⟨b₁, hput, hwritten, -⟩ := b.put_written hroom
        rw [hput] at h
        rw [ih h, hwritten, List.flatMap_cons, List.append_assoc]
      · rw [put_error (not_le.mp hroom)] at h
        cases h

/-! ## Buffers that are clear -/

/-- A buffer of the given capacity that nothing has been written to since it was cleared. -/
structure IsClear (capacity : ℕ) (b : ByteBuffer) : Prop where
  written : b.written = []
  limit : b.limit = capacity
  capacity : b.capacity = capacity

lemma isClear_allocate (capacity : ℕ) : IsClear capacity (allocate capacity) :=
  ⟨written_allocate capacity, rfl, rfl⟩

lemma isClear_clear {capacity : ℕ} (h : b.capacity = capacity) : IsClear capacity b.clear :=
  ⟨b.written_clear, h, h⟩

lemma IsClear.remaining {capacity : ℕ} (h : IsClear capacity b) : b.remaining = capacity := by
  have hposition : b.position = 0 := by
    rw [← b.length_written, h.written, List.length_nil]
  rw [ByteBuffer.remaining, hposition, h.limit, Nat.sub_zero]

/-! ## Reads and writes with room for them -/

/-- A write with room for it. -/
lemma put_ok {bs : List Byte} (h : bs.length ≤ b.remaining) :
    ∃ b', b.put bs = .ok b' ∧ b'.position = b.position + bs.length ∧ b'.limit = b.limit ∧
      b'.capacity = b.capacity ∧ (bs = [] → b'.cells = b.cells) := by
  rw [put, dif_pos h]
  refine ⟨_, rfl, rfl, rfl, rfl, ?_⟩
  rintro rfl
  simp

/-- A read with enough bytes for it. -/
lemma get_ok {n : ℕ} (h : n ≤ b.remaining) :
    ∃ b', b.get n = .ok ((b.cells.drop b.position).take n, b') ∧ b'.position = b.position + n ∧
      b'.limit = b.limit ∧ b'.capacity = b.capacity ∧ b'.cells = b.cells := by
  rw [get, dif_pos h]
  exact ⟨_, rfl, rfl, rfl, rfl, rfl⟩

lemma get_error {n : ℕ} (h : b.remaining < n) : b.get n = .error .bufferUnderflowException := by
  rw [get, dif_neg (Nat.not_le.mpr h)]

lemma getInt_ok (h : 4 ≤ b.remaining) : ∃ x b', b.getInt = .ok (x, b') := by
  obtain ⟨b', hget, -⟩ := b.get_ok h
  exact ⟨_, b', by rw [getInt, hget]; rfl⟩

lemma getInt_error (h : b.remaining < 4) : b.getInt = .error .bufferUnderflowException := by
  rw [getInt, get_error h]
  rfl

end ByteBuffer

end LearnJava
