import LearnJava.Java.ByteSource

/-!
# The `read()` methods of the read tests

`io/app` has four ways to read a file to its end and to count the bytes: `FileReadTest` and
`BufferedReadTest` read from a stream, `FileChanelReadTest` from a channel into a buffer, and
`MappedReadTest` from the mapped file.  Each is a loop whose state has the bytes that have gone
through the array `readBytes`, and `allCount`.

A read from a stream may give any number of bytes, and the first two count what they got.  The other
two copy from a buffer with `get(readBytes)`, which takes as many bytes as the array has, and throws
when there are fewer.  `MappedReadTest` counts up to 500 of them in any case.
-/

namespace LearnJava

namespace ReadTest

open Fuel (Returns)

variable {content : List Byte}

/-- The bytes that have gone through `readBytes`, and `allCount`. -/
structure Reading where
  received : List Byte
  allCount : ℤ
  deriving DecidableEq

/-- What a `read()` starts with. -/
def Reading.start : Reading := ⟨[], 0⟩

/-! ## The methods -/

/-- A pass of `for(…;(size = inputStream.read(readBytes)) > 0;) allCount += size`, for an array of
`length` bytes. -/
def streamPass (inputStream : ByteSource content) (length : ℕ) (s : Reading) :
    Except Throwable (Reading ⊕ Reading) :=
  let (size, bytes) := inputStream.read s.received.length length
  if 0 < size then .ok (.inl ⟨s.received ++ bytes, wrap32 (s.allCount + size)⟩) else .ok (.inr s)

/-- `read()` of `FileReadTest`, whose array has 500 bytes whatever `size` is. -/
def fileRead (fileInputStream : ByteSource content) : ℕ → Option (Except Throwable Reading) :=
  Loop.run (streamPass fileInputStream 500) .start

/-- `read()` of `BufferedReadTest`.  The stream's constructor refuses a buffer of no bytes. -/
def bufferedRead (size bufferedSize : ℕ) (bufferedInputStream : ByteSource content) (fuel : ℕ) :
    Option (Except Throwable Reading) :=
  if bufferedSize = 0 then some (.error .illegalArgumentException)
  else Loop.run (streamPass bufferedInputStream size) .start fuel

/-- The variables of `FileChanelReadTest`, with the channel's position. -/
structure ChannelReading extends Reading where
  position : ℕ
  byteBuffer : ByteBuffer

/-- A pass of the loop of `FileChanelReadTest`. -/
def channelPass (fileChannel : ByteSource content) (size : ℕ) (s : ChannelReading) :
    Except Throwable (ChannelReading ⊕ Reading) :=
  let (readCount, bytes) := fileChannel.read s.position s.byteBuffer.remaining
  if 0 < readCount then do
    let byteBuffer ← s.byteBuffer.put bytes
    let (readBytes, byteBuffer) ← byteBuffer.flip.get size
    return .inl
      { received := s.received ++ readBytes
        allCount := wrap32 (s.allCount + readCount)
        position := s.position + bytes.length
        byteBuffer := byteBuffer.clear }
  else return .inr s.toReading

/-- `read()` of `FileChanelReadTest` -/
def channelRead (size : ℕ) (fileChannel : ByteSource content) :
    ℕ → Option (Except Throwable Reading) :=
  Loop.run (channelPass fileChannel size) ⟨.start, 0, .allocate size⟩

/-- The variables of `MappedReadTest`. -/
structure MappedReading extends Reading where
  mappedByteBuffer : ByteBuffer

/-- A pass of the loop of `MappedReadTest`. -/
def mappedPass (size : ℕ) (s : MappedReading) : Except Throwable (MappedReading ⊕ Reading) :=
  if s.mappedByteBuffer.hasRemaining then do
    let readCount := min 500 s.mappedByteBuffer.remaining
    let (readBytes, mappedByteBuffer) ← s.mappedByteBuffer.get size
    return .inl
      { received := s.received ++ readBytes
        allCount := wrap32 (s.allCount + readCount)
        mappedByteBuffer }
  else return .inr s.toReading

/-- The size that is mapped is not beyond the file. -/
lemma size_le (content : List Byte) : content.length ≤ content.length := le_rfl

/-- `fileChannel.map(READ_ONLY, 0, fileChannel.size())` -/
def map (content : List Byte) : ByteBuffer := .wrap content content.length (size_le content)

/-- `mappedByteBuffer.load()` brings the pages into memory. -/
def load (mappedByteBuffer : ByteBuffer) : ByteBuffer := mappedByteBuffer

/-- `read()` of `MappedReadTest` -/
def mappedRead (size : ℕ) (needLoad : Bool) (content : List Byte) :
    ℕ → Option (Except Throwable Reading) :=
  let mappedByteBuffer := map content
  Loop.run (mappedPass size) ⟨.start, if needLoad then load mappedByteBuffer else mappedByteBuffer⟩

/-- A `read()` returns, has read the whole file, and counts its bytes. -/
def ReadsWhole (content : List Byte) (read : ℕ → Option (Except Throwable Reading)) : Prop :=
  Returns read (.ok ⟨content, content.length⟩)

/-! ## Reading from a stream -/

/-- A loop over a stream with room for some bytes reads the whole file and counts it. -/
lemma stream_reads (hlength : content.length < 2 ^ 31) (inputStream : ByteSource content)
    {length : ℕ} (hroom : 0 < length) :
    ReadsWhole content (Loop.run (streamPass inputStream length) .start) := by
  suffices hloop : ∃ x, Returns (Loop.run (streamPass inputStream length) .start) x ∧
      x = .ok ⟨content, content.length⟩ by
    obtain ⟨x, hreturns, rfl⟩ := hloop
    exact hreturns
  refine Loop.returns_of_variant
    (I := fun s : Reading =>
      s.received = content.take s.received.length ∧ s.allCount = s.received.length)
    (fun s => content.length - s.received.length) ?_ Reading.start ⟨List.take_zero.symm, rfl⟩
  rintro ⟨received, allCount⟩ ⟨hreceived, hcount⟩
  dsimp only at hreceived hcount
  subst hcount
  by_cases hmore : received.length < content.length
  · have hpos := inputStream.count_pos _ _ hmore hroom
    have hle := inputStream.count_le received.length length
    have htake := inputStream.take_append_read length hmore
    have hlen := inputStream.length_read length hmore
    rw [← hreceived] at htake
    have hfst := inputStream.fst_read length hmore
    have hsize : 0 < (inputStream.read received.length length).1 := by
      rw [hfst]
      exact_mod_cast hpos
    have hnext : (received ++ (inputStream.read received.length length).2).length =
        received.length + inputStream.count received.length length := by
      rw [List.length_append, hlen]
    simp only [streamPass, if_pos hsize, Loop.Ensures]
    refine ⟨⟨?_, ?_⟩, ?_⟩
    · rw [hnext, htake]
    · rw [hnext, hfst, wrap32_of_range (by omega) (by omega), Nat.cast_add]
    · rw [hnext]
      omega
  · have hend := not_lt.mp hmore
    have hwhole : received = content := by rw [hreceived, List.take_of_length_le hend]
    have hstop : ¬0 < (inputStream.read received.length length).1 := by
      rw [inputStream.read_end length hend]
      exact inputStream.endValue_le.not_gt
    simp only [streamPass, if_neg hstop, Loop.Ensures]
    rw [hwhole]

/-! ## Reading from a channel -/

/-- Every read of the channel fills a buffer of `size` bytes. -/
def Fills (fileChannel : ByteSource content) (size : ℕ) : Prop :=
  ∀ k, k * size < content.length → fileChannel.count (k * size) size = size

/-- The buffer is as `clear` leaves it. -/
structure Cleared (size : ℕ) (b : ByteBuffer) : Prop where
  remaining_eq : b.remaining = size
  capacity_eq : b.capacity = size
  written_eq : b.written = []

lemma cleared_allocate (size : ℕ) : Cleared size (.allocate size) :=
  ⟨rfl, rfl, ByteBuffer.written_allocate size⟩

lemma cleared_clear {size : ℕ} {b : ByteBuffer} (h : b.capacity = size) : Cleared size b.clear :=
  ⟨h, h, b.written_clear⟩

section Channel

variable {fileChannel : ByteSource content} {size : ℕ} {s : ChannelReading}

/-- The buffer holds what was read. -/
lemma put_cleared (hb : Cleared size s.byteBuffer) {bytes : List Byte}
    (hle : bytes.length ≤ size) :
    ∃ b, s.byteBuffer.put bytes = .ok b ∧ b.written = bytes ∧ b.capacity = size := by
  obtain ⟨b, hput, hwritten, -, hcapacity⟩ :=
    ByteBuffer.put_written (show bytes.length ≤ s.byteBuffer.remaining from
      hb.remaining_eq.symm ▸ hle)
  rw [hb.written_eq, List.nil_append] at hwritten
  exact ⟨b, hput, hwritten, hcapacity.trans hb.capacity_eq⟩

/-- A read that fills the buffer. -/
lemma channelPass_full (hb : Cleared size s.byteBuffer) (hmore : s.position < content.length)
    (hsize : 0 < size) (hcount : fileChannel.count s.position size = size) :
    ∃ b, Cleared size b ∧ channelPass fileChannel size s = .ok (.inl
      ⟨⟨s.received ++ (fileChannel.read s.position size).2, wrap32 (s.allCount + size)⟩,
        s.position + size, b⟩) := by
  have hlen := fileChannel.length_read size hmore
  have hfst := fileChannel.fst_read size hmore
  rw [hcount] at hlen hfst
  obtain ⟨b, hput, hwritten, hcapacity⟩ := put_cleared hb hlen.le
  have hposition : b.position = size := by rw [← b.length_written, hwritten, hlen]
  obtain ⟨b', hget, hcapacity'⟩ := b.flip_get
  rw [hposition, hwritten] at hget
  refine ⟨b'.clear, cleared_clear (hcapacity'.trans hcapacity), ?_⟩
  have hpos : 0 < (fileChannel.read s.position size).1 := by
    rw [hfst]
    exact_mod_cast hsize
  simp only [channelPass, hb.remaining_eq, if_pos hpos, hput, bind, Except.bind, hget]
  rw [hfst, hlen]
  rfl

/-- A read that does not fill it. -/
lemma channelPass_short (hb : Cleared size s.byteBuffer) (hmore : s.position < content.length)
    (hsize : 0 < size) (hcount : fileChannel.count s.position size ≠ size) :
    channelPass fileChannel size s = .error .bufferUnderflowException := by
  have hpositive := fileChannel.count_pos _ _ hmore hsize
  have hroom := fileChannel.count_le_room s.position size
  have hlen := fileChannel.length_read size hmore
  have hfst := fileChannel.fst_read size hmore
  obtain ⟨b, hput, hwritten, -⟩ := put_cleared hb (hlen.le.trans hroom)
  have hremaining : b.flip.remaining < size := by
    rw [b.flip_remaining, ← b.length_written, hwritten, hlen]
    omega
  have hpos : 0 < (fileChannel.read s.position size).1 := by
    rw [hfst]
    exact_mod_cast hpositive
  simp only [channelPass, hb.remaining_eq, if_pos hpos, hput, bind, Except.bind,
    ByteBuffer.get_error hremaining]

/-- The reads before have filled the buffer. -/
structure FilledSoFar (fileChannel : ByteSource content) (size k : ℕ) (s : ChannelReading) :
    Prop where
  position_eq : s.position = k * size
  position_le : s.position ≤ content.length
  received_eq : s.received = content.take s.position
  allCount_eq : s.allCount = s.position
  cleared : Cleared size s.byteBuffer
  filled : ∀ j < k, fileChannel.count (j * size) size = size

lemma FilledSoFar.next {k : ℕ} (h : FilledSoFar fileChannel size k s)
    (hlength : content.length < 2 ^ 31) (hmore : s.position < content.length)
    (hcount : fileChannel.count s.position size = size) {b : ByteBuffer} (hb : Cleared size b) :
    FilledSoFar fileChannel size (k + 1)
      ⟨⟨s.received ++ (fileChannel.read s.position size).2, wrap32 (s.allCount + size)⟩,
        s.position + size, b⟩ := by
  have hle := fileChannel.count_le s.position size
  have hin : s.position + size ≤ content.length := by omega
  refine ⟨?_, hin, ?_, ?_, hb, ?_⟩
  · dsimp only
    rw [h.position_eq, Nat.succ_mul]
  · dsimp only
    rw [h.received_eq, fileChannel.take_append_read size hmore, hcount]
  · dsimp only
    rw [h.allCount_eq, wrap32_of_range (by omega) (by omega), Nat.cast_add]
  · intro j hj
    rcases Nat.lt_succ_iff_lt_or_eq.mp hj with hlt | rfl
    · exact h.filled j hlt
    · rw [← h.position_eq, hcount]

/-- How `FileChanelReadTest` ends. -/
lemma channel_ends (hlength : content.length < 2 ^ 31) (fileChannel : ByteSource content)
    (hsize : 0 < size) :
    ∃ x, Returns (channelRead size fileChannel) x ∧
      (Fills fileChannel size ∧ x = .ok ⟨content, content.length⟩ ∨
        ¬Fills fileChannel size ∧ x = .error .bufferUnderflowException) := by
  refine Loop.returns_of_variant
    (I := fun s : ChannelReading => ∃ k, FilledSoFar fileChannel size k s)
    (fun s => content.length - s.position) ?_ _
    ⟨0, (Nat.zero_mul size).symm, Nat.zero_le _, List.take_zero.symm, rfl, cleared_allocate size,
      fun j hj => absurd hj (Nat.not_lt_zero j)⟩
  rintro s ⟨k, h⟩
  by_cases hmore : s.position < content.length
  · by_cases hcount : fileChannel.count s.position size = size
    · obtain ⟨b, hb, hpass⟩ := channelPass_full h.cleared hmore hsize hcount
      rw [hpass]
      refine ⟨⟨k + 1, h.next hlength hmore hcount hb⟩, ?_⟩
      dsimp only
      omega
    · rw [channelPass_short h.cleared hmore hsize hcount]
      refine .inr ⟨fun hfills => hcount ?_, rfl⟩
      rw [h.position_eq] at hmore ⊢
      exact hfills k hmore
  · have hend := not_lt.mp hmore
    have hstop : ¬0 < (fileChannel.read s.position s.byteBuffer.remaining).1 := by
      rw [fileChannel.read_end _ hend]
      exact fileChannel.endValue_le.not_gt
    have hwhole : s.toReading = ⟨content, content.length⟩ := by
      have hposition : s.position = content.length := h.position_le.antisymm hend
      have hreceived := h.received_eq
      have hallCount := h.allCount_eq
      rw [hposition] at hallCount
      rw [List.take_of_length_le hend] at hreceived
      rw [← hreceived] at hallCount ⊢
      rw [← hallCount]
    simp only [channelPass, if_neg hstop, Loop.Ensures, pure, Except.pure]
    refine .inl ⟨fun j hj => h.filled j ?_, by rw [hwhole]⟩
    by_contra hle
    have hmul := Nat.mul_le_mul_right size (not_lt.mp hle)
    rw [← h.position_eq] at hmul
    omega

/-- `FileChanelReadTest` reads the whole file exactly if every read fills the buffer. -/
lemma channel_reads_iff (hlength : content.length < 2 ^ 31) (fileChannel : ByteSource content)
    (hsize : 0 < size) :
    ReadsWhole content (channelRead size fileChannel) ↔ Fills fileChannel size := by
  obtain ⟨x, hreturns, ⟨hfills, rfl⟩ | ⟨hshort, rfl⟩⟩ := channel_ends hlength fileChannel hsize
  · exact iff_of_true hreturns hfills
  · refine iff_of_false (fun h => ?_) hshort
    cases (Loop.stable_run _ _).unique h hreturns

end Channel

/-! ## Reading the mapped file -/

/-- What `allCount` counts of `k` arrays of `size` bytes that are left: each as if it had 500, or
all that is left. -/
def counted (size : ℕ) : ℕ → ℕ
  | 0 => 0
  | k + 1 => min 500 ((k + 1) * size) + counted size k

section Mapped

variable {size : ℕ} {s : MappedReading}

lemma mappedPass_end (h : s.mappedByteBuffer.content = []) :
    mappedPass size s = .ok (.inr s.toReading) := by
  have hremaining : s.mappedByteBuffer.hasRemaining = false := by
    rw [s.mappedByteBuffer.hasRemaining_eq, h]
    rfl
  rw [mappedPass, hremaining]
  rfl

lemma hasRemaining_of_pos (h : 0 < s.mappedByteBuffer.remaining) :
    s.mappedByteBuffer.hasRemaining = true := by
  rw [s.mappedByteBuffer.hasRemaining_eq, Bool.not_eq_true', List.isEmpty_eq_false_iff,
    ← List.length_pos_iff, s.mappedByteBuffer.length_content]
  exact h

lemma mappedPass_of_le (hpos : 0 < s.mappedByteBuffer.remaining)
    (hle : size ≤ s.mappedByteBuffer.remaining) :
    ∃ b, b.content = s.mappedByteBuffer.content.drop size ∧ mappedPass size s = .ok (.inl
      ⟨⟨s.received ++ s.mappedByteBuffer.content.take size,
        wrap32 (s.allCount + min 500 s.mappedByteBuffer.remaining)⟩, b⟩) := by
  obtain ⟨b, hget, hcontent, -⟩ := ByteBuffer.get_content hle
  refine ⟨b, hcontent, ?_⟩
  simp only [mappedPass, hasRemaining_of_pos hpos, if_true, hget, bind, Except.bind, pure,
    Except.pure, Nat.cast_min, Nat.cast_ofNat]

lemma mappedPass_short (hpos : 0 < s.mappedByteBuffer.remaining)
    (hlt : s.mappedByteBuffer.remaining < size) :
    mappedPass size s = .error .bufferUnderflowException := by
  simp only [mappedPass, hasRemaining_of_pos hpos, if_true, ByteBuffer.get_error hlt, bind,
    Except.bind]

/-- The loop over a whole number of arrays. -/
lemma mapped_whole (hsize : 0 < size) {k : ℕ} (hk : s.mappedByteBuffer.remaining = k * size)
    (hint : IsInt s.allCount) :
    Returns (Loop.run (mappedPass size) s)
      (.ok ⟨s.received ++ s.mappedByteBuffer.content, wrap32 (s.allCount + counted size k)⟩) := by
  induction k generalizing s with
  | zero =>
      have hnil : s.mappedByteBuffer.content = [] := by
        rw [← List.length_eq_zero_iff, s.mappedByteBuffer.length_content, hk, Nat.zero_mul]
      apply Loop.returns_of_leave
      rw [mappedPass_end hnil, hnil, List.append_nil, counted, Nat.cast_zero, add_zero,
        wrap32_of_range hint.1 hint.2]
  | succ k ih =>
      have hle : size ≤ s.mappedByteBuffer.remaining := by
        rw [hk, Nat.succ_mul]
        exact Nat.le_add_left _ _
      obtain ⟨b, hcontent, hpass⟩ := mappedPass_of_le (hsize.trans_le hle) hle
      have hremaining : b.remaining = k * size := by
        rw [← b.length_content, hcontent, List.length_drop, s.mappedByteBuffer.length_content, hk,
          Nat.succ_mul, Nat.add_sub_cancel]
      have hrest := ih (s := ⟨⟨s.received ++ s.mappedByteBuffer.content.take size,
        wrap32 (s.allCount + min 500 s.mappedByteBuffer.remaining)⟩, b⟩) hremaining
        (isInt_wrap32 _)
      apply Loop.returns_of_goOn hpass
      rw [wrap32_wrap32_add, hcontent, List.append_assoc, List.take_append_drop, add_assoc] at hrest
      rw [counted, ← hk]
      exact_mod_cast hrest

/-- The loop over anything else underflows the buffer at its end. -/
lemma mapped_cut (hcut : ¬size ∣ s.mappedByteBuffer.remaining) (hsize : 0 < size) :
    Returns (Loop.run (mappedPass size) s) (.error .bufferUnderflowException) := by
  suffices hloop : ∃ x, Returns (Loop.run (mappedPass size) s) x ∧
      x = .error .bufferUnderflowException by
    obtain ⟨x, hreturns, rfl⟩ := hloop
    exact hreturns
  refine Loop.returns_of_variant
    (I := fun s : MappedReading => ¬size ∣ s.mappedByteBuffer.remaining)
    (fun s => s.mappedByteBuffer.remaining) ?_ s hcut
  intro s hcut
  have hpos : 0 < s.mappedByteBuffer.remaining := by
    by_contra hzero
    rw [Nat.eq_zero_of_not_pos hzero] at hcut
    exact hcut (dvd_zero size)
  by_cases hle : size ≤ s.mappedByteBuffer.remaining
  · obtain ⟨b, hcontent, hpass⟩ := mappedPass_of_le hpos hle
    have hremaining : b.remaining = s.mappedByteBuffer.remaining - size := by
      rw [← b.length_content, hcontent, List.length_drop, s.mappedByteBuffer.length_content]
    rw [hpass]
    refine ⟨?_, ?_⟩
    · dsimp only
      rw [hremaining]
      exact fun hdvd => hcut ((Nat.dvd_sub_iff_left hle dvd_rfl).mp hdvd)
    · dsimp only
      omega
  · rw [mappedPass_short hpos (not_le.mp hle)]
    rfl

/-- `MappedReadTest` reads the whole file exactly if its array goes into it a whole number of times,
and this is counted right. -/
lemma mapped_reads_iff (hsize : 0 < size) (needLoad : Bool) (content : List Byte) :
    ReadsWhole content (mappedRead size needLoad content) ↔
      ∃ k, content.length = k * size ∧ wrap32 (counted size k) = content.length := by
  have hload : (if needLoad then load (map content) else map content) = map content := by
    cases needLoad <;> rfl
  have hcontent : (map content).content = content := by
    rw [map, ByteBuffer.content_wrap, List.take_length]
  have hremaining : (map content).remaining = content.length := by
    rw [← (map content).length_content, hcontent]
  rw [ReadsWhole, mappedRead, hload]
  by_cases hdvd : size ∣ content.length
  · obtain ⟨k, hk⟩ := hdvd
    rw [Nat.mul_comm] at hk
    have hreturns := mapped_whole (s := ⟨.start, map content⟩) hsize (hremaining.trans hk)
      (show IsInt 0 by decide)
    rw [hcontent] at hreturns
    constructor
    · intro h
      have heq := (Loop.stable_run _ _).unique h hreturns
      rw [Except.ok.injEq, Reading.mk.injEq] at heq
      refine ⟨k, hk, ?_⟩
      rw [heq.2]
      simp [Reading.start]
    · rintro ⟨k', hk', hcount⟩
      obtain rfl : k' = k := Nat.eq_of_mul_eq_mul_right hsize (hk'.symm.trans hk)
      simpa [Reading.start, hcount] using hreturns
  · have hreturns := mapped_cut (s := ⟨.start, map content⟩) (hremaining ▸ hdvd) hsize
    refine iff_of_false (fun h => ?_) ?_
    · cases (Loop.stable_run _ _).unique h hreturns
    · rintro ⟨k, hk, -⟩
      exact hdvd ⟨k, by rw [hk, Nat.mul_comm]⟩

end Mapped

end ReadTest

end LearnJava
