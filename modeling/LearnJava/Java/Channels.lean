import LearnJava.Java.ByteSource

/-!
# Channels of streams

`read(dst)` of the channel that `Channels.newChannel(inputStream)` makes fills the buffer in pieces
of at most `TRANSFER_SIZE` bytes.  To block at most once, it goes on after the first piece only as
long as `inputStream.available()` is positive.  (A stream of the class `FileInputStream` itself
would have a channel of its own; the streams that a `URL` opens never are.)

`exists_read` says what the first `read` of a new channel puts in the buffer: a first part of the
stream, and as much as there is room for exactly if the reads never stall.
-/

namespace LearnJava

namespace Channels

open Fuel (Returns)

/-- `TRANSFER_SIZE` of `java.nio.channels.Channels` -/
def TRANSFER_SIZE : ℕ := 8192

/-- The variables of `read`. -/
structure Transfer where
  totalRead : ℕ
  dst : ByteBuffer

variable {content : List Byte} (inputStream : InputStream content) (len : ℕ)

/-- A pass of the loop of `read`, for a stream that nothing was read from before. -/
def readPass (s : Transfer) : Except Throwable (Transfer ⊕ ℤ × ByteBuffer) :=
  if len ≤ s.totalRead then .ok (.inr (s.totalRead, s.dst))
  else if 0 < s.totalRead ∧ inputStream.available s.totalRead = 0 then
    .ok (.inr (s.totalRead, s.dst))
  else
    let bytesToRead := min (len - s.totalRead) TRANSFER_SIZE
    let (bytesRead, bytes) := inputStream.read s.totalRead bytesToRead
    if bytesRead < 0 then .ok (.inr (if s.totalRead = 0 then -1 else s.totalRead, s.dst))
    else (s.dst.put bytes).map fun dst => .inl ⟨s.totalRead + bytesRead.toNat, dst⟩

/-- The first `read(dst)` of `Channels.newChannel(inputStream)`: what it returns, and the buffer. -/
def read (dst : ByteBuffer) : ℕ → Option (Except Throwable (ℤ × ByteBuffer)) :=
  Loop.run (readPass inputStream dst.remaining) ⟨0, dst⟩

/-! ## How far the reads get -/

/-- Where the stream is after some reads, if they go on to `len`. -/
def reached : ℕ → ℕ
  | 0 => 0
  | k + 1 => reached k + inputStream.count (reached k) (min (len - reached k) TRANSFER_SIZE)

/-- After every read that leaves room in the buffer, more of the stream is available. -/
def NeverStalls : Prop :=
  ∀ k, 0 < reached inputStream len k → reached inputStream len k < len →
    0 < inputStream.available (reached inputStream len k)

lemma reached_le (k : ℕ) : reached inputStream len k ≤ len := by
  induction k with
  | zero => exact Nat.zero_le len
  | succ k ih =>
      have hroom := inputStream.count_le_room (reached inputStream len k)
        (min (len - reached inputStream len k) TRANSFER_SIZE)
      rw [reached]
      omega

lemma reached_mono : Monotone (reached inputStream len) :=
  monotone_nat_of_le_succ fun _ => Nat.le_add_right _ _

/-! ## The read -/

/-- What holds after `k` reads into a buffer that had `written` in it. -/
structure After (written : List Byte) (k : ℕ) (s : Transfer) : Prop where
  totalRead : s.totalRead = reached inputStream len k
  written : s.dst.written = written ++ content.take s.totalRead
  remaining : s.dst.remaining = len - s.totalRead
  goesOn : ∀ j < k, 0 < reached inputStream len j → reached inputStream len j < len →
    0 < inputStream.available (reached inputStream len j)

/-- What holds of a `read` that returns. -/
def Reads (written : List Byte) : Except Throwable (ℤ × ByteBuffer) → Prop
  | .ok (n, dst) => ∃ m ≤ len, n = m ∧ dst.written = written ++ content.take m ∧
      (m = len ↔ NeverStalls inputStream len)
  | .error _ => False

section Read

variable {inputStream len} {written : List Byte} {k : ℕ} {s : Transfer}

/-- The loop is left when the buffer is full, and nothing has stalled. -/
lemma After.reads_of_full (h : After inputStream len written k s) (hfull : len ≤ s.totalRead) :
    Reads inputStream len written (.ok (s.totalRead, s.dst)) := by
  have hle := reached_le inputStream len k
  rw [← h.totalRead] at hle
  refine ⟨s.totalRead, hle, rfl, h.written, iff_of_true (le_antisymm hle hfull) ?_⟩
  intro j hpos hlt
  rcases lt_or_ge j k with hj | hj
  · exact h.goesOn j hj hpos hlt
  · have hmono := reached_mono inputStream len hj
    rw [← h.totalRead] at hmono
    omega

/-- Or it is left where a read has stalled. -/
lemma After.reads_of_stall (h : After inputStream len written k s) (hroom : s.totalRead < len)
    (hstall : 0 < s.totalRead ∧ inputStream.available s.totalRead = 0) :
    Reads inputStream len written (.ok (s.totalRead, s.dst)) := by
  refine ⟨s.totalRead, hroom.le, rfl, h.written, iff_of_false hroom.ne fun hnever => ?_⟩
  rw [h.totalRead] at hroom hstall
  have hpos := hnever k hstall.1 hroom
  omega

/-- Otherwise one more read gives some bytes, which there is room for. -/
lemma After.next (h : After inputStream len written k s) (hlen : len ≤ content.length)
    (hroom : s.totalRead < len)
    (hgoesOn : ¬(0 < s.totalRead ∧ inputStream.available s.totalRead = 0)) :
    ∃ s', readPass inputStream len s = .ok (.inl s') ∧ s.totalRead < s'.totalRead ∧
      After inputStream len written (k + 1) s' := by
  have hmore : s.totalRead < content.length := hroom.trans_le hlen
  set bytesToRead := min (len - s.totalRead) TRANSFER_SIZE with hto
  have htransfer : 0 < TRANSFER_SIZE := by decide
  have hcount := inputStream.count_pos s.totalRead bytesToRead hmore (by omega)
  have hle := inputStream.count_le_room s.totalRead bytesToRead
  have hlength := inputStream.length_read bytesToRead hmore
  have htake := inputStream.take_append_read bytesToRead hmore
  have hfst := inputStream.fst_read bytesToRead hmore
  have hremaining := h.remaining
  have hfits : (inputStream.read s.totalRead bytesToRead).2.length ≤ s.dst.remaining := by omega
  obtain ⟨dst, hput, hwritten, hlimit, -⟩ := s.dst.put_written hfits
  have hposition : dst.position = s.dst.position + inputStream.count s.totalRead bytesToRead := by
    rw [← dst.length_written, hwritten, List.length_append, hlength, s.dst.length_written]
  refine ⟨⟨s.totalRead + inputStream.count s.totalRead bytesToRead, dst⟩, ?_, ?_,
    ?_, ?_, ?_, ?_⟩
  · have hnonneg : ¬(inputStream.count s.totalRead bytesToRead : ℤ) < 0 :=
      (Int.natCast_nonneg _).not_gt
    rw [readPass, if_neg (not_le.mpr hroom), if_neg hgoesOn]
    simp only [← hto, hfst, if_neg hnonneg, hput, Int.toNat_natCast, Except.map]
  · exact Nat.lt_add_of_pos_right hcount
  · rw [reached, ← h.totalRead]
  · rw [hwritten, h.written, List.append_assoc, htake]
  · unfold ByteBuffer.remaining at hremaining ⊢
    dsimp only
    omega
  · intro j hj hpos hlt
    rcases Nat.lt_succ_iff_lt_or_eq.mp hj with hj | rfl
    · exact h.goesOn j hj hpos hlt
    · rw [← h.totalRead] at hpos ⊢
      omega

/-- **Reading.**  A new channel's `read` into a buffer for which the stream has enough bytes
returns, has put a first part of the stream in it, and has filled it exactly if it never
stalled. -/
theorem exists_read (inputStream : InputStream content) (dst : ByteBuffer)
    (hlen : dst.remaining ≤ content.length) :
    ∃ x, Returns (read inputStream dst) x ∧ Reads inputStream dst.remaining dst.written x := by
  refine Loop.returns_of_variant
    (I := fun s => ∃ k, After inputStream dst.remaining dst.written k s)
    (fun s => dst.remaining - s.totalRead) ?_ ⟨0, dst⟩
    ⟨0, rfl, by rw [List.take_zero, List.append_nil], rfl,
      fun j hj => absurd hj (Nat.not_lt_zero j)⟩
  rintro s ⟨k, h⟩
  by_cases hfull : dst.remaining ≤ s.totalRead
  · rw [readPass, if_pos hfull]
    exact h.reads_of_full hfull
  · by_cases hstall : 0 < s.totalRead ∧ inputStream.available s.totalRead = 0
    · rw [readPass, if_neg hfull, if_pos hstall]
      exact h.reads_of_stall (not_le.mp hfull) hstall
    · obtain ⟨s', hpass, hlt, hnext⟩ := h.next hlen (not_le.mp hfull) hstall
      rw [hpass]
      exact ⟨⟨k + 1, hnext⟩, by omega⟩

end Read

end Channels

end LearnJava
