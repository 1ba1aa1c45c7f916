import LearnJava.Io.ReadTest

/-!
# When the four ways to read a file agree

`FileReadTest` and `BufferedReadTest` count every file right.  `FileChanelReadTest` does if every
read fills its buffer, so that the array goes into the file a whole number of times.
`MappedReadTest` needs the latter too, and counts 500 bytes for an array of any other size as long
as more than 500 are left: too few for a larger array, and too many for a smaller one, unless the
file is no longer than that.

`allCount` is an `int`.  What is counted too much may be a multiple of `2 ^ 32`, and there are
exactly five array sizes and file lengths for which it is (`coincidences`).
-/

namespace LearnJava

namespace ReadTest

open Fuel (Returns)

variable {content : List Byte} {size k m : ℕ}

/-! ## What `MappedReadTest` counts -/

/-- The sizes of an array, and the lengths of a file, with which the count is wrong by a positive
multiple of `2 ^ 32`. -/
def coincidences : List (ℕ × ℕ) :=
  [(14, 989786952), (16, 141982640), (56, 1083415424), (89, 1860107743), (92, 1936946288)]

/-- A file of `length` bytes that an array of `size` bytes goes into a whole number of times is
counted right. -/
def CountsRight (size length : ℕ) : Prop :=
  length = 0 ∨ size = 500 ∨ length = size ∧ size < 500 ∨ (size, length) ∈ coincidences

instance (size length : ℕ) : Decidable (CountsRight size length) :=
  inferInstanceAs (Decidable (_ ∨ _ ∨ _ ∨ _))

lemma counted_le (size k : ℕ) : counted size k ≤ 500 * k := by
  induction k with
  | zero => rfl
  | succ k ih =>
      rw [counted]
      omega

lemma counted_of_large (h : 500 ≤ size) (k : ℕ) : counted size k = 500 * k := by
  induction k with
  | zero => rfl
  | succ k ih =>
      have hle : size ≤ (k + 1) * size := Nat.le_mul_of_pos_left size (Nat.succ_pos k)
      rw [counted, ih]
      omega

/-- From `m` arrays on, if they have 500 bytes, every further one is counted as 500. -/
lemma counted_of_le (hm : 500 ≤ (m + 1) * size) (h : m ≤ k) :
    counted size k = counted size m + 500 * (k - m) := by
  induction k, h using Nat.le_induction with
  | base => rw [Nat.sub_self, Nat.mul_zero, Nat.add_zero]
  | succ k hmk ih =>
      have hle : (m + 1) * size ≤ (k + 1) * size := Nat.mul_le_mul_right size (by omega)
      rw [counted, ih]
      omega

/-- A smaller array is counted with its size at least, and with more from the second one on. -/
lemma lt_counted (hsize : 0 < size) (h : size < 500) (k : ℕ) :
    (k + 2) * size < counted size (k + 2) := by
  induction k with
  | zero =>
      simp only [counted]
      omega
  | succ k ih =>
      have hmul : (k + 1 + 2) * size = (k + 2) * size + size := by ring
      rw [counted, hmul]
      omega

lemma le_counted (hsize : 0 < size) (h : size < 500) (k : ℕ) : k * size ≤ counted size k := by
  match k with
  | 0 => simp [counted]
  | 1 =>
      simp only [counted]
      omega
  | k + 2 => exact (lt_counted hsize h k).le

/-- What is counted of the arrays that are at the end of the file falls short of 500 by this. -/
def shortfall (size : ℕ) : ℕ := 500 * (500 / size) - counted size (500 / size)

/-- The arrays of `size` bytes in a file whose count is wrong by `t * 2 ^ 32`, if there is one. -/
def arraysFor (size t : ℕ) : ℕ := (t * 2 ^ 32 + shortfall size) / (500 - size)

/-- If there is such a file, it is one of the coincidences. -/
def Coincides (size t : ℕ) : Prop :=
  0 < size ∧ 0 < t ∧ (500 - size) * arraysFor size t = t * 2 ^ 32 + shortfall size ∧
    arraysFor size t * size < 2 ^ 31 → (size, arraysFor size t * size) ∈ coincidences

instance (size t : ℕ) : Decidable (Coincides size t) := inferInstanceAs (Decidable (_ → _))

lemma coincides_of_lt : ∀ size < 250, ∀ t < 250 / size + 1, Coincides size t := by
  decide +kernel

/-- The count of a coincidence. -/
def Wraps (p : ℕ × ℕ) : Prop :=
  p.1 ≠ 0 ∧ p.2 = p.2 / p.1 * p.1 ∧ 500 / p.1 ≤ p.2 / p.1 ∧ 500 ≤ (500 / p.1 + 1) * p.1 ∧
    wrap32 ((counted p.1 (500 / p.1) + 500 * (p.2 / p.1 - 500 / p.1) : ℕ)) = p.2

instance (p : ℕ × ℕ) : Decidable (Wraps p) := inferInstanceAs (Decidable (_ ∧ _ ∧ _ ∧ _ ∧ _))

lemma wraps_of_mem : ∀ p ∈ coincidences, Wraps p := by
  decide +kernel

/-- A count that wraps around to the length exceeds it by a multiple of `2 ^ 32`. -/
lemma exists_multiple {counted length : ℕ} (hle : length ≤ counted)
    (h : wrap32 counted = length) : ∃ t, counted = length + t * 2 ^ 32 := by
  unfold wrap32 at h
  exact ⟨(counted - length) / 2 ^ 32, by omega⟩

lemma countsRight_of_wrap (hsize : 0 < size) (hlt : size < 500) (hlength : k * size < 2 ^ 31)
    (h : wrap32 (counted size k) = (k * size : ℕ)) : CountsRight size (k * size) := by
  obtain ⟨t, ht⟩ := exists_multiple (le_counted hsize hlt k) h
  rcases Nat.eq_zero_or_pos t with rfl | htpos
  · -- nothing is counted too much, so that there is at most one array
    clear h
    match k with
    | 0 => exact .inl (Nat.zero_mul size)
    | 1 => exact .inr (.inr (.inl ⟨Nat.one_mul size, hlt⟩))
    | k + 2 =>
        have hmore := lt_counted hsize hlt k
        omega
  · have hlarge := counted_le size k
    have hdiv := Nat.div_mul_le_self 500 size
    have hend : 500 ≤ (500 / size + 1) * size := by
      rw [Nat.mul_comm]
      exact (Nat.lt_mul_div_succ 500 hsize).le
    have hfew : 500 / size ≤ 500 := Nat.div_le_self 500 size
    have hmany : 500 / size ≤ k := by omega
    have hclosed := counted_of_le hend hmany
    have hshort := counted_le size (500 / size)
    have hk : (500 - size) * k = t * 2 ^ 32 + shortfall size := by
      rw [Nat.sub_mul, Nat.mul_comm size k, shortfall]
      omega
    have harrays : arraysFor size t = k := by
      rw [arraysFor, ← hk, Nat.mul_div_cancel_left k (by omega)]
    -- an `int` file is too short for more than that
    have hbound : t * size < 250 := by
      have hprod : (t * size) * 2 ^ 32 ≤ 500 * (k * size) := by
        calc (t * size) * 2 ^ 32 = t * 2 ^ 32 * size := by ring
          _ ≤ 500 * k * size := Nat.mul_le_mul_right size (by omega)
          _ = 500 * (k * size) := by ring
      omega
    have hsmall : size < 250 := (Nat.le_mul_of_pos_left size htpos).trans_lt hbound
    have htlt : t < 250 / size + 1 := by
      rw [Nat.lt_succ_iff, Nat.le_div_iff_mul_le hsize]
      exact hbound.le
    have hmem := coincides_of_lt size hsmall t htlt
    rw [Coincides, harrays] at hmem
    exact .inr (.inr (.inr (hmem ⟨hsize, htpos, hk, hlength⟩)))

lemma wrap_of_coincidence (hsize : 0 < size) (h : (size, k * size) ∈ coincidences) :
    wrap32 (counted size k) = (k * size : ℕ) := by
  obtain ⟨-, -, hmany, hend, hwrap⟩ := wraps_of_mem _ h
  dsimp only at hmany hend hwrap
  rw [Nat.mul_div_cancel k hsize] at hmany hwrap
  rw [counted_of_le hend hmany]
  exact hwrap

/-- `MappedReadTest` counts a file of `k` arrays right exactly if the array has 500 bytes, or the
file is empty or one array of less, or it is one of the five coincidences. -/
lemma counted_iff (hsize : 0 < size) (hlength : k * size < 2 ^ 31) :
    wrap32 (counted size k) = (k * size : ℕ) ↔ CountsRight size (k * size) := by
  constructor
  · intro h
    rcases lt_or_ge size 500 with hlt | hge
    · exact countsRight_of_wrap hsize hlt hlength h
    · have hle : 500 * k ≤ k * size := by
        rw [Nat.mul_comm]
        exact Nat.mul_le_mul_left k hge
      rw [counted_of_large hge, wrap32_of_range (by omega) (by omega)] at h
      rcases Nat.eq_zero_or_pos k with rfl | hk
      · exact .inl (Nat.zero_mul size)
      · refine .inr (.inl (Nat.eq_of_mul_eq_mul_left hk ?_))
        omega
  · rintro (hzero | rfl | ⟨hone, hlt⟩ | hmem)
    · obtain rfl : k = 0 := (Nat.mul_eq_zero.mp hzero).resolve_right hsize.ne'
      simp [counted]
    · rw [counted_of_large le_rfl, wrap32_of_range (by omega) (by omega), Nat.mul_comm]
    · obtain rfl : k = 1 := Nat.eq_of_mul_eq_mul_right hsize (hone.trans (Nat.one_mul size).symm)
      have hcount : counted size 1 = 1 * size := by
        simp only [counted]
        omega
      rw [hcount, wrap32_of_range (by omega) (by omega)]
    · exact wrap_of_coincidence hsize hmem

/-! ## The four methods -/

/-- What fills every buffer goes into the file a whole number of times. -/
lemma dvd_of_fills {fileChannel : ByteSource content} (hsize : 0 < size)
    (h : Fills fileChannel size) : size ∣ content.length := by
  by_contra hdvd
  have hmod : 0 < content.length % size := by
    rw [Nat.pos_iff_ne_zero]
    exact fun hzero => hdvd (Nat.dvd_of_mod_eq_zero hzero)
  have hdecomp := Nat.div_add_mod' content.length size
  have hlast : content.length / size * size < content.length := by omega
  have hcount := h _ hlast
  have hle := fileChannel.count_le (content.length / size * size) size
  have hlt := Nat.mod_lt content.length hsize
  omega

/-- All four methods read the whole file and count its bytes. -/
structure Agree (size bufferedSize : ℕ) (needLoad : Bool)
    (fileInputStream bufferedInputStream fileChannel : ByteSource content) : Prop where
  file : ReadsWhole content (fileRead fileInputStream)
  buffered : ReadsWhole content (bufferedRead size bufferedSize bufferedInputStream)
  channel : ReadsWhole content (channelRead size fileChannel)
  mapped : ReadsWhole content (mappedRead size needLoad content)

lemma mapped_iff_of_dvd (hlength : content.length < 2 ^ 31) (hsize : 0 < size) (needLoad : Bool)
    (hdvd : size ∣ content.length) :
    ReadsWhole content (mappedRead size needLoad content) ↔ CountsRight size content.length := by
  obtain ⟨k, hk⟩ := hdvd
  rw [Nat.mul_comm] at hk
  rw [mapped_reads_iff hsize needLoad content]
  rw [hk] at hlength ⊢
  rw [← counted_iff hsize hlength]
  constructor
  · rintro ⟨k', hk', hcount⟩
    obtain rfl := Nat.eq_of_mul_eq_mul_right hsize hk'
    exact hcount
  · exact fun hcount => ⟨k, rfl, hcount⟩

/-- **The four ways to read a file.**  They read a file of less than `2 ^ 31` bytes and count it
alike, however their reads turn out, exactly if every read of the channel fills its buffer and the
array has 500 bytes, or the file is empty or just one array of less than 500 bytes, or it is one of
the five coincidences. -/
theorem agree_iff (hlength : content.length < 2 ^ 31) {bufferedSize : ℕ} (hsize : 1 ≤ size)
    (hbuffered : 1 ≤ bufferedSize) (needLoad : Bool)
    (fileInputStream bufferedInputStream fileChannel : ByteSource content) :
    Agree size bufferedSize needLoad fileInputStream bufferedInputStream fileChannel ↔
      Fills fileChannel size ∧ CountsRight size content.length := by
  constructor
  · intro h
    have hfills := (channel_reads_iff hlength fileChannel hsize).mp h.channel
    have hdvd := dvd_of_fills hsize hfills
    exact ⟨hfills, (mapped_iff_of_dvd hlength hsize needLoad hdvd).mp h.mapped⟩
  · rintro ⟨hfills, hcount⟩
    refine ⟨stream_reads hlength fileInputStream (by norm_num), ?_, ?_, ?_⟩
    · have hread := stream_reads hlength bufferedInputStream hsize
      have hsame : bufferedRead size bufferedSize bufferedInputStream =
          Loop.run (streamPass bufferedInputStream size) .start := by
        funext fuel
        rw [bufferedRead, if_neg (by omega)]
      rwa [← hsame] at hread
    · exact (channel_reads_iff hlength fileChannel hsize).mpr hfills
    · exact (mapped_iff_of_dvd hlength hsize needLoad (dvd_of_fills hsize hfills)).mpr hcount

theorem agree_iff_one_array :
    Agree 3 8 true (.eager [1, 2, 3]) (.eager [1, 2, 3]) (.eager [1, 2, 3]) ↔
      Fills (.eager [1, 2, 3]) 3 ∧ CountsRight 3 3 :=
  agree_iff (by decide) (by decide) (by decide) true (.eager [1, 2, 3]) (.eager [1, 2, 3])
    (.eager [1, 2, 3])

/-- Three bytes and an array of two: the last read leaves one byte in the buffer, and `get` asks for
two.  Two arrays of 200 bytes are counted as 600. -/
theorem last_array_underflows :
    Returns (channelRead 2 (.eager [1, 2, 3])) (.error .bufferUnderflowException) ∧
      Returns (mappedRead 2 false [1, 2, 3]) (.error .bufferUnderflowException) ∧
      ¬Agree 2 8 false (.eager [1, 2, 3]) (.eager [1, 2, 3]) (.eager [1, 2, 3]) ∧
      ¬ReadsWhole (List.replicate 400 0) (mappedRead 200 false (List.replicate 400 0)) := by
  have hchannel : Returns (channelRead 2 (.eager [1, 2, 3])) (.error .bufferUnderflowException) :=
    ⟨3, rfl⟩
  refine ⟨hchannel, ⟨3, rfl⟩, fun h => ?_, fun h => ?_⟩
  · cases (Loop.stable_run _ _).unique hchannel h.channel
  · obtain ⟨k, hk, hcount⟩ := (mapped_reads_iff (by norm_num) false _).mp h
    rw [List.length_replicate] at hk hcount
    obtain rfl : k = 2 := by omega
    exact absurd hcount (by decide)

end ReadTest

end LearnJava
