import LearnJava.Foundation.Loop
import LearnJava.Java.ByteBuffer

/-!
# Reading from streams and channels

What a file or another source of bytes holds is known; how many of its bytes one read gives is not.
A `ByteSource` is one way in which the reads may turn out: as long as there are bytes left, a read
with room for some gives at least one of them, and never more than there is room for.  A read tells
the end of the source by 0 or -1.

An `InputStream` also has an estimate of what can be read without blocking, which is never more than
what is left.
-/

namespace LearnJava

/-- One way in which the reads of a source turn out: how many bytes a read at a position gives, for
the room it has, and what it returns at the end. -/
structure ByteSource (content : List Byte) where
  count : ℕ → ℕ → ℕ
  endValue : ℤ
  count_pos : ∀ position room, position < content.length → 0 < room → 0 < count position room
  count_le_room : ∀ position room, count position room ≤ room
  count_le : ∀ position room, count position room ≤ content.length - position
  endValue_eq : endValue = 0 ∨ endValue = -1

namespace ByteSource

variable {content : List Byte} (source : ByteSource content)

/-- `read(…)` at a position: the number it returns, and the bytes it gives. -/
def read (position room : ℕ) : ℤ × List Byte :=
  if content.length ≤ position then (source.endValue, [])
  else
    let n := source.count position room
    (n, (content.drop position).take n)

/-- Every read gives as much as there is room for. -/
def eager (content : List Byte) : ByteSource content where
  count position room := min room (content.length - position)
  endValue := -1
  count_pos position room hposition hroom := by omega
  count_le_room position room := Nat.min_le_left _ _
  count_le position room := Nat.min_le_right _ _
  endValue_eq := .inr rfl

lemma endValue_le : source.endValue ≤ 0 := by
  rcases source.endValue_eq with h | h <;> omega

variable {position : ℕ}

lemma read_end (room : ℕ) (h : content.length ≤ position) :
    source.read position room = (source.endValue, []) := if_pos h

lemma read_more (room : ℕ) (h : position < content.length) :
    source.read position room =
      (↑(source.count position room),
        (content.drop position).take (source.count position room)) :=
  if_neg (Nat.not_le.mpr h)

lemma fst_read (room : ℕ) (h : position < content.length) :
    (source.read position room).1 = source.count position room := by
  rw [source.read_more room h]

/-- What has been read so far grows by what a read gives. -/
lemma take_append_read (room : ℕ) (h : position < content.length) :
    content.take position ++ (source.read position room).2 =
      content.take (position + source.count position room) := by
  rw [source.read_more room h, List.take_add]

lemma length_read (room : ℕ) (h : position < content.length) :
    (source.read position room).2.length = source.count position room := by
  have hle := source.count_le position room
  rw [source.read_more room h, List.length_take, List.length_drop]
  omega

lemma length_read_le (position room : ℕ) : (source.read position room).2.length ≤ room := by
  by_cases h : position < content.length
  · rw [source.length_read room h]
    exact source.count_le_room position room
  · rw [source.read_end room (not_lt.mp h)]
    exact Nat.zero_le room

end ByteSource

/-- An `InputStream` over a source: it returns -1 at the end, and `available()` is a lower bound of
what is left, as an `int`. -/
structure InputStream (content : List Byte) extends ByteSource content where
  available : ℕ → ℕ
  available_le : ∀ position, available position ≤ content.length - position
  available_isInt : ∀ position, available position < 2 ^ 31
  endValue_neg : endValue = -1

end LearnJava
