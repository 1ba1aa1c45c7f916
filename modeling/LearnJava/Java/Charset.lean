import LearnJava.Java.ByteBuffer

/-!
# Strings as bytes

What the charset `UTF-8` makes of a string without unpaired surrogates, and of bytes.  How many
replacement characters stand for bytes that are not well formed is left open.
-/

namespace LearnJava

/-- `s.getBytes(charset)` -/
def getBytes (s : String) : List Byte := s.toUTF8.data.toList

/-- `new String(bytes, charset)`, with what the charset makes of bytes that are not well formed. -/
def newString (malformed : List Byte → String) (bytes : List Byte) : String :=
  (String.fromUTF8? ⟨bytes.toArray⟩).getD (malformed bytes)

/-- A string is read back from its bytes. -/
@[simp] lemma newString_getBytes (malformed : List Byte → String) (s : String) :
    newString malformed (getBytes s) = s := by
  have hvalid : s.toUTF8.IsValidUTF8 := s.isValidUTF8
  have hbytes : (⟨(getBytes s).toArray⟩ : ByteArray) = s.toUTF8 := by simp [getBytes]
  rw [newString, hbytes, String.fromUTF8?, dif_pos hvalid]
  rfl

/-- Only the empty string has no bytes. -/
lemma getBytes_eq_nil_iff {s : String} : getBytes s = [] ↔ s = "" := by
  constructor
  · intro h
    have hread := newString_getBytes (fun _ => "") s
    rw [h, ← show getBytes "" = [] from rfl, newString_getBytes] at hread
    exact hread.symm
  · rintro rfl
    rfl

end LearnJava
