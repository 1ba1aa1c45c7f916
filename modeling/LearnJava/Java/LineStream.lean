import LearnJava.Java.Charset

/-!
# Lines from a byte stream

One direction of a connection, and what `readLine()` of a new
`BufferedReader(new InputStreamReader(inputStream, "UTF-8"))` makes of it: it waits for the first
end of a line, or for the end of the stream.  How the bytes are cut on their way makes no difference
to a reader that waits for all of them.  The line is left as bytes; `newString` decodes it.
-/

namespace LearnJava

/-- `\n` or `\r` -/
def IsLineEnd (b : Byte) : Prop := b = 10 ∨ b = 13

instance : DecidablePred IsLineEnd := fun b => inferInstanceAs (Decidable (b = 10 ∨ b = 13))

/-- The bytes that have been sent, and whether the sender has closed its end. -/
structure LineStream where
  sent : List Byte
  closed : Bool
  deriving DecidableEq, Repr

namespace LineStream

/-- Nothing has been sent. -/
def new : LineStream := ⟨[], false⟩

/-- Some bytes are sent. -/
def send (x : LineStream) (bytes : List Byte) : LineStream := { x with sent := x.sent ++ bytes }

/-- The sender closes its end. -/
def close (x : LineStream) : LineStream := { x with closed := true }

/-- The first `readLine()`: none while it waits, and `some none` where it returns `null`. -/
def readLine (x : LineStream) : Option (Option (List Byte)) :=
  if ∃ b ∈ x.sent, IsLineEnd b then some (some (x.sent.takeWhile fun b => ¬IsLineEnd b))
  else if x.closed then some (if x.sent = [] then none else some x.sent)
  else none

@[simp] lemma send_sent (x : LineStream) (bytes : List Byte) :
    (x.send bytes).sent = x.sent ++ bytes := rfl

@[simp] lemma send_closed (x : LineStream) (bytes : List Byte) :
    (x.send bytes).closed = x.closed := rfl

@[simp] lemma close_sent (x : LineStream) : x.close.sent = x.sent := rfl

@[simp] lemma close_closed (x : LineStream) : x.close.closed = true := rfl

variable {x : LineStream} {line : List Byte}

/-- **A whole line is read as it was sent**, whatever comes behind it. -/
lemma readLine_of_line {rest : List Byte} (hsent : x.sent = line ++ 10 :: rest)
    (hline : ∀ b ∈ line, ¬IsLineEnd b) : x.readLine = some (some line) := by
  have htake : (line ++ 10 :: rest).takeWhile (fun b => ¬IsLineEnd b) = line := by
    rw [List.takeWhile_append_of_pos fun b hb => by simpa using hline b hb]
    simp [IsLineEnd]
  rw [readLine, if_pos ⟨10, by simp [hsent], .inl rfl⟩, hsent, htake]

/-- What is read stays as it is when the stream is closed. -/
lemma readLine_close {r : Option (List Byte)} (h : x.readLine = some r) :
    x.close.readLine = some r := by
  rw [readLine] at h ⊢
  rw [close_sent, close_closed]
  by_cases hend : ∃ b ∈ x.sent, IsLineEnd b
  · rwa [if_pos hend] at h ⊢
  · rw [if_neg hend] at h ⊢
    by_cases hclosed : x.closed = true
    · rwa [if_pos hclosed] at h
    · simp [hclosed] at h

@[simp] lemma readLine_new : new.readLine = none := by simp [readLine, new]

/-! ## Strings that are lines -/

/-- A string that is a line with its end. -/
def IsLine (str : String) : Prop := ∃ text, str = text ++ "\n" ∧ ∀ b ∈ getBytes text, ¬IsLineEnd b

lemma getBytes_append (s t : String) : getBytes (s ++ t) = getBytes s ++ getBytes t := by
  simp [getBytes]

/-- The line of a string is read back as it was. -/
lemma IsLine.readLine {str : String} (h : IsLine str) (hsent : x.sent = getBytes str) :
    ∃ line, x.readLine = some (some line) ∧
      ∀ malformed, newString malformed line ++ "\n" = str := by
  obtain ⟨text, rfl, hline⟩ := h
  have hsent' : x.sent = getBytes text ++ [10] := by
    rw [hsent, getBytes_append]
    rfl
  exact ⟨getBytes text, readLine_of_line hsent' hline, fun malformed => by simp⟩

end LineStream

end LearnJava
