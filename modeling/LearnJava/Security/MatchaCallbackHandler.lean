import LearnJava.Foundation.Fuel
import LearnJava.Java.ByteBuffer
import LearnJava.Java.Text

/-!
# `MatchaCallbackHandler`

The callback handler of `security/context/login/callback/MatchaCallbackHandler.java` answers each
name and each password callback with a line of the standard input.

A line is read `char` by `char` up to a line feed.  The value -1, which `read` returns at the end of
the input for ever, is narrowed to the `char` U+FFFF before it is compared, so that the loop appends
it and reads on: `handle_ends_iff` shows that the handler ends exactly if there is a line feed for
each callback that it answers, or the input fails.
-/

namespace LearnJava

open Fuel

/-- `System.in`, with the exception that reading beyond its last byte throws, and what has been
printed on `System.out`. -/
structure Stdio where
  bytes : List Byte
  failure : Option String
  printed : Text
  deriving DecidableEq, Repr

structure NameCallback where
  prompt : Text
  name : Option Text
  deriving DecidableEq, Repr

structure PasswordCallback where
  prompt : Text
  inputPassword : Option (List CodeUnit)
  deriving DecidableEq, Repr

/-- A callback of these classes or of another one. -/
inductive Callback
  | name (c : NameCallback)
  | password (c : PasswordCallback)
  | other
  deriving DecidableEq, Repr

namespace MatchaCallbackHandler

/-- `System.in.read()` -/
def read : Method Stdio ℤ := do
  let s ← get
  match s.bytes with
  | byte :: bytes =>
    set { s with bytes := bytes }
    return byte.toNat
  | [] =>
    match s.failure with
    | some message => throw (.ioException message)
    | none => return -1

/-- The line feed, as a byte and as a `char`. -/
def newline : Byte := 0x0A

/-- `for(char input = (char) System.in.read(); input != '\n'; input = (char) System.in.read())`,
with what has been appended to the buffer so far. -/
def readLine :
    ℕ → List CodeUnit → Stdio → Option (EStateM.Result Throwable Stdio (List CodeUnit))
  | 0, _, _ => none
  | fuel + 1, buffer, s =>
    match read.run s with
    | .error e s => some (.error e s)
    | .ok x s =>
      let input := UInt16.ofInt x
      if input = newline.toUInt16 then some (.ok buffer s)
      else readLine fuel (buffer ++ [input]) s

/-- `buffer.toString()`: no byte is a surrogate, and U+FFFF is none. -/
def toText (buffer : List CodeUnit) : Text := buffer.map UInt16.toNat

/-- The `catch` block. -/
def rethrow : Throwable → Throwable
  | .ioException message => .runtimeException (.ioException message)
  | e => e

/-- How a callback has been handled. -/
structure Handled where
  thrown : Option Throwable
  callback : Option Callback
  stdio : Stdio
  deriving DecidableEq, Repr

/-- What the two methods for one callback have in common. -/
def answer (callback : Callback) (prompt : Text) (setLine : List CodeUnit → Callback) (fuel : ℕ)
    (s : Stdio) : Option Handled := do
  let s := { s with printed := s.printed ++ prompt }
  return match ← readLine fuel [] s with
    | .error e s => ⟨some (rethrow e), some callback, s⟩
    | .ok buffer s => ⟨none, some (setLine buffer), s⟩

/-- `handle(NameCallback nameCallback)` -/
def handleName (c : NameCallback) : ℕ → Stdio → Option Handled :=
  answer (.name c) c.prompt fun buffer => .name { c with name := some (trim (toText buffer)) }

/-- `handle(PasswordCallback passwordCallback)` -/
def handlePassword (c : PasswordCallback) : ℕ → Stdio → Option Handled :=
  answer (.password c) c.prompt fun buffer =>
    .password { c with inputPassword := some (toCharArray (toText buffer)) }

def handleOne (callback : Option Callback) (fuel : ℕ) (s : Stdio) : Option Handled :=
  match callback with
  | some (.name c) => handleName c fuel s
  | some (.password c) => handlePassword c fuel s
  | some .other | none => some ⟨none, callback, s⟩

/-- How an array of callbacks has been handled. -/
structure AllHandled where
  thrown : Option Throwable
  callbacks : List (Option Callback)
  stdio : Stdio
  deriving DecidableEq, Repr

/-- `handle(Callback[] callbacks)` -/
def handle : List (Option Callback) → ℕ → Stdio → Option AllHandled
  | [], _, s => some ⟨none, [], s⟩
  | callback :: callbacks, fuel, s => do
    let first ← handleOne callback fuel s
    match first.thrown with
    | some e => return ⟨some e, first.callback :: callbacks, first.stdio⟩
    | none =>
      let rest ← handle callbacks fuel first.stdio
      return ⟨rest.thrown, first.callback :: rest.callbacks, rest.stdio⟩

/-- The callbacks that are answered with a line. -/
def isAnswered : Option Callback → Bool
  | some (.name _) | some (.password _) => true
  | some .other | none => false

/-! ## One line -/

section Line

variable {s : Stdio} {byte : Byte} {line rest : List Byte} {message : String}

lemma read_run_cons (h : s.bytes = byte :: rest) :
    read.run s = .ok byte.toNat { s with bytes := rest } := by
  rw [read, get_bind_run, h]
  rfl

lemma read_run_end (h : s.bytes = []) (hend : s.failure = none) : read.run s = .ok (-1) s := by
  rw [read, get_bind_run, h]
  dsimp only
  rw [hend]
  rfl

lemma read_run_failure (h : s.bytes = []) (hfailure : s.failure = some message) :
    read.run s = .error (.ioException message) s := by
  rw [read, get_bind_run, h]
  dsimp only
  rw [hfailure]
  rfl

lemma ofInt_byte (byte : Byte) : UInt16.ofInt byte.toNat = byte.toUInt16 := by
  have hbyte := byte.toNat_lt
  rw [UInt16.ofInt, ← UInt16.ofNat_uInt8ToNat]
  congr 1
  omega

lemma readLine_newline (n : ℕ) (buffer : List CodeUnit) (h : s.bytes = newline :: rest) :
    readLine (n + 1) buffer s = some (.ok buffer { s with bytes := rest }) := by
  rw [readLine, read_run_cons h]
  dsimp only
  rw [ofInt_byte, if_pos rfl]

lemma readLine_char (n : ℕ) (buffer : List CodeUnit) (h : s.bytes = byte :: rest)
    (hbyte : byte ≠ newline) :
    readLine (n + 1) buffer s =
      readLine n (buffer ++ [byte.toUInt16]) { s with bytes := rest } := by
  have hinput : byte.toUInt16 ≠ newline.toUInt16 := fun heq => hbyte (UInt8.toUInt16_inj.mp heq)
  rw [readLine, read_run_cons h]
  dsimp only
  rw [ofInt_byte, if_neg hinput]

/-- At the end of the input the loop goes on as it was, with one more U+FFFF. -/
lemma readLine_end (n : ℕ) (buffer : List CodeUnit) (h : s.bytes = []) (hend : s.failure = none) :
    readLine (n + 1) buffer s = readLine n (buffer ++ [0xFFFF]) s := by
  rw [readLine, read_run_end h hend]
  rfl

lemma readLine_failure (n : ℕ) (buffer : List CodeUnit) (h : s.bytes = [])
    (hfailure : s.failure = some message) :
    readLine (n + 1) buffer s = some (.error (.ioException message) s) := by
  rw [readLine, read_run_failure h hfailure]

lemma stable_readLine (buffer : List CodeUnit) (s : Stdio) :
    Stable fun n => readLine n buffer s := by
  apply stable_of_succ
  intro n r
  induction n generalizing buffer s with
  | zero => simp [readLine]
  | succ n ih =>
      rw [readLine, readLine]
      cases read.run s with
      | error e s' => exact id
      | ok x s' =>
          dsimp only
          split_ifs
          · exact id
          · exact ih _ _

/-- The bytes before the next line feed are read. -/
lemma returns_readLine (buffer : List CodeUnit) (h : newline ∉ line)
    (hbytes : s.bytes = line ++ newline :: rest) :
    Returns (fun n => readLine n buffer s)
      (.ok (buffer ++ line.map UInt8.toUInt16) { s with bytes := rest }) := by
  induction line generalizing s buffer with
  | nil =>
      refine ⟨1, ?_⟩
      dsimp only
      rw [readLine_newline 0 buffer hbytes]
      simp
  | cons byte line ih =>
      have hchar := fun n => readLine_char n buffer hbytes (List.ne_of_not_mem_cons h).symm
      rw [returns_succ_iff rfl hchar, List.map_cons,
        List.append_cons buffer byte.toUInt16 (line.map UInt8.toUInt16)]
      exact ih (s := { s with bytes := line ++ newline :: rest }) _
        (List.not_mem_of_not_mem_cons h) rfl

/-- Without a line feed, reading goes on to the failure of the input. -/
lemma returns_readLine_failure (buffer : List CodeUnit) (h : newline ∉ s.bytes)
    (hfailure : s.failure = some message) :
    Returns (fun n => readLine n buffer s)
      (.error (.ioException message) { s with bytes := [] }) := by
  generalize hbytes : s.bytes = bytes at h
  induction bytes generalizing s buffer with
  | nil =>
      refine ⟨1, ?_⟩
      dsimp only
      rw [readLine_failure 0 buffer hbytes hfailure, ← hbytes]
  | cons byte rest ih =>
      have hchar := fun n => readLine_char n buffer hbytes (List.ne_of_not_mem_cons h).symm
      rw [returns_succ_iff rfl hchar]
      exact ih _ hfailure rfl (List.not_mem_of_not_mem_cons h)

/-- Without a line feed, an input that does not fail is read for ever. -/
lemma readLine_endless (n : ℕ) (buffer : List CodeUnit) (h : newline ∉ s.bytes)
    (hend : s.failure = none) : readLine n buffer s = none := by
  induction n generalizing s buffer with
  | zero => rfl
  | succ n ih =>
      cases hbytes : s.bytes with
      | nil => rw [readLine_end n buffer hbytes hend, ih _ h hend]
      | cons byte rest =>
          rw [hbytes] at h
          rw [readLine_char n buffer hbytes (List.ne_of_not_mem_cons h).symm]
          exact ih _ (List.not_mem_of_not_mem_cons h) hend

end Line

/-! ## One callback -/

section Answer

variable (callback : Callback) (prompt : Text) (setLine : List CodeUnit → Callback) {s : Stdio}
  {line rest : List Byte} {message : String}

lemma handleOne_of_isAnswered {callback : Option Callback} (h : isAnswered callback = true) :
    ∃ c prompt setLine, handleOne callback = answer c prompt setLine := by
  rcases callback with _ | ⟨c | c | _⟩
  · cases h
  · exact ⟨_, _, _, rfl⟩
  · exact ⟨_, _, _, rfl⟩
  · cases h

lemma handleOne_of_not_isAnswered {callback : Option Callback} (h : isAnswered callback = false)
    (n : ℕ) (s : Stdio) : handleOne callback n s = some ⟨none, callback, s⟩ := by
  rcases callback with _ | ⟨c | c | _⟩
  · rfl
  · cases h
  · cases h
  · rfl

lemma stable_answer : Stable fun n => answer callback prompt setLine n s :=
  (stable_readLine _ _).bind fun _ => stable_pure _

lemma returns_answer (h : newline ∉ line) (hbytes : s.bytes = line ++ newline :: rest) :
    Returns (fun n => answer callback prompt setLine n s)
      ⟨none, some (setLine (line.map UInt8.toUInt16)),
        { s with bytes := rest, printed := s.printed ++ prompt }⟩ := by
  have hline := returns_readLine (s := { s with printed := s.printed ++ prompt }) [] h hbytes
  exact (returns_bind_iff (stable_readLine _ _) fun _ => stable_pure _).mpr ⟨_, hline, 0, rfl⟩

/-- The exception of the input is wrapped, and the callback left alone. -/
lemma returns_answer_failure (h : newline ∉ s.bytes) (hfailure : s.failure = some message) :
    Returns (fun n => answer callback prompt setLine n s)
      ⟨some (.runtimeException (.ioException message)), some callback,
        { s with bytes := [], printed := s.printed ++ prompt }⟩ := by
  have hline :=
    returns_readLine_failure (s := { s with printed := s.printed ++ prompt }) [] h hfailure
  exact (returns_bind_iff (stable_readLine _ _) fun _ => stable_pure _).mpr ⟨_, hline, 0, rfl⟩

lemma not_ends_answer (h : newline ∉ s.bytes) (hend : s.failure = none) :
    ¬Ends fun n => answer callback prompt setLine n s :=
  not_ends_bind (not_ends fun n => readLine_endless n [] h hend)

end Answer

/-! ## All callbacks -/

section All

variable {callback : Option Callback} {callbacks : List (Option Callback)} {s : Stdio}

/-- What follows the first callback. -/
def handleRest (callbacks : List (Option Callback)) (first : Handled) (n : ℕ) :
    Option AllHandled :=
  match first.thrown with
  | some e => some ⟨some e, first.callback :: callbacks, first.stdio⟩
  | none => (handle callbacks n first.stdio).bind fun rest =>
      some ⟨rest.thrown, first.callback :: rest.callbacks, rest.stdio⟩

lemma handle_cons (n : ℕ) : handle (callback :: callbacks) n s =
    (handleOne callback n s).bind fun first => handleRest callbacks first n := rfl

lemma stable_handleOne (callback : Option Callback) (s : Stdio) :
    Stable fun n => handleOne callback n s := by
  cases h : isAnswered callback with
  | true =>
      obtain ⟨c, prompt, setLine, heq⟩ := handleOne_of_isAnswered h
      rw [heq]
      exact stable_answer c prompt setLine
  | false =>
      simp only [handleOne_of_not_isAnswered h]
      exact stable_pure _

lemma stable_handleRest (h : ∀ s, Stable fun n => handle callbacks n s) (first : Handled) :
    Stable (handleRest callbacks first) := by
  unfold handleRest
  cases first.thrown with
  | some e => exact stable_pure _
  | none => exact (h first.stdio).bind fun rest => stable_pure _

lemma stable_handle (callbacks : List (Option Callback)) (s : Stdio) :
    Stable fun n => handle callbacks n s := by
  induction callbacks generalizing s with
  | nil => exact stable_pure _
  | cons callback callbacks ih =>
      exact (stable_handleOne callback s).bind fun first => stable_handleRest ih first

/-- The handler goes on from a callback that has been handled. -/
lemma ends_cons_iff {first : Handled} (hthrown : first.thrown = none)
    (h : Returns (fun n => handleOne callback n s) first) :
    Ends (fun n => handle (callback :: callbacks) n s) ↔
      Ends fun n => handle callbacks n first.stdio := by
  simp only [handle_cons]
  rw [ends_bind_iff (stable_handleOne callback s)
    (fun first => stable_handleRest (stable_handle callbacks) first) h]
  unfold handleRest
  simp only [hthrown]
  exact ends_bind_pure_iff

/-- An exception ends the handler. -/
lemma ends_cons_of_thrown {first : Handled} {e : Throwable} (hthrown : first.thrown = some e)
    (h : Returns (fun n => handleOne callback n s) first) :
    Ends fun n => handle (callback :: callbacks) n s := by
  simp only [handle_cons]
  rw [ends_bind_iff (stable_handleOne callback s)
    (fun first => stable_handleRest (stable_handle callbacks) first) h]
  unfold handleRest
  simp only [hthrown]
  exact ⟨_, 0, rfl⟩

end All

/-- **The handler ends** exactly if there is a line feed for each name and each password callback,
or the input fails: for every array of callbacks and every stream of bytes. -/
theorem handle_ends_iff (callbacks : List (Option Callback)) (s : Stdio) :
    Ends (fun n => handle callbacks n s) ↔
      callbacks.countP isAnswered ≤ s.bytes.count newline ∨ s.failure ≠ none := by
  induction callbacks generalizing s with
  | nil => exact iff_of_true ⟨_, 0, rfl⟩ (.inl (Nat.zero_le _))
  | cons callback callbacks ih =>
      cases h : isAnswered callback with
      | false =>
          have hfirst := handleOne_of_not_isAnswered h
          rw [ends_cons_iff rfl ⟨0, hfirst 0 s⟩, ih, List.countP_cons_of_neg (by simp [h])]
      | true =>
          obtain ⟨c, prompt, setLine, heq⟩ := handleOne_of_isAnswered h
          rw [List.countP_cons_of_pos h]
          by_cases hnewline : newline ∈ s.bytes
          · obtain ⟨line, rest, hbytes, hline⟩ := List.eq_append_cons_of_mem hnewline
            have hfirst := returns_answer c prompt setLine hline hbytes
            rw [← heq] at hfirst
            rw [ends_cons_iff rfl hfirst, ih, hbytes, List.count_append, List.count_cons_self,
              List.count_eq_zero.mpr hline]
            simp
          · cases hfailure : s.failure with
            | some message =>
                have hfirst := returns_answer_failure c prompt setLine hnewline hfailure
                rw [← heq] at hfirst
                exact iff_of_true (ends_cons_of_thrown rfl hfirst) (.inr (by simp))
            | none =>
                refine iff_of_false ?_ (by simp [List.count_eq_zero.mpr hnewline])
                simp only [handle_cons, heq]
                exact not_ends_bind (not_ends_answer c prompt setLine hnewline hfailure)

/-- A name callback with nothing on the standard input. -/
theorem emptyInput_never_ends :
    ¬Ends fun n => handle [some (.name ⟨text "Please enter your user name : ", none⟩)] n
      ⟨[], none, []⟩ := by
  simp only [handle_cons]
  exact not_ends_bind (not_ends_answer _ _ _ (by simp) rfl)

end MatchaCallbackHandler

end LearnJava
