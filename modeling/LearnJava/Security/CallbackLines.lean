import LearnJava.Security.MatchaCallbackHandler

/-!
# Lines that end in CR LF

Both methods of `MatchaCallbackHandler` read up to a line feed.  A carriage return before it becomes
the last `char` of what is read: `trim` takes it away from a user name, and nothing takes it away
from a password.
-/

namespace LearnJava

open Fuel

namespace MatchaCallbackHandler

def carriageReturn : Byte := 0x0D

/-- What ends a line. -/
inductive Terminator
  | lf
  | crlf
  deriving DecidableEq, Repr

/-- What comes before the line feed. -/
def Terminator.before : Terminator → List Byte
  | lf => []
  | crlf => [carriageReturn]

/-- A line of ASCII without what ends it. -/
structure Line where
  bytes : List Byte
  ascii : ∀ byte ∈ bytes, byte < 0x80
  newline_notMem : newline ∉ bytes
  carriageReturn_notMem : carriageReturn ∉ bytes

namespace Line

def chars (line : Line) : List CodeUnit := line.bytes.map UInt8.toUInt16

def text (line : Line) : Text := toText line.chars

/-- The line as it is typed. -/
def terminated (t : Terminator) (line : Line) : List Byte :=
  line.bytes ++ t.before ++ [newline]

end Line

/-- From this input a name callback and a password callback, with any prompts, get this name and
this password. -/
def Delivers (input : List Byte) (name : Text) (password : List CodeUnit) : Prop :=
  ∀ (namePrompt passwordPrompt : Text) (failure : Option String) (printed : Text), ∃ stdio,
    Returns
      (fun n => handle [some (.name ⟨namePrompt, none⟩), some (.password ⟨passwordPrompt, none⟩)] n
        ⟨input, failure, printed⟩)
      ⟨none, [some (.name ⟨namePrompt, some name⟩),
        some (.password ⟨passwordPrompt, some password⟩)], stdio⟩

/-- Whatever ends the two lines, the name is the trimmed first line and the password the second
one. -/
def SameForAllTerminators (userName password : Line) : Prop :=
  ∀ t, Delivers (userName.terminated t ++ password.terminated t) (trim userName.text)
    password.chars

/-! ## Both callbacks -/

section Handle

variable {callback : Option Callback} {callbacks : List (Option Callback)} {s : Stdio}

lemma returns_handle_cons {first : Handled} {rest : AllHandled} (hthrown : first.thrown = none)
    (hfirst : Returns (fun n => handleOne callback n s) first)
    (hrest : Returns (fun n => handle callbacks n first.stdio) rest) :
    Returns (fun n => handle (callback :: callbacks) n s)
      ⟨rest.thrown, first.callback :: rest.callbacks, rest.stdio⟩ := by
  simp only [handle_cons]
  rw [returns_bind_iff (stable_handleOne callback s)
    fun first => stable_handleRest (stable_handle callbacks) first]
  refine ⟨first, hfirst, ?_⟩
  unfold handleRest
  simp only [hthrown]
  obtain ⟨n, hn⟩ := hrest
  exact ⟨n, by simp [hn]⟩

/-- What two lines that end in a line feed deliver. -/
lemma delivers_lines {first second : List Byte} (hfirst : newline ∉ first)
    (hsecond : newline ∉ second) :
    Delivers (first ++ newline :: (second ++ [newline])) (trim (toText (first.map UInt8.toUInt16)))
      (toCharArray (toText (second.map UInt8.toUInt16))) := by
  intro namePrompt passwordPrompt failure printed
  have hname : Returns
      (fun n => handleOne (some (.name ⟨namePrompt, none⟩)) n
        ⟨first ++ newline :: (second ++ [newline]), failure, printed⟩) _ :=
    returns_answer _ _ _ hfirst rfl
  have hpassword : Returns
      (fun n => handleOne (some (.password ⟨passwordPrompt, none⟩)) n
        ⟨second ++ [newline], failure, printed ++ namePrompt⟩) _ :=
    returns_answer _ _ _ hsecond rfl
  have hnil : ∀ s, Returns (fun n => handle [] n s) ⟨none, [], s⟩ := fun s => ⟨0, rfl⟩
  exact ⟨_, returns_handle_cons rfl hname (returns_handle_cons rfl hpassword (hnil _))⟩

/-- An input delivers one password. -/
lemma Delivers.password_eq {input : List Byte} {name name' : Text}
    {password password' : List CodeUnit} (h : Delivers input name password)
    (h' : Delivers input name' password') : password = password' := by
  obtain ⟨stdio, hreturns⟩ := h [] [] none []
  obtain ⟨stdio', hreturns'⟩ := h' [] [] none []
  have heq := (stable_handle _ _).unique hreturns hreturns'
  simp only [AllHandled.mk.injEq, List.cons.injEq, Option.some.injEq, Callback.password.injEq,
    PasswordCallback.mk.injEq] at heq
  exact heq.2.1.2.1.2

end Handle

/-! ## Both terminators -/

section Terminators

variable (t : Terminator) (line : Line)

lemma newline_notMem_before : newline ∉ line.bytes ++ t.before := by
  rw [List.mem_append, not_or]
  refine ⟨line.newline_notMem, ?_⟩
  cases t <;> decide

/-- Without surrogates, a string has its `char`s. -/
lemma toCharArray_toText (buffer : List CodeUnit) : toCharArray (toText buffer) = buffer := by
  unfold toCharArray toText
  rw [List.flatMap_map]
  simp only [codeUnits_toNat, List.flatMap_singleton']

/-- `trim` takes the carriage return. -/
lemma trim_before :
    trim (toText ((line.bytes ++ t.before).map UInt8.toUInt16)) = trim line.text := by
  cases t with
  | lf => simp [Terminator.before, Line.text, Line.chars]
  | crlf =>
      rw [Terminator.before, List.map_append, toText, List.map_append]
      exact trim_append_singleton rfl _

/-- **What is delivered**: the name without what comes before the line feed, and the password with
it. -/
lemma delivers_terminated (userName password : Line) :
    Delivers (userName.terminated t ++ password.terminated t) (trim userName.text)
      (password.chars ++ t.before.map UInt8.toUInt16) := by
  have hlines :=
    delivers_lines (newline_notMem_before t userName) (newline_notMem_before t password)
  rw [trim_before, toCharArray_toText, List.map_append] at hlines
  simpa [Line.terminated, Line.chars] using hlines

end Terminators

/-- **CR LF is not LF.**  For all lines: with LF both are delivered as they are meant to be, with CR
LF the name is and the password has the carriage return at its end; so that for no lines the
terminators make no difference. -/
theorem never_same_for_all_terminators (userName password : Line) :
    Delivers (userName.terminated .lf ++ password.terminated .lf) (trim userName.text)
        password.chars ∧
      Delivers (userName.terminated .crlf ++ password.terminated .crlf) (trim userName.text)
        (password.chars ++ [0x0D]) ∧
      ¬SameForAllTerminators userName password := by
  have hlf := delivers_terminated .lf userName password
  have hcrlf := delivers_terminated .crlf userName password
  rw [Terminator.before, List.map_nil, List.append_nil] at hlf
  refine ⟨hlf, hcrlf, fun hsame => ?_⟩
  have heq := (hsame .crlf).password_eq hcrlf
  simp [Terminator.before] at heq

/-- The user `a` with the password `b`. -/
theorem crlf_changes_password :
    ¬SameForAllTerminators ⟨[0x61], by simp, by decide, by decide⟩
      ⟨[0x62], by simp, by decide, by decide⟩ := by
  intro hsame
  have heq := (hsame .crlf).password_eq (delivers_terminated .crlf _ _)
  exact absurd heq (by decide)

end MatchaCallbackHandler

end LearnJava
