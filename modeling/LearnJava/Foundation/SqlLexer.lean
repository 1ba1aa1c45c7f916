import Mathlib.Tactic

/-!
# Statements of SQL as tokens

The lexical rules of MySQL for words, integers and string literals between single quotes, over code
points.  In a literal two quotes stand for one, and a backslash escapes the character after it; what
stands for no other character stands for itself, but `\%` and `\_` stand for both characters.

The scanner is a machine that goes through a text once.  `scan` is what it makes of the text: a list
of tokens, unless a literal is not closed.  `Harmless` are the texts that a literal can hold as they
are, which is shown for every literal whose closing quote is the last quote of the text
(`scan_literal_iff`).  All other characters are tokens of their own; comments, which begin with such
characters, are not taken out.
-/

namespace LearnJava

namespace Sql

/-- `'`, `\`, `%` and `_`. -/
def quote : ℕ := 0x27
def backslash : ℕ := 0x5C
def percent : ℕ := 0x25
def underscore : ℕ := 0x5F

def isBlank (c : ℕ) : Bool := c = 0x20 ∨ c = 0x09 ∨ c = 0x0A ∨ c = 0x0D

def isDigit (c : ℕ) : Bool := 0x30 ≤ c ∧ c ≤ 0x39

/-- Letters, digits, underscores and dollar signs, and all characters beyond ASCII. -/
def isWordPart (c : ℕ) : Bool :=
  0x41 ≤ c ∧ c ≤ 0x5A ∨ 0x61 ≤ c ∧ c ≤ 0x7A ∨ c = underscore ∨ c = 0x24 ∨ 0x80 ≤ c ∨ isDigit c

inductive Token
  | word (w : List ℕ)
  | number (n : ℕ)
  | string (value : List ℕ)
  | symbol (c : ℕ)
  deriving DecidableEq, Repr

/-- What is being read, with what has been read of it.  `closing` is a literal after a quote, which
closes it unless it is one of two. -/
inductive State
  | between
  | word (w : List ℕ)
  | number (n : ℕ)
  | literal (value : List ℕ)
  | escape (value : List ℕ)
  | closing (value : List ℕ)
  deriving DecidableEq, Repr

/-- What a backslash and a character after it stand for. -/
def unescape (c : ℕ) : List ℕ :=
  if c = percent ∨ c = underscore then [backslash, c]
  else if c = 0x30 then [0x00]
  else if c = 0x62 then [0x08]
  else if c = 0x6E then [0x0A]
  else if c = 0x72 then [0x0D]
  else if c = 0x74 then [0x09]
  else if c = 0x5A then [0x1A]
  else [c]

/-- A character where no token is being read: the tokens it completes, and what is read after it. -/
def start (c : ℕ) : List Token × State :=
  if isBlank c then ([], .between)
  else if c = quote then ([], .literal [])
  else if isDigit c then ([], .number (c - 0x30))
  else if isWordPart c then ([], .word [c])
  else ([.symbol c], .between)

/-- A character. -/
def step : State → ℕ → List Token × State
  | .between, c => start c
  | .word w, c =>
    if isWordPart c then ([], .word (w ++ [c])) else (.word w :: (start c).1, (start c).2)
  | .number n, c =>
    if isDigit c then ([], .number (10 * n + (c - 0x30)))
    else (.number n :: (start c).1, (start c).2)
  | .literal value, c =>
    if c = quote then ([], .closing value)
    else if c = backslash then ([], .escape value)
    else ([], .literal (value ++ [c]))
  | .escape value, c => ([], .literal (value ++ unescape c))
  | .closing value, c =>
    if c = quote then ([], .literal (value ++ [quote]))
    else (.string value :: (start c).1, (start c).2)

/-- The end of the text; there is none in a literal. -/
def finish : State → Option (List Token)
  | .between => some []
  | .word w => some [.word w]
  | .number n => some [.number n]
  | .literal _ | .escape _ => none
  | .closing value => some [.string value]

/-- The tokens that a text completes, and what is being read at its end. -/
def run : State → List ℕ → List Token × State
  | st, [] => ([], st)
  | st, c :: t => ((step st c).1 ++ (run (step st c).2 t).1, (run (step st c).2 t).2)

/-- The tokens of a text from some state on. -/
def scan (st : State) (t : List ℕ) : Option (List Token) :=
  (finish (run st t).2).map ((run st t).1 ++ ·)

/-- The tokens of a text. -/
def tokens (t : List ℕ) : Option (List Token) := scan .between t

/-! ## Texts one after the other -/

variable {st : State} {t u : List ℕ} {c : ℕ} {value w : List ℕ} {ts : List Token}

lemma run_append (st : State) (t u : List ℕ) :
    run st (t ++ u) = ((run st t).1 ++ (run (run st t).2 u).1, (run (run st t).2 u).2) := by
  induction t generalizing st with
  | nil => rfl
  | cons c t ih => simp only [List.cons_append, run, ih, List.append_assoc]

lemma scan_append (st : State) (t u : List ℕ) :
    scan st (t ++ u) = (scan (run st t).2 u).map ((run st t).1 ++ ·) := by
  simp only [scan, run_append, Option.map_map]
  congr 1
  funext ts
  exact List.append_assoc _ _ _

lemma scan_cons (st : State) (c : ℕ) (t : List ℕ) :
    scan st (c :: t) = (scan (step st c).2 t).map ((step st c).1 ++ ·) := by
  rw [← List.singleton_append, scan_append]
  simp [run]

/-- A character that completes no token. -/
lemma scan_cons_of_step {st' : State} (h : step st c = ([], st')) (t : List ℕ) :
    scan st (c :: t) = scan st' t := by
  rw [scan_cons, h]
  simp

/-! ## Literals -/

/-- The text can stand between two quotes as it is: there is no quote in it, and every backslash is
before `%` or `_`. -/
def Harmless : List ℕ → Prop
  | [] => True
  | c :: w =>
    c ≠ quote ∧ (c = backslash → w.head? = some percent ∨ w.head? = some underscore) ∧ Harmless w

instance : ∀ w, Decidable (Harmless w)
  | [] => .isTrue trivial
  | _ :: w =>
    have := instDecidableHarmless w
    inferInstanceAs (Decidable (_ ∧ _ ∧ Harmless w))

lemma scan_literal_char (hquote : c ≠ quote) (hbackslash : c ≠ backslash) (value t : List ℕ) :
    scan (.literal value) (c :: t) = scan (.literal (value ++ [c])) t :=
  scan_cons_of_step (by simp [step, hquote, hbackslash]) t

lemma scan_literal_backslash (value t : List ℕ) :
    scan (.literal value) (backslash :: t) = scan (.escape value) t :=
  scan_cons_of_step rfl t

lemma scan_literal_quote (value t : List ℕ) :
    scan (.literal value) (quote :: t) = scan (.closing value) t :=
  scan_cons_of_step rfl t

lemma scan_escape (c : ℕ) (value t : List ℕ) :
    scan (.escape value) (c :: t) = scan (.literal (value ++ unescape c)) t :=
  scan_cons_of_step rfl t

lemma scan_closing_quote (value t : List ℕ) :
    scan (.closing value) (quote :: t) = scan (.literal (value ++ [quote])) t :=
  scan_cons_of_step rfl t

/-- A literal is closed by a quote with no other one after it. -/
lemma scan_closing (h : t.head? ≠ some quote) (value : List ℕ) :
    scan (.closing value) t = (scan .between t).map (.string value :: ·) := by
  cases t with
  | nil => rfl
  | cons c t =>
      have hquote : c ≠ quote := fun heq => h (by rw [heq]; rfl)
      have hstep : step (.closing value) c = (.string value :: (start c).1, (start c).2) := by
        rw [step, if_neg hquote]
      rw [scan_cons, scan_cons, hstep, step, Option.map_map]
      rfl

lemma length_unescape_le (c : ℕ) : (unescape c).length ≤ 2 := by
  unfold unescape
  split_ifs <;> simp

lemma length_unescape_eq_one (h : ¬(c = percent ∨ c = underscore)) :
    (unescape c).length = 1 := by
  rw [unescape, if_neg h]
  split_ifs <;> rfl

/-- What is harmless is read as it is. -/
lemma scan_of_harmless (u : List ℕ) (h : Harmless w) (value : List ℕ) :
    scan (.literal value) (w ++ u) = scan (.literal (value ++ w)) u := by
  -- after a backslash, the next character is `%` or `_`
  have hboth : ∀ w, Harmless w → ∀ value,
      scan (.literal value) (w ++ u) = scan (.literal (value ++ w)) u ∧
        (w.head? = some percent ∨ w.head? = some underscore →
          scan (.escape value) (w ++ u) = scan (.literal (value ++ backslash :: w)) u) := by
    intro w
    induction w with
    | nil => simp
    | cons c w ih =>
        rintro ⟨hquote, hbackslash, hw⟩ value
        rw [List.cons_append]
        constructor
        · by_cases hc : c = backslash
          · subst hc
            rw [scan_literal_backslash]
            exact (ih hw value).2 (hbackslash rfl)
          · rw [scan_literal_char hquote hc, (ih hw _).1, List.append_assoc]
            rfl
        · intro hhead
          have hc : c = percent ∨ c = underscore := by simpa using hhead
          rw [scan_escape, unescape, if_pos hc, (ih hw _).1, List.append_assoc]
          rfl
  exact (hboth w h value).1

/-- A literal that is not closed is no token. -/
lemma scan_open (h : quote ∉ t) (value : List ℕ) :
    scan (.literal value) t = none ∧ scan (.escape value) t = none := by
  induction t generalizing value with
  | nil => exact ⟨rfl, rfl⟩
  | cons c t ih =>
      have hquote : c ≠ quote := (List.ne_of_not_mem_cons h).symm
      have ht := ih (List.not_mem_of_not_mem_cons h)
      constructor
      · by_cases hc : c = backslash
        · subst hc
          rw [scan_literal_backslash]
          exact (ht value).2
        · rw [scan_literal_char hquote hc]
          exact (ht _).1
      · rw [scan_escape]
        exact (ht _).1

lemma head?_ne_quote (hu : quote ∉ u) : u.head? ≠ some quote :=
  fun h => hu (List.mem_of_mem_head? h)

/-- The value that a literal can have which is closed at the last quote of the text, at the
latest. -/
lemma length_le_of_scan (hu : quote ∉ u) (w value : List ℕ) :
    (scan (.literal value) (w ++ quote :: u) = some (.string t :: ts) →
        t.length ≤ value.length + w.length) ∧
      (scan (.escape value) (w ++ quote :: u) = some (.string t :: ts) →
        t.length ≤ value.length + w.length + 1) ∧
      (scan (.closing value) (w ++ quote :: u) = some (.string t :: ts) →
        t.length ≤ value.length + w.length) := by
  induction w generalizing value with
  | nil =>
      refine ⟨fun h => ?_, fun h => ?_, fun h => ?_⟩
      · rw [List.nil_append, scan_literal_quote, scan_closing (head?_ne_quote hu)] at h
        obtain ⟨rest, -, hrest⟩ := Option.map_eq_some_iff.mp h
        obtain rfl := Token.string.inj (List.cons.inj hrest).1
        exact Nat.le_add_right _ _
      · rw [List.nil_append, scan_escape, (scan_open hu _).1] at h
        cases h
      · rw [List.nil_append, scan_closing_quote, (scan_open hu _).1] at h
        cases h
  | cons c w ih =>
      rw [List.length_cons, List.cons_append]
      refine ⟨fun h => ?_, fun h => ?_, fun h => ?_⟩
      · by_cases hquote : c = quote
        · subst hquote
          rw [scan_literal_quote] at h
          have hle := (ih value).2.2 h
          omega
        by_cases hbackslash : c = backslash
        · subst hbackslash
          rw [scan_literal_backslash] at h
          exact (ih value).2.1 h
        · rw [scan_literal_char hquote hbackslash] at h
          have hle := (ih _).1 h
          rw [List.length_append, List.length_singleton] at hle
          omega
      · rw [scan_escape] at h
        have hle := (ih _).1 h
        have htwo := length_unescape_le c
        rw [List.length_append] at hle
        omega
      · by_cases hquote : c = quote
        · subst hquote
          rw [scan_closing_quote] at h
          have hle := (ih _).1 h
          rw [List.length_append, List.length_singleton] at hle
          omega
        · have hhead : (c :: (w ++ quote :: u)).head? ≠ some quote :=
            fun heq => hquote (Option.some.inj heq)
          rw [scan_closing hhead] at h
          obtain ⟨rest, -, hrest⟩ := Option.map_eq_some_iff.mp h
          obtain rfl := Token.string.inj (List.cons.inj hrest).1
          exact Nat.le_add_right _ _

/-- A literal whose value is the text between its first quote and the last one of all is
harmless. -/
lemma harmless_of_scan (hu : quote ∉ u) (w value : List ℕ) :
    (scan (.literal value) (w ++ quote :: u) = some (.string (value ++ w) :: ts) →
        Harmless w) ∧
      (scan (.escape value) (w ++ quote :: u) = some (.string (value ++ backslash :: w) :: ts) →
        (w.head? = some percent ∨ w.head? = some underscore) ∧ Harmless w) := by
  induction w generalizing value with
  | nil =>
      refine ⟨fun _ => trivial, fun h => ?_⟩
      rw [List.nil_append, scan_escape, (scan_open hu _).1] at h
      cases h
  | cons c w ih =>
      rw [List.cons_append]
      refine ⟨fun h => ?_, fun h => ?_⟩
      · by_cases hquote : c = quote
        · subst hquote
          rw [scan_literal_quote] at h
          have hle := (length_le_of_scan hu w value).2.2 h
          rw [List.length_append, List.length_cons] at hle
          omega
        refine ⟨hquote, ?_⟩
        by_cases hbackslash : c = backslash
        · subst hbackslash
          rw [scan_literal_backslash] at h
          exact ((ih value).2 h).imp_left fun hhead _ => hhead
        · rw [scan_literal_char hquote hbackslash, List.append_cons value c w] at h
          exact ⟨fun heq => absurd heq hbackslash, (ih _).1 h⟩
      · rw [scan_escape] at h
        by_cases hkept : c = percent ∨ c = underscore
        · have hvalue : value ++ backslash :: c :: w = value ++ unescape c ++ w := by
            rw [unescape, if_pos hkept, List.append_assoc]
            rfl
          rw [hvalue] at h
          refine ⟨by simpa using hkept, ?_, ?_, (ih _).1 h⟩
          · rcases hkept with rfl | rfl <;> decide
          · rcases hkept with rfl | rfl <;> exact fun heq => absurd heq (by decide)
        · have hle := (length_le_of_scan hu w _).1 h
          rw [List.length_append, List.length_append, length_unescape_eq_one hkept,
            List.length_cons, List.length_cons] at hle
          omega

/-- A harmless text between two quotes is one token. -/
lemma scan_literal_of_harmless (h : Harmless w) (hu : quote ∉ u) {rest : List Token}
    (hrest : scan .between u = some rest) :
    scan (.literal []) (w ++ quote :: u) = some (.string w :: rest) := by
  rw [scan_of_harmless _ h, List.nil_append, scan_literal_quote,
    scan_closing (head?_ne_quote hu), hrest]
  rfl

/-- **Which texts a literal holds as they are.**  Let the last quote of a text come after `w`, and
let the rest after it be tokens.  A literal that begins before `w` has the value `w` exactly if `w`
is harmless. -/
theorem scan_literal_iff (hu : quote ∉ u) {rest : List Token}
    (hrest : scan .between u = some rest) :
    (∃ ts, scan (.literal []) (w ++ quote :: u) = some (.string w :: ts)) ↔ Harmless w := by
  constructor
  · rintro ⟨ts, h⟩
    exact (harmless_of_scan hu w []).1 h
  · exact fun h => ⟨rest, scan_literal_of_harmless h hu hrest⟩

/-! ## Words -/

lemma run_word (h : ∀ c ∈ t, isWordPart c = true) (w : List ℕ) :
    run (.word w) t = ([], .word (w ++ t)) := by
  induction t generalizing w with
  | nil => simp [run]
  | cons c t ih =>
      have hstep : step (.word w) c = ([], .word (w ++ [c])) := by
        rw [step, if_pos (h c List.mem_cons_self)]
      rw [run, hstep, ih fun d hd => h d (List.mem_cons_of_mem c hd), List.append_assoc]
      rfl

/-- Characters beyond ASCII are one word. -/
lemma scan_beyond (h : ∀ c ∈ t, 0x80 ≤ c) (ht : t ≠ []) : scan .between t = some [.word t] := by
  have hword : ∀ c ∈ t, isWordPart c = true := fun c hc => by simp [isWordPart, h c hc]
  cases t with
  | nil => exact absurd rfl ht
  | cons c t =>
      have hc := h c List.mem_cons_self
      have hstart : step .between c = ([], .word [c]) := by
        have hblank : isBlank c = false := by
          simp only [isBlank, decide_eq_false_iff_not]
          omega
        have hquote : c ≠ quote := by
          unfold quote
          omega
        have hdigit : isDigit c = false := by
          simp only [isDigit, decide_eq_false_iff_not]
          omega
        rw [step, start, hblank, if_neg Bool.false_ne_true, if_neg hquote, hdigit,
          if_neg Bool.false_ne_true, if_pos (hword c List.mem_cons_self)]
      rw [scan, run, hstart, run_word fun d hd => hword d (List.mem_cons_of_mem c hd)]
      rfl

/-! ## Decimal numbers -/

lemma isDigit_toNat {c : Char} (h : c.isDigit = true) : isDigit c.toNat = true := by
  simp only [Char.isDigit, Bool.and_eq_true, decide_eq_true_eq] at h
  simp only [isDigit, decide_eq_true_eq]
  exact h

lemma run_digits {l : List Char} (h : ∀ c ∈ l, c.isDigit = true) (n : ℕ) :
    run (.number n) (l.map Char.toNat) = ([], .number (Nat.ofDigitChars 10 l n)) := by
  induction l generalizing n with
  | nil => rfl
  | cons c l ih =>
      have hc : isDigit c.toNat = true := isDigit_toNat (h c List.mem_cons_self)
      have hstep : step (.number n) c.toNat = ([], .number (10 * n + (c.toNat - 0x30))) := by
        rw [step, if_pos hc]
      rw [List.map_cons, run, hstep, ih fun d hd => h d (List.mem_cons_of_mem c hd),
        Nat.ofDigitChars_cons]
      rfl

/-- A number can begin with its first digit, or with a zero before it. -/
lemma step_between_digit (h : isDigit c = true) : step .between c = step (.number 0) c := by
  simp only [isDigit, decide_eq_true_eq] at h
  have hblank : isBlank c = false := by
    simp only [isBlank, decide_eq_false_iff_not]
    omega
  have hquote : c ≠ quote := by
    unfold quote
    omega
  have hdigit : isDigit c = true := by simpa [isDigit] using h
  rw [step, start, hblank, if_neg Bool.false_ne_true, if_neg hquote, step, if_pos hdigit,
    if_pos hdigit, Nat.mul_zero, Nat.zero_add]

/-- A number in decimal digits is one token. -/
lemma scan_toDigits (n : ℕ) :
    scan .between ((Nat.toDigits 10 n).map Char.toNat) = some [.number n] := by
  have hdigits : ∀ c ∈ Nat.toDigits 10 n, c.isDigit = true :=
    fun c hc => Nat.isDigit_of_mem_toDigits (by decide) (by decide) hc
  have hrun := run_digits hdigits 0
  rw [Nat.ofDigitChars_ten_toDigits] at hrun
  have hbetween : run .between ((Nat.toDigits 10 n).map Char.toNat) = ([], .number n) := by
    rw [← hrun]
    cases hl : Nat.toDigits 10 n with
    | nil => exact absurd hl (by simp)
    | cons c l =>
        have hc : c.isDigit = true := hdigits c (by simp [hl])
        rw [List.map_cons, run, run, step_between_digit (isDigit_toNat hc)]
  rw [scan, hbetween]
  rfl

end Sql

end LearnJava
