import LearnJava.Java.Lang
import Mathlib.Data.List.DropRight

/-!
# Strings of `java.lang`

A string is the list of its code points; a surrogate without its partner is a code point of its
own.  `trim` and `split` are those of `String`, the latter for a separator that is one character.

`toUpperCase` depends on the Unicode tables of the platform.  A `Casing` is the part of them that
belongs to no locale: what it maps ASCII to is fixed, what it maps the rest to is left open but
for three laws of the Unicode mapping.  Upper-casing then commutes with `split` and with `trim`,
because neither the separator nor a blank is touched or made by it.
-/

namespace LearnJava

/-- A string, as its code points. -/
abbrev Text := List ℕ

/-- A string literal. -/
def text (s : String) : Text := s.toList.map Char.toNat

/-- The one or two `char`s of a code point. -/
def codeUnits (c : ℕ) : List CodeUnit :=
  if c < 0x10000 then [.ofNat c]
  else [.ofNat (0xD800 + (c - 0x10000) / 0x400), .ofNat (0xDC00 + (c - 0x10000) % 0x400)]

/-- `s.toCharArray()`. -/
def toCharArray (s : Text) : List CodeUnit := s.flatMap codeUnits

/-- `s.hashCode()`. -/
def stringHashCode (s : Text) : ℤ :=
  (toCharArray s).foldl (fun h c => wrap32 (31 * h + c.toNat)) 0

/-- What `%s` makes of a string that may be `null`. -/
def formatString : Option Text → Text
  | some s => s
  | none => text "null"

/-- What `String.format` without a locale reads of the default one: the zero among its decimal
digits.  The digits of a locale are ten `char`s in a row, those of ASCII or ten others. -/
structure Locale where
  zeroDigit : ℕ
  isZero : zeroDigit = '0'.toNat ∨ 0x80 ≤ zeroDigit
  isChar : zeroDigit + 9 < 2 ^ 16

/-- A locale with the digits of ASCII. -/
def Locale.root : Locale := ⟨'0'.toNat, by decide, by decide⟩

/-- A character of a number as the locale has it. -/
def Locale.localize (l : Locale) (c : ℕ) : ℕ :=
  if '0'.toNat ≤ c ∧ c ≤ '9'.toNat then c - '0'.toNat + l.zeroDigit else c

/-- What `%d` makes of an integer; its sign is a hyphen in every locale. -/
def formatDecimal (l : Locale) (n : ℤ) : Text := (text (toString n)).map l.localize

/-- `s.replace(oldChar, newChar)`. -/
def replaceChar (oldChar newChar : Char) (s : Text) : Text :=
  s.map fun c => if c = oldChar.toNat then newChar.toNat else c

/-- What `trim` takes away: the space, U+0020, and all control characters before it. -/
def isBlank (c : ℕ) : Bool := c ≤ 0x20

/-- `s.trim()`. -/
def trim (s : Text) : Text := (s.dropWhile isBlank).rdropWhile isBlank

/-- A blank at the end is taken away. -/
lemma trim_append_singleton {c : ℕ} (hc : isBlank c = true) (s : Text) :
    trim (s ++ [c]) = trim s := by
  have hdrop : (s ++ [c]).dropWhile isBlank =
      if s.dropWhile isBlank = [] then [] else s.dropWhile isBlank ++ [c] := by
    rw [List.dropWhile_append]
    simp [hc]
  unfold trim
  rw [hdrop]
  split_ifs with hnil
  · rw [hnil]
  · rw [List.rdropWhile_concat_pos _ _ _ hc]

/-- A character outside the surrogates is one `char`. -/
lemma codeUnits_toNat (c : CodeUnit) : codeUnits c.toNat = [c] := by
  have hlt : c.toNat < 0x10000 := c.toNat_lt
  rw [codeUnits, if_pos hlt, UInt16.ofNat_toNat]

/-- `s.split(sep)` for a separator that is one character: trailing empty strings are left out, but
a string without a separator is returned as it is. -/
def split (sep : ℕ) (s : Text) : List Text :=
  let parts := s.splitOn sep
  if parts.length = 1 then parts else parts.rdropWhile List.isEmpty

/-- `split` leaves out nothing but empty strings. -/
lemma mem_split_iff {sep : ℕ} {s w : Text} (hw : w ≠ []) :
    w ∈ split sep s ↔ w ∈ s.splitOn sep := by
  simp only [split]
  split_ifs
  · rfl
  · have hsplit : (s.splitOn sep).rdropWhile List.isEmpty ++
        (s.splitOn sep).rtakeWhile List.isEmpty = s.splitOn sep :=
      List.rdropWhile_append_rtakeWhile
    constructor
    · intro h
      rw [← hsplit]
      exact List.mem_append_left _ h
    · intro h
      rw [← hsplit] at h
      refine (List.mem_append.mp h).resolve_right fun htail => hw ?_
      simpa using List.mem_rtakeWhile_imp htail

/-! ## Strings in which single characters are replaced -/

section Replaced

variable {α : Type*} {p : α → Bool} {f : α → List α}

/-- A replacement that keeps what satisfies `p` and makes nothing of the kind. -/
structure Spares (p : α → Bool) (f : α → List α) : Prop where
  fixed : ∀ c, p c = true → f c = [c]
  none_made : ∀ c, p c = false → ∀ d ∈ f c, p d = false

lemma Spares.reverse (h : Spares p f) : Spares p fun c => (f c).reverse := by
  refine ⟨fun c hc => by simp [h.fixed c hc], fun c hc d hd => ?_⟩
  exact h.none_made c hc d (List.mem_reverse.mp hd)

lemma dropWhile_flatMap (h : Spares p f) (hne : ∀ c, f c ≠ []) (s : List α) :
    (s.flatMap f).dropWhile p = (s.dropWhile p).flatMap f := by
  induction s with
  | nil => rfl
  | cons c s ih =>
      cases hc : p c with
      | true => simp [h.fixed c hc, hc, ih]
      | false =>
          obtain ⟨d, w, hdw⟩ := List.exists_cons_of_ne_nil (hne c)
          have hd : p d = false := h.none_made c hc d (by simp [hdw])
          simp [hdw, hd, hc]

lemma rdropWhile_flatMap (h : Spares p f) (hne : ∀ c, f c ≠ []) (s : List α) :
    (s.flatMap f).rdropWhile p = (s.rdropWhile p).flatMap f := by
  have hrev := dropWhile_flatMap h.reverse (fun c => by simpa using hne c) s.reverse
  simp only [List.rdropWhile, List.reverse_flatMap, Function.comp_def] at hrev ⊢
  rw [hrev, List.reverse_flatMap]
  simp [Function.comp_def]

lemma splitOnP_append {xs : List α} (h : ∀ x ∈ xs, p x = false) (ys : List α) :
    (xs ++ ys).splitOnP p = (ys.splitOnP p).modifyHead (xs ++ ·) := by
  induction xs with
  | nil =>
      obtain ⟨y, rest, hys⟩ := List.exists_cons_of_ne_nil (List.splitOnP_ne_nil p ys)
      simp [hys]
  | cons x xs ih =>
      have hx : p x = false := h x (by simp)
      have hxs := ih fun y hy => h y (by simp [hy])
      rw [List.cons_append, List.splitOnP_cons_eq_if_modifyHead, if_neg (by simp [hx]), hxs,
        List.modifyHead_modifyHead]
      rfl

lemma splitOnP_flatMap (h : Spares p f) (s : List α) :
    (s.flatMap f).splitOnP p = (s.splitOnP p).map (List.flatMap f) := by
  induction s with
  | nil => rfl
  | cons c s ih =>
      cases hc : p c with
      | true => simp [h.fixed c hc, List.splitOnP_cons_eq_if_modifyHead, hc, ih]
      | false =>
          rw [List.flatMap_cons, splitOnP_append (h.none_made c hc), ih,
            List.splitOnP_cons_eq_if_modifyHead, if_neg (by simp [hc])]
          cases s.splitOnP p <;> simp

end Replaced

/-! ## Upper-casing -/

/-- The upper-case mapping of single code points, without the rules of any locale. -/
structure Casing where
  upper : ℕ → Text
  /-- `a` to `z`, 97 to 122, are mapped to `A` to `Z`, 65 to 90. -/
  ascii : ∀ c < 128, upper c = [if 97 ≤ c ∧ c ≤ 122 then c - 32 else c]
  /-- The only ASCII characters that others are mapped to are capital letters. -/
  capital : ∀ c, 128 ≤ c → ∀ d ∈ upper c, d < 128 → 65 ≤ d ∧ d ≤ 90
  ne_nil : ∀ c, upper c ≠ []
  idem : ∀ c, (upper c).flatMap upper = upper c

namespace Casing

variable (K : Casing)

/-- `s.toUpperCase()`. -/
def toUpperCase (s : Text) : Text := s.flatMap K.upper

@[simp] lemma toUpperCase_eq_nil_iff {s : Text} : K.toUpperCase s = [] ↔ s = [] := by
  constructor
  · intro h
    refine List.eq_nil_iff_forall_not_mem.mpr fun c hc => ?_
    exact K.ne_nil c (List.flatMap_eq_nil_iff.mp h c hc)
  · rintro rfl
    rfl

@[simp] lemma toUpperCase_idem (s : Text) :
    K.toUpperCase (K.toUpperCase s) = K.toUpperCase s := by
  simp only [toUpperCase, List.flatMap_assoc]
  exact congrArg s.flatMap (funext K.idem)

/-- ASCII characters that are no letters are spared. -/
lemma spares {p : ℕ → Bool} (hascii : ∀ c, p c = true → c < 128)
    (hletter : ∀ c, p c = true → ¬(65 ≤ c ∧ c ≤ 90) ∧ ¬(97 ≤ c ∧ c ≤ 122)) :
    Spares p K.upper := by
  refine ⟨fun c hc => by rw [K.ascii c (hascii c hc), if_neg (hletter c hc).2],
    fun c hc d hd => ?_⟩
  by_contra hpd
  rw [Bool.not_eq_false] at hpd
  have hnot := (hletter d hpd).1
  by_cases hlt : c < 128
  · rw [K.ascii c hlt, List.mem_singleton] at hd
    split_ifs at hd with hcase
    · omega
    · subst hd
      simp [hc] at hpd
  · exact hnot (K.capital c (not_lt.mp hlt) d hd (hascii d hpd))

lemma spares_isBlank : Spares isBlank K.upper := by
  refine K.spares (fun c hc => ?_) fun c hc => ?_ <;>
    · simp only [isBlank, decide_eq_true_eq] at hc
      omega

/-- `trim` and `toUpperCase` commute. -/
lemma trim_toUpperCase (s : Text) : trim (K.toUpperCase s) = K.toUpperCase (trim s) := by
  simp only [trim, toUpperCase]
  rw [dropWhile_flatMap K.spares_isBlank K.ne_nil, rdropWhile_flatMap K.spares_isBlank K.ne_nil]

/-- Upper-casing a list joined with commas is upper-casing its members. -/
lemma splitOn_toUpperCase (s : Text) :
    (K.toUpperCase s).splitOn ','.toNat = (s.splitOn ','.toNat).map K.toUpperCase := by
  refine splitOnP_flatMap (K.spares (fun c hc => ?_) fun c hc => ?_) s <;>
    · obtain rfl : c = ','.toNat := by simpa using hc
      decide

/-- The mapping of ASCII, of `ß` and of the letters outside ASCII whose capitals are ASCII. -/
def latin : Casing where
  upper c :=
    if 97 ≤ c ∧ c ≤ 122 then [c - 32]
    else if c = 0xDF then text "SS"
    else if c = 0x131 then text "I"
    else if c = 0x17F then text "S"
    else [c]
  ascii c hc := by
    split_ifs <;> first | rfl | omega
  capital c hc d hd hlt := by
    split_ifs at hd <;> simp [text] at hd <;> omega
  ne_nil c := by
    split_ifs <;> simp [text]
  idem c := by
    split_ifs with hlower hsharp hdotless hlong
    · simp only [List.flatMap_cons, List.flatMap_nil, List.append_nil]
      split_ifs <;> first | rfl | omega
    · decide
    · decide
    · decide
    · simp [hlower, hsharp, hdotless, hlong]

end Casing

end LearnJava
