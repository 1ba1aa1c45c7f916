import LearnJava.Db.Transactions
import LearnJava.Foundation.SqlLexer

/-!
# The statement of `UpdateTransactionIsolationRunnable`

`run` puts the name between two quotes of its format string as it is.  Read by the lexical rules of
MySQL, the text is the intended statement only for the names that a literal can hold as they are:
with no quote in them, and no backslash but before `%` and `_`.  And `%d` writes the number with the
digits of the default locale, which are no number for MySQL unless they are those of ASCII.
-/

namespace LearnJava

open Sql (Token)

/-- `UPDATE table SET column = 'value' WHERE key = id` -/
structure UpdateStatement where
  table : Text
  column : Text
  value : Text
  key : Text
  id : ℤ
  deriving DecidableEq, Repr

namespace UpdateStatement

/-- An integer, which may have a minus sign. -/
def integer : List Token → Option ℤ
  | [.number n] => some n
  | [.symbol sign, .number n] => if sign = '-'.toNat then some (-n) else none
  | _ => none

/-- The statement that the tokens are, with one column to be set and one to be compared. -/
def parse : List Token → Option UpdateStatement
  | .word update :: .word table :: .word set :: .word column :: .symbol assign :: .string value ::
      .word condition :: .word key :: .symbol equal :: id =>
    if update = text "UPDATE" ∧ set = text "SET" ∧ assign = '='.toNat ∧
        condition = text "WHERE" ∧ equal = '='.toNat then
      (integer id).map (⟨table, column, value, key, ·⟩)
    else none
  | _ => none

/-- The statement that a text is read as. -/
def read (sql : Text) : Option UpdateStatement := (Sql.tokens sql).bind parse

/-! ## The text around the name -/

/-- The tokens before the name. -/
def head : List Token :=
  [.word (text "UPDATE"), .word (text "T_TEST"), .word (text "SET"), .word (text "FNAME"),
    .symbol '='.toNat]

/-- The tokens of a number. -/
def number (n : ℤ) : List Token :=
  if 0 ≤ n then [.number n.toNat] else [.symbol '-'.toNat, .number (-n).toNat]

/-- The tokens after the name, with those of the number. -/
def tail (number : List Token) : List Token :=
  .word (text "WHERE") :: .word (text "FID") :: .symbol '='.toNat :: number

lemma run_head :
    Sql.run .between (text "UPDATE T_TEST SET FNAME = '") = (head, .literal []) := by
  decide +kernel

lemma text_append (s t : String) : text (s ++ t) = text s ++ text t := by
  simp [text]

lemma text_repr (n : ℕ) : text n.repr = (Nat.toDigits 10 n).map Char.toNat := by
  rw [text, Nat.toList_repr]

/-- The digits of a number, in a locale. -/
def digits (l : Locale) (n : ℕ) : Text := (text n.repr).map l.localize

lemma formatDecimal_eq (l : Locale) (n : ℤ) :
    formatDecimal l n = if 0 ≤ n then digits l n.toNat else '-'.toNat :: digits l (-n).toNat := by
  rw [formatDecimal, Int.toString_eq_repr, Int.repr_eq_if]
  split_ifs
  · rfl
  · rw [text_append, show text "-" = ['-'.toNat] from rfl, List.singleton_append, List.map_cons]
    rfl

/-- The digits of a locale with those of ASCII. -/
lemma digits_root {l : Locale} (hzero : l.zeroDigit = '0'.toNat) (n : ℕ) :
    digits l n = (Nat.toDigits 10 n).map Char.toNat := by
  have hsame : ∀ c, l.localize c = c := by
    intro c
    unfold Locale.localize
    split_ifs with hc
    · rw [hzero]
      exact Nat.sub_add_cancel hc.1
    · rfl
  rw [digits, funext hsame, List.map_id', text_repr]

lemma digits_ne_nil (l : Locale) (n : ℕ) : digits l n ≠ [] := by
  simp [digits, text_repr]

/-- The digits of any other locale. -/
lemma beyond_of_mem_digits {l : Locale} (hzero : l.zeroDigit ≠ '0'.toNat) {n c : ℕ}
    (hc : c ∈ digits l n) : 0x80 ≤ c := by
  have hbeyond := l.isZero.resolve_left hzero
  rw [digits, text_repr, List.map_map] at hc
  obtain ⟨d, hd, rfl⟩ := List.mem_map.mp hc
  have hdigit := Sql.isDigit_toNat (Nat.isDigit_of_mem_toDigits (by decide) (by decide) hd)
  simp only [Sql.isDigit, decide_eq_true_eq] at hdigit
  have hlocalize : l.localize d.toNat = d.toNat - '0'.toNat + l.zeroDigit := if_pos hdigit
  rw [Function.comp_apply, hlocalize]
  omega

/-- The tokens of `%d` are those of a number, or hold a word of digits. -/
lemma scan_formatDecimal (l : Locale) (n : ℤ) :
    ∃ ts, Sql.scan .between (formatDecimal l n) = some ts ∧
      (l.zeroDigit = '0'.toNat → ts = number n) ∧
      (l.zeroDigit ≠ '0'.toNat → integer ts = none) := by
  have hminus : ∀ t, Sql.scan .between ('-'.toNat :: t) =
      (Sql.scan .between t).map (.symbol '-'.toNat :: ·) := fun t => Sql.scan_cons _ _ t
  have hdigits : ∀ m, ∃ d, Sql.scan .between (digits l m) = some [d] ∧
      (l.zeroDigit = '0'.toNat → d = .number m) ∧
      (l.zeroDigit ≠ '0'.toNat → d = .word (digits l m)) := by
    intro m
    by_cases hzero : l.zeroDigit = '0'.toNat
    · refine ⟨.number m, ?_, fun _ => rfl, fun hne => absurd hzero hne⟩
      rw [digits_root hzero, Sql.scan_toDigits]
    · refine ⟨_, ?_, fun heq => absurd heq hzero, fun _ => rfl⟩
      exact Sql.scan_beyond (fun c hc => beyond_of_mem_digits hzero hc) (digits_ne_nil l m)
  rw [formatDecimal_eq, number]
  split_ifs with hsign
  · obtain ⟨d, hscan, hroot, hother⟩ := hdigits n.toNat
    refine ⟨[d], hscan, fun hzero => by rw [hroot hzero], fun hzero => ?_⟩
    rw [hother hzero]
    rfl
  · obtain ⟨d, hscan, hroot, hother⟩ := hdigits (-n).toNat
    refine ⟨[.symbol '-'.toNat, d], ?_, fun hzero => by rw [hroot hzero], fun hzero => ?_⟩
    · rw [hminus, hscan]
      rfl
    · rw [hother hzero]
      rfl

lemma scan_tail {l : Locale} {updateDataId : ℤ} {ts : List Token}
    (h : Sql.scan .between (formatDecimal l updateDataId) = some ts) :
    Sql.scan .between (text " WHERE FID = " ++ formatDecimal l updateDataId) = some (tail ts) := by
  have hrun : Sql.run .between (text " WHERE FID = ") =
      ([.word (text "WHERE"), .word (text "FID"), .symbol '='.toNat], .between) := by
    decide +kernel
  rw [Sql.scan_append, hrun, h]
  rfl

lemma integer_number (n : ℤ) : integer (number n) = some n := by
  unfold number
  split_ifs with hsign
  · simp only [integer, Int.toNat_of_nonneg hsign]
  · have hneg : 0 ≤ -n := by omega
    simp only [integer, if_true, Int.toNat_of_nonneg hneg, neg_neg]

lemma parse_head_tail (value : Text) (number : List Token) :
    parse (head ++ .string value :: tail number) =
      (integer number).map (⟨text "T_TEST", text "FNAME", value, text "FID", ·⟩) := rfl

/-- What the column is set to is the first token after the equals sign. -/
lemma exists_of_parse_head {ts : List Token} {u : UpdateStatement}
    (h : parse (head ++ ts) = some u) : ∃ rest, ts = .string u.value :: rest := by
  simp only [head, List.cons_append, List.nil_append] at h
  unfold parse at h
  split at h
  · rename_i heq
    simp only [List.cons.injEq] at heq
    obtain ⟨-, -, -, -, -, rfl⟩ := heq
    split_ifs at h
    obtain ⟨id, -, rfl⟩ := Option.map_eq_some_iff.mp h
    exact ⟨_, rfl⟩
  · cases h

lemma sql_eq (l : Locale) (transactionIsolation updateDataId : ℤ) (updateName : Text) :
    (Transactions.UpdateTransactionIsolationRunnable.mk transactionIsolation updateDataId
        (some updateName)).sql l =
      text "UPDATE T_TEST SET FNAME = '" ++
        (updateName ++ Sql.quote :: (text " WHERE FID = " ++ formatDecimal l updateDataId)) := by
  have hquote : text "' WHERE FID = " = Sql.quote :: text " WHERE FID = " := rfl
  unfold Transactions.UpdateTransactionIsolationRunnable.sql formatString
  simp only [hquote, List.append_assoc, List.cons_append]

lemma quote_notMem_digits (l : Locale) (n : ℕ) : Sql.quote ∉ digits l n := by
  intro hmem
  by_cases hzero : l.zeroDigit = '0'.toNat
  · rw [digits_root hzero] at hmem
    obtain ⟨c, hc, hquote⟩ := List.mem_map.mp hmem
    have hdigit := Sql.isDigit_toNat (Nat.isDigit_of_mem_toDigits (by decide) (by decide) hc)
    rw [hquote] at hdigit
    exact absurd hdigit (by decide)
  · exact absurd (beyond_of_mem_digits hzero hmem) (by decide)

/-- There is no quote after the one that should close the literal. -/
lemma quote_notMem_tail (l : Locale) (updateDataId : ℤ) :
    Sql.quote ∉ text " WHERE FID = " ++ formatDecimal l updateDataId := by
  rw [formatDecimal_eq, List.mem_append, not_or]
  refine ⟨by decide, ?_⟩
  split_ifs
  · exact quote_notMem_digits l _
  · rw [List.mem_cons, not_or]
    exact ⟨by decide, quote_notMem_digits l _⟩

/-- **When the statement is the intended one.**  For all locales, names and numbers, the text of
`run` is read as one `UPDATE` of `T_TEST` that sets `FNAME` to the name where `FID` is the number,
exactly if the digits of the locale are those of ASCII, there is no quote in the name, and every
backslash in it is before `%` or `_`. -/
theorem read_sql_iff (l : Locale) (transactionIsolation updateDataId : ℤ) (updateName : Text) :
    read ((Transactions.UpdateTransactionIsolationRunnable.mk transactionIsolation updateDataId
        (some updateName)).sql l) =
      some ⟨text "T_TEST", text "FNAME", updateName, text "FID", updateDataId⟩ ↔
    l.zeroDigit = '0'.toNat ∧ Sql.Harmless updateName := by
  obtain ⟨number', hnumber, hroot, hother⟩ := scan_formatDecimal l updateDataId
  have hquote := quote_notMem_tail l updateDataId
  have htail := scan_tail hnumber
  rw [read, sql_eq, Sql.tokens, Sql.scan_append, run_head]
  constructor
  · intro h
    obtain ⟨all, hall, hparse⟩ := Option.bind_eq_some_iff.mp h
    obtain ⟨ts, hts, rfl⟩ := Option.map_eq_some_iff.mp hall
    obtain ⟨rest, rfl⟩ := exists_of_parse_head hparse
    have hharmless := (Sql.scan_literal_iff hquote htail).mp ⟨rest, hts⟩
    refine ⟨?_, hharmless⟩
    by_contra hzero
    rw [Sql.scan_literal_of_harmless hharmless hquote htail] at hts
    obtain rfl := List.cons.inj (Option.some.inj hts) |>.2
    rw [parse_head_tail, hother hzero] at hparse
    cases hparse
  · rintro ⟨hzero, hharmless⟩
    rw [Sql.scan_literal_of_harmless hharmless hquote htail, hroot hzero]
    have hparse := parse_head_tail updateName (number updateDataId)
    rw [integer_number] at hparse
    exact hparse

/-- A name that closes the literal and sets another column as well. -/
theorem name_sets_other_column :
    let sql := (Transactions.UpdateTransactionIsolationRunnable.mk 8 7
      (some (text "x', FNUMBER = '"))).sql .root
    Sql.tokens sql = some (head ++ [.string (text "x"), .symbol ','.toNat,
      .word (text "FNUMBER"), .symbol '='.toNat, .string []] ++ tail (number 7)) ∧
    read sql ≠
      some ⟨text "T_TEST", text "FNAME", text "x', FNUMBER = '", text "FID", 7⟩ := by
  decide +kernel

end UpdateStatement

end LearnJava
