import Mathlib.Data.List.TakeDrop
import Mathlib.Data.List.TakeWhile
import TokenGame.Json.Token
import TokenGame.Proofs.Text.Spelling

/-! JSON numbers by their grammar: an integer without leading zeros, with a minus sign before it
and a fraction and an exponent after it if needed. The scanner finds the parts of every number
that is written this way. -/
namespace TokenGame.Json.Number

def IsDigits (ds : List Char) : Prop := ds ≠ [] ∧ ∀ c ∈ ds, c.isDigit = true

/-- Digits that begin with a zero only if there is no other. -/
def IsWhole (ds : List Char) : Prop := IsDigits ds ∧ (ds.head? = some '0' → ds = ['0'])

inductive IsFraction : List Char → Prop where
  | absent : IsFraction []
  | digits {ds : List Char} : IsDigits ds → IsFraction ('.' :: ds)

inductive IsExponent : List Char → Prop where
  | absent : IsExponent []
  | power {e : Char} {sign ds : List Char} : e = 'e' ∨ e = 'E' →
      sign = [] ∨ sign = ['+'] ∨ sign = ['-'] → IsDigits ds → IsExponent (e :: sign ++ ds)

/-- The characters are a number, and this is the document that it is. -/
inductive Numeral : List Char → Json → Prop where
  | natural {ds : List Char} : IsWhole ds → Numeral ds (.natural (value ds))
  /-- A number with a minus sign, a fraction or an exponent. -/
  | decimal {minus whole fraction exponent : List Char} : minus = [] ∨ minus = ['-'] →
      IsWhole whole → IsFraction fraction → IsExponent exponent →
      minus ++ fraction ++ exponent ≠ [] →
      Numeral (minus ++ (whole ++ (fraction ++ exponent)))
        (.decimal (String.ofList (minus ++ (whole ++ (fraction ++ exponent)))))

theorem digits_append {ds rest : List Char} (each : ∀ c ∈ ds, c.isDigit = true)
    (apart : ∀ c ∈ rest.head?, c.isDigit = false) : digits (ds ++ rest) = (ds, rest) := by
  have front : rest.takeWhile Char.isDigit = [] := by
    cases rest with
    | nil => rfl
    | cons c rest => simpa using apart c rfl
  have back : rest.dropWhile Char.isDigit = rest := by
    cases rest with
    | nil => rfl
    | cons c rest => simpa using apart c rfl
  rw [digits, List.span_eq_takeWhile_dropWhile, List.takeWhile_append_of_pos each,
    List.dropWhile_append_of_pos each, front, back, List.append_nil]

theorem digits_self {ds : List Char} (each : ∀ c ∈ ds, c.isDigit = true) :
    digits ds = (ds, []) := by
  have read := digits_append each fun c (last : c ∈ ([] : List Char).head?) => by cases last
  rwa [List.append_nil] at read

theorem isInteger_of_isWhole {ds : List Char} (whole : IsWhole ds) : isInteger ds = true := by
  obtain ⟨⟨nonempty, _⟩, zero⟩ := whole
  obtain ⟨d, ds, rfl⟩ := List.exists_cons_of_ne_nil nonempty
  by_cases start : d = '0'
  · subst start
    obtain rfl := (List.cons.inj (zero rfl)).2
    rfl
  · simp [isInteger, start]

variable {fraction exponent : List Char}

theorem IsExponent.head_not_digit (shaped : IsExponent exponent) :
    ∀ c ∈ exponent.head?, c.isDigit = false := by
  cases shaped with
  | absent => simp
  | power e => rcases e with rfl | rfl <;> simp

theorem IsFraction.head_not_digit (shaped : IsFraction fraction) (after : IsExponent exponent) :
    ∀ c ∈ (fraction ++ exponent).head?, c.isDigit = false := by
  cases shaped with
  | absent => exact after.head_not_digit
  | digits => simp

theorem IsFraction.fraction?_eq (shaped : IsFraction fraction) (after : IsExponent exponent) :
    ∃ part, fraction? (fraction ++ exponent) = some (part, exponent) ∧
      (part.isSome = true ↔ fraction ≠ []) := by
  cases shaped with
  | absent =>
    refine ⟨none, ?_, by simp⟩
    cases after with
    | absent => rfl
    | power e => rcases e with rfl | rfl <;> rfl
  | @digits ds digits =>
    have read := digits_append digits.2 after.head_not_digit
    obtain ⟨d, ds, rfl⟩ := List.exists_cons_of_ne_nil digits.1
    rw [List.cons_append] at read
    exact ⟨some (d :: ds), by simp [fraction?, read], by simp⟩

theorem sign_digits {ds : List Char} (digits : IsDigits ds) : sign ds = (false, ds) := by
  obtain ⟨d, ds, rfl⟩ := List.exists_cons_of_ne_nil digits.1
  have digit := digits.2 d (.head ds)
  unfold sign
  split
  · rename_i same
    cases same
    cases digit
  · rename_i same
    cases same
    cases digit
  · rfl

theorem IsExponent.exponent?_eq (shaped : IsExponent exponent) :
    ∃ negative part, exponent? exponent = some (negative, part) ∧
      (part.isSome = true ↔ exponent ≠ []) := by
  cases shaped with
  | absent => exact ⟨false, none, rfl, by simp⟩
  | @power e prefixed ds letter signed digits =>
    obtain ⟨negative, read⟩ : ∃ negative, sign (prefixed ++ ds) = (negative, ds) := by
      rcases signed with rfl | rfl | rfl
      · exact ⟨false, sign_digits digits⟩
      · exact ⟨false, rfl⟩
      · exact ⟨true, rfl⟩
    have all := digits_self digits.2
    obtain ⟨d, ds, rfl⟩ := List.exists_cons_of_ne_nil digits.1
    exact ⟨negative, some (d :: ds), by simp [exponent?, letter, read, all], by simp⟩

/-- The parts of a number are found. -/
theorem lexeme?_eq {minus whole : List Char} (signed : minus = [] ∨ minus = ['-'])
    (integer : IsWhole whole) (fractional : IsFraction fraction) (scaled : IsExponent exponent) :
    ∃ l, lexeme? (minus ++ (whole ++ (fraction ++ exponent))) = some l ∧ l.integer = whole ∧
      ((l.negative || l.fraction.isSome || l.exponent.isSome) = true ↔
        minus ++ fraction ++ exponent ≠ []) := by
  have read := digits_append integer.1.2 (fractional.head_not_digit scaled)
  obtain ⟨part, fractionRead, fractionSome⟩ := fractional.fraction?_eq scaled
  obtain ⟨negative, power, exponentRead, exponentSome⟩ := scaled.exponent?_eq
  have valid := isInteger_of_isWhole integer
  rcases signed with rfl | rfl
  · obtain ⟨d, ds, rfl⟩ := List.exists_cons_of_ne_nil integer.1.1
    have digit := integer.1.2 d (.head ds)
    have unsigned : d ≠ '-' := by
      rintro rfl
      cases digit
    refine ⟨⟨false, d :: ds, part, negative, power⟩, ?_, rfl, ?_⟩
    · rw [List.cons_append] at read
      simp [lexeme?, unsigned, read, valid, fractionRead, exponentRead]
    · rw [Bool.or_eq_true, Bool.or_eq_true, fractionSome, exponentSome]
      simp [imp_iff_not_or]
  · refine ⟨⟨true, whole, part, negative, power⟩, ?_, rfl, by simp⟩
    simp [lexeme?, read, valid, fractionRead, exponentRead]

theorem Numeral.ofText?_eq {chars : List Char} {v : Json} (numeral : Numeral chars v) :
    ofText? chars = some v := by
  cases numeral with
  | natural whole =>
    obtain ⟨l, read, integer, marked⟩ := lexeme?_eq (.inl rfl) whole .absent .absent
    simp only [List.nil_append, List.append_nil] at read
    simp only [List.append_nil, ne_eq, not_true_eq_false, iff_false, Bool.not_eq_true] at marked
    rw [ofText?, read, Option.map_some, marked, integer]
    rfl
  | decimal signed whole fractional scaled more =>
    obtain ⟨l, read, _, marked⟩ := lexeme?_eq signed whole fractional scaled
    rw [ofText?, read, Option.map_some, if_pos (marked.mpr more)]

theorem IsDigits.numberChars {ds : List Char} (digits : IsDigits ds) :
    ∀ c ∈ ds, Token.isNumberChar c = true := by
  intro c member
  simp [Token.isNumberChar, digits.2 c member]

theorem IsFraction.numberChars (shaped : IsFraction fraction) :
    ∀ c ∈ fraction, Token.isNumberChar c = true := by
  cases shaped with
  | absent => simp
  | digits digits => exact List.forall_mem_cons.mpr ⟨rfl, digits.numberChars⟩

theorem IsExponent.numberChars (shaped : IsExponent exponent) :
    ∀ c ∈ exponent, Token.isNumberChar c = true := by
  cases shaped with
  | absent => simp
  | power letter signed digits =>
    have first := digits.numberChars
    rcases letter with rfl | rfl <;> rcases signed with rfl | rfl | rfl <;>
      simpa [Token.isNumberChar] using first

/-- The scanner takes all of a number for one. -/
theorem Numeral.numberChars {chars : List Char} {v : Json} (numeral : Numeral chars v) :
    ∃ first more, chars = first :: more ∧ Token.isNumberStart first = true ∧
      ∀ c ∈ more, Token.isNumberChar c = true := by
  have start {ds rest : List Char} (digits : IsDigits ds)
      (after : ∀ c ∈ rest, Token.isNumberChar c = true) :
      ∃ first more, ds ++ rest = first :: more ∧ Token.isNumberStart first = true ∧
        ∀ c ∈ more, Token.isNumberChar c = true := by
    have each := digits.numberChars
    obtain ⟨d, ds, rfl⟩ := List.exists_cons_of_ne_nil digits.1
    have digit := digits.2 d (.head ds)
    exact ⟨d, ds ++ rest, rfl, by simp [Token.isNumberStart, digit],
      List.forall_mem_append.mpr ⟨(List.forall_mem_cons.mp each).2, after⟩⟩
  cases numeral with
  | natural whole => simpa using start whole.1 (List.forall_mem_nil _)
  | decimal signed whole fractional scaled =>
    have after := List.forall_mem_append.mpr ⟨fractional.numberChars, scaled.numberChars⟩
    rcases signed with rfl | rfl
    · rw [List.nil_append]
      exact start whole.1 after
    · exact ⟨'-', _, List.singleton_append, rfl,
        List.forall_mem_append.mpr ⟨whole.1.numberChars, after⟩⟩

/-- The digits of a natural number are a number. -/
theorem numeral_toDigits (n : Nat) : Numeral (Nat.toDigits 10 n) (.natural n) := by
  have digits : IsDigits (Nat.toDigits 10 n) :=
    ⟨Nat.toDigits_ne_nil, forall_mem_toDigits (fun _ digit => digit) n⟩
  have zero : (Nat.toDigits 10 n).head? = some '0' → Nat.toDigits 10 n = ['0'] := by
    intro start
    rcases Nat.eq_zero_or_pos n with rfl | positive
    · rfl
    · exact absurd start (head?_toDigits_ne_zero positive)
  have numeral := Numeral.natural ⟨digits, zero⟩
  rwa [value, Nat.ofDigitChars_ten_toDigits] at numeral

end TokenGame.Json.Number
