/-! What spellings of numbers and texts have in common. The digits of a number in a base are
those of its quotient by the base, and then the remainder; between quotes every character is
written on its own. -/
namespace TokenGame

/-! ### Digits -/

/-- What holds of one digit, and of a number whenever it holds of the quotient, holds of every
number and its digits. -/
theorem toDigits_induction {base : Nat} (large : 1 < base) {motive : Nat → List Char → Prop}
    (single : ∀ n, n < base → motive n [Nat.digitChar n])
    (next : ∀ n, base ≤ n → motive (n / base) (Nat.toDigits base (n / base)) →
      motive n (Nat.toDigits base (n / base) ++ [Nat.digitChar (n % base)])) (n : Nat) :
    motive n (Nat.toDigits base n) := by
  induction n using Nat.strongRecOn with
  | ind n ih =>
    by_cases small : n < base
    · rw [Nat.toDigits_of_lt_base small]
      exact single n small
    · have above : base ≤ n := Nat.not_lt.mp small
      rw [Nat.toDigits_of_base_le large above]
      exact next n above (ih (n / base) (Nat.div_lt_self (by omega) large))

theorem forall_mem_toDigits {p : Char → Prop} (digits : ∀ c, c.isDigit = true → p c) (n : Nat) :
    ∀ c ∈ Nat.toDigits 10 n, p c := fun c member =>
  digits c (Nat.isDigit_of_mem_toDigits (by decide) (by decide) member)

theorem exists_toDigits (n : Nat) : ∃ first rest, Nat.toDigits 10 n = first :: rest ∧
    first.isDigit = true ∧ ∀ c ∈ rest, c.isDigit = true := by
  have each := forall_mem_toDigits (fun c digit => digit) n
  cases digits : Nat.toDigits 10 n with
  | nil => exact absurd digits Nat.toDigits_ne_nil
  | cons first rest =>
    rw [digits] at each
    exact ⟨first, rest, rfl, List.forall_mem_cons.mp each⟩

/-- Only zero begins with a zero. -/
theorem head?_toDigits_ne_zero {n : Nat} (positive : 0 < n) :
    (Nat.toDigits 10 n).head? ≠ some '0' := by
  revert positive
  apply toDigits_induction (by decide) (motive := fun n ds => 0 < n → ds.head? ≠ some '0')
  · intro n _ positive
    simp only [List.head?_cons, ne_eq, Option.some.injEq, Nat.digitChar_eq_zero]
    omega
  · intro n above ih _
    have quotient := ih (by omega)
    cases digits : Nat.toDigits 10 (n / 10) with
    | nil => exact absurd digits Nat.toDigits_ne_nil
    | cons first rest => simpa [digits] using quotient

/-! ### Texts between quotes -/

/-- A text is made of pieces, each of which stands for a character, or for what else texts are
made of. -/
inductive Piecewise {α : Type} (stands : List Char → α → Prop) : List Char → List α → Prop where
  | nil : Piecewise stands [] []
  | cons {piece rest : List Char} {a : α} {as : List α} : stands piece a →
      Piecewise stands rest as → Piecewise stands (piece ++ rest) (a :: as)

namespace Piecewise

theorem flatMap {α β : Type} {stands : List Char → β → Prop} {write : α → List Char}
    {value : α → β} (each : ∀ a, stands (write a) (value a)) (as : List α) :
    Piecewise stands (as.flatMap write) (as.map value) := by
  induction as with
  | nil => exact .nil
  | cons a as ih => exact .cons (each a) ih

theorem append {α : Type} {stands : List Char → α → Prop} {text more : List Char} {as bs : List α}
    (left : Piecewise stands text as) (right : Piecewise stands more bs) :
    Piecewise stands (text ++ more) (as ++ bs) := by
  induction left with
  | nil => exact right
  | cons stands _ ih =>
    rw [List.append_assoc]
    exact .cons stands ih

/-- Characters that stand for themselves. -/
theorem verbatim {stands : List Char → Char → Prop} {chars : List Char}
    (each : ∀ c ∈ chars, stands [c] c) : Piecewise stands chars chars := by
  induction chars with
  | nil => exact .nil
  | cons c chars ih =>
    obtain ⟨first, each⟩ := List.forall_mem_cons.mp each
    exact .cons first (ih each)

end Piecewise

end TokenGame
