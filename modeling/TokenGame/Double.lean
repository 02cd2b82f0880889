/-! Natural numbers in double precision: which are too large for it, and which
double is nearest to one that is not. -/
namespace TokenGame.Double

/-- Every magnitude from here on is nearer to infinity than to a double. -/
def limit : Nat := Nat.pow 2 1024 - Nat.pow 2 970

/-- The double nearest to a natural number. It keeps 53 binary digits, and a number
in the middle between two goes to the even one. -/
def nearest (n : Nat) : Nat :=
  if n < Nat.pow 2 53 then n
  else
    let unit := Nat.pow 2 (n.log2 - 52)
    let below := n / unit
    let rest := n % unit
    if 2 * rest < unit ∨ (2 * rest = unit ∧ below % 2 = 0) then below * unit
    else (below + 1) * unit

theorem nearest_of_lt {n : Nat} (small : n < Nat.pow 2 53) : nearest n = n := if_pos small

example : nearest (2 ^ 53 + 1) = 2 ^ 53 ∧ nearest (2 ^ 53 + 3) = 2 ^ 53 + 4 := by decide +kernel

end TokenGame.Double
