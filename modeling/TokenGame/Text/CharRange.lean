/-! Sets of characters given by ranges of code points. -/
namespace TokenGame

/-- The first and the last code point of a range. -/
abbrev CharRange := Nat × Nat

def CharRange.holds (ranges : List CharRange) (c : Char) : Bool :=
  ranges.any fun r => r.1 ≤ c.toNat && c.toNat ≤ r.2

end TokenGame
