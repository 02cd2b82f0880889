/-! Token counts and arc weights are 64-bit words. Adding and removing tokens is
checked: it has no result where the exact sum or difference is not a word.
Weights of parallel arcs are added up to the largest word. -/
namespace TokenGame

/-- A number of tokens on a place, or the weight of an arc. -/
abbrev Count := UInt64

namespace Count

/-- One more than the largest count. -/
def limit : Nat := UInt64.size

/-- The count with a given value, if there is one. -/
def ofNat? (n : Nat) : Option Count :=
  if n < limit then some n.toUInt64 else none

/-- The sum of two counts, if it is a count. -/
def add? (a b : Count) : Option Count :=
  if a.toNat + b.toNat < limit then some (a + b) else none

/-- The difference of two counts, if it is a count. -/
def sub? (a b : Count) : Option Count :=
  if b ≤ a then some (a - b) else none

/-- The sum of two counts, or the largest count if the sum is larger. -/
def addSaturating (a b : Count) : Count :=
  (add? a b).getD 18446744073709551615

/-- The largest of some counts, zero if there are none. -/
def maximum (counts : List Count) : Count :=
  counts.foldl max 0

theorem toNat_lt_limit (a : Count) : a.toNat < limit := a.toNat_lt

theorem toNat_of_ofNat? {n : Nat} {a : Count} (h : ofNat? n = some a) : a.toNat = n := by
  unfold ofNat? at h
  split at h
  · rename_i small
    cases h
    exact UInt64.toNat_ofNat_of_lt small
  · cases h

theorem toNat_of_add? {a b c : Count} (h : add? a b = some c) :
    c.toNat = a.toNat + b.toNat := by
  unfold add? at h
  split at h
  · rename_i small
    cases h
    rw [UInt64.toNat_add]
    exact Nat.mod_eq_of_lt small
  · cases h

theorem toNat_of_sub? {a b c : Count} (h : sub? a b = some c) :
    c.toNat = a.toNat - b.toNat := by
  unfold sub? at h
  split at h
  · rename_i le
    cases h
    exact UInt64.toNat_sub_of_le a b le
  · cases h

/-- Addition saturates at the largest count and is exact below it. -/
theorem toNat_addSaturating (a b : Count) :
    (addSaturating a b).toNat = min (limit - 1) (a.toNat + b.toNat) := by
  unfold addSaturating
  cases sum : add? a b with
  | some c =>
    have exact_sum := toNat_of_add? sum
    have bound := toNat_lt_limit c
    simp only [Option.getD_some]
    omega
  | none =>
    have large : limit ≤ a.toNat + b.toNat := by
      unfold add? at sum
      split at sum
      · cases sum
      · omega
    have top : (18446744073709551615 : UInt64).toNat = limit - 1 := rfl
    simp only [Option.getD_none]
    omega

end Count

end TokenGame
