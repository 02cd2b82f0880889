import TokenGame.Count

/-! A marking gives the tokens of each place by its index. Markings of any length
exist; a net accepts those with one count per place. -/
namespace TokenGame

structure Marking where
  counts : Array Count
  deriving DecidableEq, Hashable, Repr, Inhabited

namespace Marking

def ofList (counts : List Count) : Marking := ⟨counts.toArray⟩

def toList (m : Marking) : List Count := m.counts.toList

def zero (places : Nat) : Marking := ⟨Array.replicate places 0⟩

def size (m : Marking) : Nat := m.counts.size

/-- The tokens on a place; a place beyond the marking is empty. -/
def tokens (m : Marking) (place : Nat) : Count := m.counts.getD place 0

def set (m : Marking) (place : Nat) (count : Count) : Marking :=
  ⟨m.counts.setIfInBounds place count⟩

/-- The largest count on any place. -/
def maximum (m : Marking) : Count := Count.maximum m.toList

/-- Counts with their place indices, as log records show a marking. -/
def describe (m : Marking) : String :=
  let entries := m.toList.mapIdx fun place n => s!"p#{place}: {n.toNat}"
  "\x7b" ++ String.intercalate ", " entries ++ "\x7d"

@[simp] theorem size_set (m : Marking) (place : Nat) (count : Count) :
    (m.set place count).size = m.size := by
  simp [set, size]

@[simp] theorem tokens_set_same (m : Marking) (place : Nat) (count : Count)
    (h : place < m.size) : (m.set place count).tokens place = count := by
  have : place < m.counts.size := h
  simp [set, tokens, Array.getD_eq_getD_getElem?, this]

@[simp] theorem tokens_set_other (m : Marking) {place other : Nat} (count : Count)
    (h : place ≠ other) : (m.set place count).tokens other = m.tokens other := by
  simp [set, tokens, Array.getD_eq_getD_getElem?, Array.getElem?_setIfInBounds_ne h]

end Marking

end TokenGame
