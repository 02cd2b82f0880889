import TokenGame.Count

/-! The weighted connections of one transition. A place appears at most once in
each direction: parallel arcs are one link that carries their summed weight. -/
namespace TokenGame

/-- A connection to a place, by the place's index. -/
structure Link where
  place : Nat
  weight : Count
  deriving DecidableEq, Repr, Inhabited

namespace Link

/-- Adds an arc to the links of one direction. A place that is linked already
keeps its position and gains weight; a new one goes to the end. -/
def merge (place : Nat) (weight : Count) : List Link → List Link
  | [] => [⟨place, weight⟩]
  | l :: rest =>
    if l.place = place then ⟨place, Count.addSaturating l.weight weight⟩ :: rest
    else l :: merge place weight rest

/-- The weight of the link to a place, zero without a link. -/
def weightOf (links : List Link) (place : Nat) : Count :=
  ((links.find? (·.place == place)).map (·.weight)).getD 0

/-- Parallel arcs add up, as far as counts go, and other places are not touched. -/
theorem weightOf_merge (place : Nat) (weight : Count) (links : List Link) (other : Nat) :
    (weightOf (merge place weight links) other).toNat =
      if place = other then min (Count.limit - 1) ((weightOf links other).toNat + weight.toNat)
      else (weightOf links other).toNat := by
  induction links with
  | nil =>
    have bound := Count.toNat_lt_limit weight
    by_cases same : place = other
    · simp [merge, weightOf, same]; omega
    · simp [merge, weightOf, same]
  | cons l rest ih =>
    unfold merge
    by_cases here : l.place = place
    · subst here
      by_cases same : l.place = other
      · simp [weightOf, same, Count.toNat_addSaturating]
      · simp [weightOf, same]
    · by_cases same : l.place = other
      · subst same
        simp [weightOf, here, Ne.symm here]
      · simpa [weightOf, here, same] using ih

end Link

/-- What a transition takes from places and what it puts on them. -/
structure Flow where
  inputs : List Link := []
  outputs : List Link := []
  deriving DecidableEq, Repr, Inhabited

namespace Flow

def inputWeight (f : Flow) (place : Nat) : Count := Link.weightOf f.inputs place

def outputWeight (f : Flow) (place : Nat) : Count := Link.weightOf f.outputs place

/-- The places of the inputs, then those of the outputs; a place on both sides
is listed twice. -/
def adjacent (f : Flow) : List Nat := (f.inputs ++ f.outputs).map (·.place)

def addInput (f : Flow) (place : Nat) (weight : Count) : Flow :=
  { f with inputs := Link.merge place weight f.inputs }

def addOutput (f : Flow) (place : Nat) (weight : Count) : Flow :=
  { f with outputs := Link.merge place weight f.outputs }

end Flow

end TokenGame
