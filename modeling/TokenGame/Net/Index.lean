import TokenGame.Net.Basic

/-! Indices that come from outside the library. A node index is a 32-bit word, and
the links of a transition can be asked for only if the net has the transition. -/
namespace TokenGame

inductive IndexError where
  | placeRange (index : Nat)
  | transitionRange (index : Nat)
  | noTransition (count index : Nat)
  deriving DecidableEq, Repr

def IndexError.message : IndexError → String
  | .placeRange index => s!"PlaceId {index} exceeds u32"
  | .transitionRange index => s!"TransitionId {index} exceeds u32"
  | .noTransition count index =>
    s!"index out of bounds: the len is {count} but the index is {index}"

namespace Net

def checkPlace (index : Nat) : Except IndexError Nat :=
  if index < indexLimit then .ok index else .error (.placeRange index)

def checkTransition (index : Nat) : Except IndexError Nat :=
  if index < indexLimit then .ok index else .error (.transitionRange index)

/-- What a transition takes from a place and what it puts on it. -/
def weights (net : Net) (place transition : Nat) : Except IndexError (Count × Count) := do
  let place ← checkPlace place
  let transition ← checkTransition transition
  if net.flows.size ≤ transition then
    throw (.noTransition net.flows.size transition)
  return (net.inputWeight place transition, net.outputWeight place transition)

end Net

end TokenGame
