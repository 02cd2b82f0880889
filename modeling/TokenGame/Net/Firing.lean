import TokenGame.Net.Basic

/-! The token game. A transition is enabled if every input place holds at least
the link's weight; firing it takes the input weights and then adds the output
weights, unless some place would hold more than a count can say. -/
namespace TokenGame

inductive FireError where
  | unknownTransition (id : String)
  | notEnabled (id : String)
  | tokenOverflow (place : String)
  | foreignMarking (expected found : Nat)
  deriving DecidableEq, Repr

def FireError.message : FireError → String
  | .unknownTransition id => s!"unknown transition '{id}'"
  | .notEnabled id => s!"transition '{id}' is not enabled under the supplied marking"
  | .tokenOverflow place => s!"firing would overflow the token count of place '{place}'"
  | .foreignMarking expected found =>
    s!"marking has {found} places but the net has {expected}"

namespace Marking

/-- Removes a link's weight from its place, if the place has it. -/
def take? (m : Marking) (l : Link) : Option Marking := do
  let held ← m.counts[l.place]?
  let left ← Count.sub? held l.weight
  return m.set l.place left

/-- Adds a link's weight to its place, if the sum is a count. -/
def put? (m : Marking) (l : Link) : Option Marking := do
  let held ← m.counts[l.place]?
  let sum ← Count.add? held l.weight
  return m.set l.place sum

end Marking

namespace Net

/-- Whether a transition of the net may fire. Places beyond the marking count as
empty, so this also answers for markings of another length. -/
def isEnabled (net : Net) (m : Marking) (transition : Nat) : Bool :=
  transition < net.transitions.length &&
    (net.flow transition).inputs.all fun l => l.weight ≤ m.tokens l.place

/-- The enabled transitions in declaration order. -/
def enabledTransitions (net : Net) (m : Marking) : List Nat :=
  (List.range net.transitions.length).filter (net.isEnabled m)

def enabledIds (net : Net) (m : Marking) : List String :=
  (net.enabledTransitions m).map net.transitionName

def isDeadlocked (net : Net) (m : Marking) : Bool := (net.enabledTransitions m).isEmpty

/-- The marking after all inputs of a flow are taken. -/
def takeInputs? (m : Marking) (f : Flow) : Option Marking := f.inputs.foldlM Marking.take? m

/-- The marking after all outputs of a flow are put; the first place that has no
room for its weight is named. -/
def putOutputs (net : Net) (m : Marking) (f : Flow) : Except FireError Marking :=
  f.outputs.foldlM
    (fun m l =>
      match m.put? l with
      | some next => .ok next
      | none => .error (.tokenOverflow (net.placeName l.place)))
    m

/-- Fires a transition by its index. -/
def fireTransition (net : Net) (m : Marking) (transition : Nat) : Except FireError Marking :=
  if net.transitions.length ≤ transition then
    .error (.unknownTransition (net.transitionName transition))
  else if m.size ≠ net.places.length then
    .error (.foreignMarking net.places.length m.size)
  else if !net.isEnabled m transition then
    .error (.notEnabled (net.transitionName transition))
  else
    match takeInputs? m (net.flow transition) with
    | none => .error (.notEnabled (net.transitionName transition))
    | some taken => net.putOutputs taken (net.flow transition)

/-- Fires a transition by its id. -/
def fire (net : Net) (m : Marking) (id : String) : Except FireError Marking :=
  match net.transitionIndex? id with
  | none => .error (.unknownTransition id)
  | some transition => net.fireTransition m transition

end Net

end TokenGame
