import TokenGame.Log
import TokenGame.Marking
import TokenGame.Model
import TokenGame.Net.Flow
import TokenGame.TokenMap

/-! Nets: models whose ids are distinct and whose arcs each join a place and a
transition. Places and transitions are known by their positions in the model,
and arcs are gathered into one `Flow` per transition. -/
namespace TokenGame

inductive NodeKind where
  | place
  | transition
  deriving DecidableEq, Repr

def NodeKind.plural : NodeKind → String
  | .place => "places"
  | .transition => "transitions"

/-- Why a model describes no net. -/
inductive NetError where
  | duplicateNode (id : String)
  | duplicateArc (id : String)
  | danglingArc (arc node : String)
  | invalidArc (arc src dst : String)
  | zeroWeight (arc : String)
  | tooManyNodes (kind : NodeKind) (count : Nat)
  deriving DecidableEq, Repr

def NetError.message : NetError → String
  | .duplicateNode id => s!"node id '{id}' is declared more than once"
  | .duplicateArc id => s!"arc id '{id}' is declared more than once"
  | .danglingArc arc node => s!"arc '{arc}' references unknown node '{node}'"
  | .invalidArc arc src dst =>
    s!"arc '{arc}' must connect a place and a transition (got {src} -> {dst})"
  | .zeroWeight arc => s!"arc '{arc}' has weight 0; weights must be at least 1"
  | .tooManyNodes kind count => s!"{count} {kind.plural} exceed the supported index range"

/-- Why a map of token counts is no marking of a net. -/
inductive MarkingError where
  | unknownPlace (id : String)
  deriving DecidableEq, Repr

def MarkingError.message : MarkingError → String
  | .unknownPlace id => s!"unknown place '{id}'"

/-- A declared node, by its index among the nodes of its kind. -/
inductive Node where
  | place (index : Nat)
  | transition (index : Nat)
  deriving DecidableEq, Repr

structure Net where
  places : List Place
  transitions : List Transition
  /-- One flow for each transition, in their order. -/
  flows : Array Flow
  deriving DecidableEq, Repr, Inhabited

/-- The first element of a list that occurs earlier in it. -/
def firstRepeat? : (earlier rest : List String) → Option String
  | _, [] => none
  | earlier, id :: rest =>
    if earlier.contains id then some id else firstRepeat? (id :: earlier) rest

/-- Node indices are 32-bit words. -/
def indexLimit : Nat := UInt32.size

namespace Model

def nodeIds (m : Model) : List String := m.places.map (·.id) ++ m.transitions.map (·.id)

/-- The node that an id names. -/
def node? (m : Model) (id : String) : Option Node :=
  match m.places.findIdx? (·.id == id) with
  | some index => some (.place index)
  | none => (m.transitions.findIdx? (·.id == id)).map .transition

/-- What an arc adds to the flows of a net, if its ends are a place and a
transition of the model and its weight is positive. -/
inductive ArcEffect where
  | input (place transition : Nat)
  | output (place transition : Nat)
  deriving DecidableEq, Repr

/-- The effect of one arc, or the first thing wrong with it; `earlier` holds the
ids of the arcs before it. -/
def arcEffect (m : Model) (earlier : List String) (a : Arc) : Except NetError ArcEffect :=
  if earlier.contains a.id then .error (.duplicateArc a.id)
  else
    match m.node? a.src, m.node? a.dst with
    | none, _ => .error (.danglingArc a.id a.src)
    | some _, none => .error (.danglingArc a.id a.dst)
    | some (.place p), some (.transition t) =>
      if a.weight = 0 then .error (.zeroWeight a.id) else .ok (.input p t)
    | some (.transition t), some (.place p) =>
      if a.weight = 0 then .error (.zeroWeight a.id) else .ok (.output p t)
    | some (.place _), some (.place _) | some (.transition _), some (.transition _) =>
      .error (.invalidArc a.id a.src a.dst)

def ArcEffect.apply (flows : Array Flow) (weight : Count) : ArcEffect → Array Flow
  | .input p t => flows.modify t (·.addInput p weight)
  | .output p t => flows.modify t (·.addOutput p weight)

/-- Gathers arcs into the flows, in declaration order. -/
def gather (m : Model) : (earlier : List String) → List Arc → Array Flow →
    Except NetError (Array Flow)
  | _, [], flows => .ok flows
  | earlier, a :: rest, flows => do
    let effect ← m.arcEffect earlier a
    m.gather (a.id :: earlier) rest (effect.apply flows a.weight)

end Model

namespace Net

/-- The net that a model describes, or the model's first defect: places come
first, then transitions, then arcs, each in declaration order. -/
def ofModel (m : Model) : Except NetError Net := do
  if let some id := firstRepeat? [] m.nodeIds then
    throw (.duplicateNode id)
  if indexLimit ≤ m.places.length then
    throw (.tooManyNodes .place m.places.length)
  if indexLimit ≤ m.transitions.length then
    throw (.tooManyNodes .transition m.transitions.length)
  let flows ← m.gather [] m.arcs (Array.replicate m.transitions.length {})
  return { places := m.places, transitions := m.transitions, flows }

/-- The record made when a model compiles; a defect makes none. -/
def compileLog (m : Model) : Log :=
  match ofModel m with
  | .ok net =>
    let nodes := s!"{net.places.length} places, {net.transitions.length} transitions"
    [⟨.debug, s!"compiled net with {nodes}, {m.arcs.length} arcs"⟩]
  | .error _ => []

def placeIndex? (net : Net) (id : String) : Option Nat := net.places.findIdx? (·.id == id)

def transitionIndex? (net : Net) (id : String) : Option Nat :=
  net.transitions.findIdx? (·.id == id)

/-- The id of a place; an index without a place is shown as such. -/
def placeName (net : Net) (place : Nat) : String :=
  match net.places[place]? with
  | some p => p.id
  | none => s!"p#{place}"

/-- The id of a transition; an index without a transition is shown as such. -/
def transitionName (net : Net) (transition : Nat) : String :=
  match net.transitions[transition]? with
  | some t => t.id
  | none => s!"t#{transition}"

def flow (net : Net) (transition : Nat) : Flow := net.flows.getD transition {}

/-- The tokens that a transition takes from a place. -/
def inputWeight (net : Net) (place transition : Nat) : Count :=
  (net.flow transition).inputWeight place

/-- The tokens that a transition puts on a place. -/
def outputWeight (net : Net) (place transition : Nat) : Count :=
  (net.flow transition).outputWeight place

def initialMarking (net : Net) : Marking := .ofList (net.places.map (·.tokens))

/-- The marking with the given counts and no tokens elsewhere; the least id that
names no place is refused. -/
def markingOfMap (net : Net) (map : TokenMap) : Except MarkingError Marking :=
  map.entries.foldlM
    (fun m e =>
      match net.placeIndex? e.1 with
      | some place => .ok (m.set place e.2)
      | none => .error (.unknownPlace e.1))
    (Marking.zero net.places.length)

/-- The tokens of every place by id. -/
def markingToMap (net : Net) (m : Marking) : TokenMap :=
  .ofList (net.places.mapIdx fun index p => (p.id, m.tokens index))

end Net

end TokenGame
