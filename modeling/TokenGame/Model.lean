import TokenGame.Count

/-! The net model as it is written down: places with their initial tokens,
transitions, and weighted arcs that name their ends. A model may be ill-formed;
`TokenGame.Net` says which models describe a net. -/
namespace TokenGame

structure Place where
  id : String
  label : Option String := none
  tokens : Count := 0
  deriving DecidableEq, Repr, Inhabited

structure Transition where
  id : String
  label : Option String := none
  deriving DecidableEq, Repr, Inhabited

structure Arc where
  id : String
  src : String
  dst : String
  weight : Count := 1
  deriving DecidableEq, Repr, Inhabited

/-- What is shown for a place: its label, or its id without one. -/
def Place.displayName (p : Place) : String := p.label.getD p.id

/-- What is shown for a transition: its label, or its id without one. -/
def Transition.displayName (t : Transition) : String := t.label.getD t.id

def Arc.touches (a : Arc) (node : String) : Bool := a.src == node || a.dst == node

structure Model where
  places : List Place := []
  transitions : List Transition := []
  arcs : List Arc := []
  deriving DecidableEq, Repr, Inhabited

namespace Model

def addPlace (m : Model) (p : Place) : Model := { m with places := m.places ++ [p] }

def addTransition (m : Model) (t : Transition) : Model :=
  { m with transitions := m.transitions ++ [t] }

def addArc (m : Model) (a : Arc) : Model := { m with arcs := m.arcs ++ [a] }

/-- Whether some place or transition has this id. -/
def hasNode (m : Model) (id : String) : Bool :=
  m.places.any (·.id == id) || m.transitions.any (·.id == id)

/-- Drops every node with this id and every arc that touches it. Arcs that name
no declared node stay as they are. -/
def removeNode (m : Model) (id : String) : Model :=
  if m.hasNode id then
    { places := m.places.filter (·.id != id)
      transitions := m.transitions.filter (·.id != id)
      arcs := m.arcs.filter fun a => !a.touches id }
  else m

def hasArc (m : Model) (id : String) : Bool := m.arcs.any (·.id == id)

/-- Drops every arc with this id. -/
def removeArc (m : Model) (id : String) : Model :=
  { m with arcs := m.arcs.filter (·.id != id) }

def place? (m : Model) (id : String) : Option Place := m.places.find? (·.id == id)

/-- The initial tokens of the first place with this id are replaced. -/
def setTokens (m : Model) (id : String) (tokens : Count) : Model :=
  { m with places := replace m.places }
where
  replace : List Place → List Place
    | [] => []
    | p :: rest => if p.id == id then { p with tokens } :: rest else p :: replace rest

/-- The ids of the arcs that touch a node, in declaration order. -/
def touching (m : Model) (node : String) : List String :=
  (m.arcs.filter (·.touches node)).map (·.id)

/-- One change of a model, as an editor makes it. -/
inductive Edit where
  | addPlace (place : Place)
  | addTransition (transition : Transition)
  | addArc (arc : Arc)
  | removeNode (id : String)
  | removeArc (id : String)
  | setTokens (id : String) (tokens : Count)
  deriving DecidableEq, Repr

/-- The model after an edit. -/
def apply (m : Model) : Edit → Model
  | .addPlace p => m.addPlace p
  | .addTransition t => m.addTransition t
  | .addArc a => m.addArc a
  | .removeNode id => m.removeNode id
  | .removeArc id => m.removeArc id
  | .setTokens id tokens => m.setTokens id tokens

def applyAll (m : Model) (edits : List Edit) : Model := edits.foldl apply m

/-- Whether an edit that names a declared item finds it; additions name nothing. -/
def finds? (m : Model) : Edit → Option Bool
  | .addPlace _ | .addTransition _ | .addArc _ => none
  | .removeNode id => some (m.hasNode id)
  | .removeArc id => some (m.hasArc id)
  | .setTokens id _ => some (m.place? id).isSome

end Model

end TokenGame
