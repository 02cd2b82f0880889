import Std.Data.HashMap
import TokenGame.Net.Firing

/-! Breadth-first search for the markings reachable from a start marking, under a
limit on the depth and one on the number of states. States are numbered in the
order of discovery and expanded in that order, so the states that wait are those
from the expanded index on and no queue is kept. Every step leaves an event. -/
namespace TokenGame

/-- What to search for and how far. -/
structure SearchConfig where
  /-- The bound to check every place against. -/
  k : Option Count := none
  maxDepth : Nat := 1000
  maxStates : Nat := 10000
  deriving DecidableEq, Repr

inductive SearchError where
  | invalidConfig (reason : String)
  | foreignMarking (expected found : Nat)
  | fire (cause : FireError)
  deriving DecidableEq, Repr

def SearchError.message : SearchError → String
  | .invalidConfig reason => s!"invalid exploration config: {reason}"
  | .foreignMarking expected found =>
    s!"start marking has {found} places but the net has {expected}"
  | .fire cause => cause.message

def SearchConfig.validate (c : SearchConfig) : Except SearchError Unit :=
  if c.maxDepth = 0 then .error (.invalidConfig "maxDepth must be positive")
  else if c.maxStates = 0 then .error (.invalidConfig "maxStates must be positive")
  else .ok ()

/-- A discovered marking with its distance from the start and, except for the
start itself, the state and the transition that led to it first. -/
structure State where
  marking : Marking
  depth : Nat
  parent : Option (Nat × Nat)
  deriving DecidableEq, Repr, Inhabited

inductive Event where
  | state (index : Nat) (marking : Marking) (depth : Nat)
  | edge (source transition target : Nat)
  | deadlock (state : Nat)
  /-- A successor that no marking can hold was dropped. -/
  | overflow (source transition : Nat) (place : String)
  /-- A new successor was dropped because of the limits. -/
  | cut (source transition : Nat)
  deriving DecidableEq, Repr

/-- Whether an event means that some successor was not followed. -/
def Event.isLoss : Event → Bool
  | .overflow .. | .cut .. => true
  | .state .. | .edge .. | .deadlock .. => false

structure Search where
  states : Array State
  /-- The index of each discovered marking. -/
  known : Std.HashMap Marking Nat
  events : Array Event

namespace Search

def note (s : Search) (e : Event) : Search := { s with events := s.events.push e }

/-- Adds a new state under the next index. -/
def discover (s : Search) (state : State) : Search where
  known := s.known.insert state.marking s.states.size
  events := s.events.push (.state s.states.size state.marking state.depth)
  states := s.states.push state

def start (m : Marking) : Search :=
  discover ⟨#[], {}, #[]⟩ { marking := m, depth := 0, parent := none }

/-- Follows one enabled transition of a state. -/
def follow (net : Net) (c : SearchConfig) (source : Nat) (origin : State) (s : Search)
    (transition : Nat) : Except FireError Search :=
  match net.fireTransition origin.marking transition with
  | .error (.tokenOverflow place) => .ok (s.note (.overflow source transition place))
  | .error cause => .error cause
  | .ok next =>
    match s.known[next]? with
    | some target => .ok (s.note (.edge source transition target))
    | none =>
      if c.maxDepth ≤ origin.depth ∨ c.maxStates ≤ s.states.size then
        .ok (s.note (.cut source transition))
      else
        let target := s.states.size
        let found := s.discover
          { marking := next, depth := origin.depth + 1, parent := some (source, transition) }
        .ok (found.note (.edge source transition target))

/-- Follows every enabled transition of the state with this index. -/
def expand (net : Net) (c : SearchConfig) (s : Search) (index : Nat) : Except FireError Search :=
  match s.states[index]? with
  | none => .ok s
  | some origin =>
    match net.enabledTransitions origin.marking with
    | [] => .ok (s.note (.deadlock index))
    | enabled => enabled.foldlM (follow net c index origin) s

/-- Expands the states from `index` on until none waits. Each round expands one
state, so as many rounds as there may be states are enough. -/
def run (net : Net) (c : SearchConfig) : (rounds index : Nat) → Search → Except FireError Search
  | 0, _, s => .ok s
  | rounds + 1, index, s =>
    if index < s.states.size then do
      let s ← s.expand net c index
      run net c rounds (index + 1) s
    else .ok s

/-- Whether some successor was not followed, so that markings may be missing. -/
def hitLimits (s : Search) : Bool := s.events.any (·.isLoss)

def depthReached (s : Search) : Nat := s.states.foldl (fun d state => max d state.depth) 0

/-- The first state found that enables nothing. -/
def deadlock? (s : Search) : Option Nat :=
  s.events.findSome? fun
    | .deadlock state => some state
    | _ => none

/-- The first state found with more tokens on some place than a threshold. -/
def exceeding? (s : Search) (threshold : Count) : Option Nat :=
  s.states.findIdx? fun state => threshold < state.marking.maximum

/-- The most tokens seen on a place. -/
def maximumAt (s : Search) (place : Nat) : Count :=
  s.states.foldl (fun most state => max most (state.marking.tokens place)) 0

/-- The transitions that lead from the start to a state, along first discoveries.
Parents have smaller indices, so the index bounds the number of steps. -/
def pathTo (s : Search) (index : Nat) : List Nat := walk index index []
where
  walk : (steps index : Nat) → List Nat → List Nat
    | 0, _, path => path
    | steps + 1, index, path =>
      match (s.states[index]?).bind (·.parent) with
      | some (source, transition) => walk steps source (transition :: path)
      | none => path

end Search

/-- Searches from a start marking. -/
def Net.search (net : Net) (c : SearchConfig) (m : Marking) : Except SearchError Search := do
  c.validate
  if m.size ≠ net.places.length then
    throw (.foreignMarking net.places.length m.size)
  match Search.run net c c.maxStates 0 (Search.start m) with
  | .ok s => return s
  | .error cause => throw (.fire cause)

end TokenGame
