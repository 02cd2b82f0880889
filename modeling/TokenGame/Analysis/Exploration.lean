import TokenGame.Analysis.Boundedness
import TokenGame.Analysis.Search

/-! The findings of a search: deadlocks, bounds, and a shortest firing sequence to
the first marking that shows each defect. -/
namespace TokenGame

/-- A marking that shows a defect, and the firings that lead to it from the start. -/
structure Witness where
  marking : TokenMap
  depth : Nat
  trace : List String
  deriving DecidableEq

structure Findings where
  deadlocked : Bool
  isKBounded : Option Verdict
  isSafe : Verdict
  bound : Option Count
  perPlaceMax : TokenMap
  placeVerdicts : List PlaceVerdict
  minimalKObserved : Count
  exploredStates : Nat
  depthReached : Nat
  hitLimits : Bool
  k : Option Count
  deadlockWitness : Option Witness
  kWitness : Option Witness
  unsafeWitness : Option Witness
  deriving DecidableEq

namespace Search

def witness? (net : Net) (s : Search) (index : Nat) : Option Witness :=
  (s.states[index]?).map fun state =>
    { marking := net.markingToMap state.marking
      depth := state.depth
      trace := (s.pathTo index).map net.transitionName }

/-- What a finished search says about its net. -/
def findings (net : Net) (k : Option Count) (s : Search) : Findings :=
  let maxima := (List.range net.places.length).map s.maximumAt
  let summary := Boundedness.summarize net maxima k (!s.hitLimits)
  { deadlocked := s.deadlock?.isSome
    isKBounded := summary.isKBounded
    isSafe := summary.isSafe
    bound := summary.bound
    perPlaceMax := .ofList (net.places.mapIdx fun index p => (p.id, s.maximumAt index))
    placeVerdicts := summary.places
    minimalKObserved := summary.minimalK
    exploredStates := s.states.size
    depthReached := s.depthReached
    hitLimits := s.hitLimits
    k
    deadlockWitness := s.deadlock?.bind (s.witness? net)
    kWitness := (k.bind s.exceeding?).bind (s.witness? net)
    unsafeWitness := (s.exceeding? Boundedness.safeThreshold).bind (s.witness? net) }

def eventLog (net : Net) (s : Search) : Event → Log
  | .deadlock state =>
    let depth := ((s.states[state]?).map (·.depth)).getD 0
    [⟨.trace, s!"deadlock at state {state} (depth {depth})"⟩]
  | .overflow _ transition place =>
    let name := net.transitionName transition
    [⟨.warn, s!"firing {name} overflows place {place}; successor dropped"⟩]
  | .state .. | .edge .. | .cut .. => []

end Search

def Findings.log (f : Findings) : Log :=
  let size := s!"explored {f.exploredStates} states (depth {f.depthReached})"
  let answers :=
    s!"deadlocked={f.deadlocked}, safe={f.isSafe.name}, hit_limits={f.hitLimits}"
  [⟨.info, size ++ ", " ++ answers⟩]

namespace Net

/-- Explores the markings reachable from a start marking. -/
def explore (net : Net) (c : SearchConfig) (m : Marking) : Except SearchError Findings :=
  (net.search c m).map (Search.findings net c.k)

/-- The records of an exploration; one that is refused makes none. -/
def exploreLog (net : Net) (c : SearchConfig) (m : Marking) : Log :=
  match net.search c m with
  | .error _ => []
  | .ok s =>
    let k := match c.k with
      | some k => s!"Some({k.toNat})"
      | none => "None"
    let limits := s!"(k={k}, max_depth={c.maxDepth}, max_states={c.maxStates})"
    [⟨.debug, s!"exploring from {m.describe} " ++ limits⟩] ++
      s.events.toList.flatMap (s.eventLog net) ++ (s.findings net c.k).log

end Net

end TokenGame
