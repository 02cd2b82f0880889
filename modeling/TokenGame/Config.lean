import TokenGame.Analysis.Search

/-! The settings of the engine. Every setting has a value of its own, so a
configuration need only name what differs. -/
namespace TokenGame

/-- How far explorations go unless a request says otherwise, and the number of
states that no request may exceed. -/
structure ExploreSettings where
  maxDepth : Nat := 1000
  maxStates : Nat := 10000
  maxStatesCap : Nat := 1000000
  deriving DecidableEq, Repr

structure ServerSettings where
  bind : String := "127.0.0.1:8000"
  deriving DecidableEq, Repr

structure SimulationSettings where
  runSteps : Nat := 100
  seed : Option UInt64 := none
  deriving DecidableEq, Repr

structure Config where
  explore : ExploreSettings := {}
  server : ServerSettings := {}
  simulation : SimulationSettings := {}
  deriving DecidableEq, Repr

/-- Why a configuration is of no use. -/
inductive ConfigIssue where
  | notPositive
  | aboveCap (states cap : Nat)
  deriving DecidableEq, Repr

def ConfigIssue.message : ConfigIssue → String
  | .notPositive => "explore.max_depth and explore.max_states must be positive"
  | .aboveCap states cap =>
    s!"explore.max_states ({states}) exceeds explore.max_states_cap ({cap})"

def Config.validate (c : Config) : Except ConfigIssue Unit :=
  if c.explore.maxDepth = 0 ∨ c.explore.maxStates = 0 then .error .notPositive
  else if c.explore.maxStatesCap < c.explore.maxStates then
    .error (.aboveCap c.explore.maxStates c.explore.maxStatesCap)
  else .ok ()

/-- The search that a request asks for; limits it leaves out come from the
settings. -/
def ExploreSettings.resolve (s : ExploreSettings) (k : Option Count)
    (maxDepth maxStates : Option Nat) : SearchConfig where
  k
  maxDepth := maxDepth.getD s.maxDepth
  maxStates := maxStates.getD s.maxStates

end TokenGame
