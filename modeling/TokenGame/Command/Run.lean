import TokenGame.Analysis.StateGraph
import TokenGame.Codec.Config
import TokenGame.Command.Batch
import TokenGame.Simulation.Session
import TokenGame.Text.Quoted

/-! What each command does. -/
namespace TokenGame

/-- The configuration in a file, which need not be there. -/
def Config.load (read : Reading) (p : Path) : Except Failure Config :=
  match read p with
  | .error e =>
    if e.isAbsence then .ok {}
    else .error ⟨s!"Failed to read config file: {Quoted.quote p.text}", [e.message]⟩
  | .ok text =>
    match Config.ofText text with
    | .ok config => .ok config
    | .error e => .error ⟨s!"Failed to parse config file: {Quoted.quote p.text}", [e.message]⟩

namespace Command

def ofService (result : Except ServiceError α) : Except Failure α :=
  match result with
  | .ok a => .ok a
  | .error e => .error ⟨e.message, []⟩

def ofSession (result : Except SessionError α) : Except Failure α :=
  match result with
  | .ok a => .ok a
  | .error e => .error ⟨e.message, []⟩

def enabledPlan (read : Reading) (net : Path) (marking : Option TokenMap) :
    Except Failure Plan := do
  let model ← Batch.loadModel read net
  let ids ← ofService (Service.enabled { net := model, marking })
  return { actions := ids.map .print }

/-- Writes a model to a file, in a directory that is made if needed. -/
def writeModel (m : Model) (p : Path) : List Action :=
  let failure (e : FileError) : Failure := ⟨s!"io error: {e.message}", [e.message]⟩
  [.makeDirectories p.parent failure, .write p (m.fileText p) failure]

def firePlan (read : Reading) (net : Path) (transitionId : String) (marking : Option TokenMap)
    (output : Option Path) : Except Failure Plan := do
  let model ← Batch.loadModel read net
  let response ← ofService (Service.fire { net := model, transitionId, marking })
  let written := match output with
    | some p => writeModel response.net p
    | none => []
  return { actions := .print response.marking.toJson.pretty :: written }

def explorePlan (settings : ExploreSettings) (read : Reading) (time : Path → Duration)
    (nets : List Path) (limits : Limits) (output : Option Path) : Plan :=
  Batch.plan output <| nets.map fun p =>
    Batch.result p (Batch.analyze settings limits read p) (time p)

/-- The line of the history's entry at a position. -/
def entryLine (net : Net) (index : Nat) (e : Entry) : String :=
  let fired := e.fired.getD "<initial>"
  let marking := (net.markingToMap e.marking).toJson.pretty
  s!"#{index} {fired} {marking}"

/-- Random steps come from `random` unless a seed is given or configured. -/
def simulatePlan (settings : SimulationSettings) (read : Reading) (random : Random)
    (net : Path) (steps : Option Nat) (seed : Option UInt64) : Except Failure Plan := do
  let model ← Batch.loadModel read net
  let random := match seed.or settings.seed with
    | some seed => Random.ofSeed seed
    | none => random
  let session ← ofSession (Session.ofModel model random)
  let (result, session) := session.run (steps.getD settings.runSteps)
  let summary ← ofSession result
  let entries := session.history.entries.toList.mapIdx (entryLine session.net)
  let ending := s!"deadlock after {summary.fired.length} firings"
  let lines := if summary.deadlocked then entries ++ [ending] else entries
  return { actions := lines.map .print }

/-- Writes the graph's text to a file, in a directory that is made if needed. -/
def writeGraph (g : StateGraph) (p : Path) : List Action :=
  let failure (e : FileError) : Failure := ⟨s!"Failed to write {p.text}", [e.message]⟩
  [.makeDirectories p.parent failure, .write p g.dot failure]

def graphPlan (settings : ExploreSettings) (read : Reading) (net : Path)
    (marking : Option TokenMap) (limits : Limits) (output : Option Path) :
    Except Failure Plan := do
  let model ← Batch.loadModel read net
  let (net, m) ← ofService (Service.compile model marking)
  let c := settings.resolve limits.k limits.maxDepth limits.maxStates
  let cap := settings.maxStatesCap
  if cap < c.maxStates then
    throw ⟨s!"--max-states {c.maxStates} exceeds the configured cap of {cap}", []⟩
  match net.search c m with
  | .error e => throw ⟨e.message, []⟩
  | .ok search =>
    let graph := StateGraph.ofSearch net search
    return { actions := match output with
      | some p => writeGraph graph p
      | none => [.print graph.dot] }

/-- The nets that a command is about. -/
def nets : Command → List Path
  | .enabled net _ | .fire net .. | .simulate net .. | .graph net .. => [net]
  | .explore nets .. => nets

def plan (config : Config) (read : Reading) (random : Random) (time : Path → Duration) :
    Command → Plan
  | .enabled net marking => .ofExcept (enabledPlan read net marking)
  | .fire net transition marking output => .ofExcept (firePlan read net transition marking output)
  | .explore nets limits output => explorePlan config.explore read time nets limits output
  | .simulate net steps seed =>
    .ofExcept (simulatePlan config.simulation read random net steps seed)
  | .graph net marking limits output =>
    .ofExcept (graphPlan config.explore read net marking limits output)

end Command

/-- The plan of a command line. The configuration is read before anything else. -/
def Options.plan (o : Options) (read : Reading) (random : Random) (time : Path → Duration) : Plan :=
  match Config.load read o.config with
  | .error failure => { failure := some failure }
  | .ok config => o.command.plan config read random time

/-- Carries out a command line on files. -/
def Options.run (o : Options) (files : FileTree) (random : Random) (time : Path → Duration) :
    Outcome :=
  (o.plan files.read random time).perform files

end TokenGame
