import TokenGame.Net.Firing
import TokenGame.Simulation.History
import TokenGame.Simulation.Random

/-! A simulation session: a net with the history of its firings, a source of random
choices and a clock. An operation that fails leaves the session as it was, except that
a word drawn for a random choice stays drawn. -/
namespace TokenGame

inductive SessionError where
  | invalidNet (cause : NetError)
  | fire (cause : FireError)
  | history (cause : HistoryError)
  deriving DecidableEq, Repr

def SessionError.message : SessionError → String
  | .invalidNet cause => cause.message
  | .fire cause => cause.message
  | .history cause => cause.message

structure Session where
  model : Model
  net : Net
  initial : Marking
  history : History
  random : Random
  /-- How often the clock was read. What it showed matters to no operation. -/
  clock : Nat
  deriving DecidableEq, Repr

/-- The transitions that a run fired, and whether it ended where nothing is
enabled. -/
structure RunSummary where
  fired : List String
  deadlocked : Bool
  deriving DecidableEq, Repr

namespace Session

def ofModel (model : Model) (random : Random) : Except SessionError Session :=
  match Net.ofModel model with
  | .error cause => .error (.invalidNet cause)
  | .ok net =>
    let initial := net.initialMarking
    .ok { model, net, initial, history := .single initial 0, random, clock := 1 }

/-- The marking at the cursor. -/
def marking (s : Session) : Marking := (s.history.current?.map (·.marking)).getD s.initial

def enabled (s : Session) : List String := s.net.enabledIds s.marking

def isDeadlocked (s : Session) : Bool := s.net.isDeadlocked s.marking

/-- Fires a transition at the current marking and records it. -/
def fire (s : Session) (id : String) : Except SessionError Session :=
  match s.net.fire s.marking id with
  | .error cause => .error (.fire cause)
  | .ok next =>
    match s.history.append id next s.clock with
    | .error cause => .error (.history cause)
    | .ok history => .ok { s with history, clock := s.clock + 1 }

def fireLog (s : Session) (id : String) : Log :=
  match s.net.fire s.marking id with
  | .error _ => []
  | .ok next => ⟨.debug, s!"fired {id} -> {next.describe}"⟩ :: s.history.appendLog

/-- The transition that a random step chooses, and the session after the draw. -/
def choose (s : Session) : Option String × Session :=
  match s.enabled with
  | [] => (none, s)
  | id :: rest =>
    let (index, random) := s.random.below (rest.length + 1)
    ((id :: rest)[index]?, { s with random })

/-- Fires a random enabled transition, if there is one. -/
def stepRandom (s : Session) : Except SessionError (Option String) × Session :=
  match s.choose with
  | (none, s) => (.ok none, s)
  | (some id, s) =>
    match s.fire id with
    | .error cause => (.error cause, s)
    | .ok next => (.ok (some id), next)

def stepRandomLog (s : Session) : Log :=
  match s.choose with
  | (none, _) => []
  | (some id, s) => s.fireLog id

/-- Takes random steps until as many are done as asked for, nothing is enabled, or
a step fails. The firings before a failing step stay recorded. -/
def run (s : Session) (steps : Nat) : Except SessionError RunSummary × Session := go steps s []
where
  /-- `fired` holds the firings so far, the last one first. -/
  go : Nat → Session → List String → Except SessionError RunSummary × Session
    | 0, s, fired => (.ok { fired := fired.reverse, deadlocked := s.isDeadlocked }, s)
    | steps + 1, s, fired =>
      match s.stepRandom with
      | (.error cause, s) => (.error cause, s)
      | (.ok none, s) => (.ok { fired := fired.reverse, deadlocked := true }, s)
      | (.ok (some id), s) => go steps s (id :: fired)

def runLog (s : Session) : (steps : Nat) → Log
  | 0 => []
  | steps + 1 =>
    match s.stepRandom with
    | (.ok (some _), next) => s.stepRandomLog ++ next.runLog steps
    | _ => s.stepRandomLog

def goto (s : Session) (index : Nat) : Except SessionError Session :=
  match s.history.goto index with
  | .error cause => .error (.history cause)
  | .ok history => .ok { s with history }

/-- Forgets the firings and goes back to the initial marking. -/
def reset (s : Session) : Session :=
  { s with history := .single s.initial s.clock, clock := s.clock + 1 }

/-- Replaces the model by an edited one and starts over, if it describes a net. -/
def edit (s : Session) (change : Model → Model) : Except SessionError Session :=
  let model := change s.model
  match Net.ofModel model with
  | .error cause => .error (.invalidNet cause)
  | .ok net => .ok { s with model, net, initial := net.initialMarking }.reset

def editLog (s : Session) (change : Model → Model) : Log :=
  let model := change s.model
  match Net.ofModel model with
  | .error _ => []
  | .ok net =>
    let size := s!"({net.places.length} places, {net.transitions.length} transitions)"
    Net.compileLog model ++ [⟨.debug, s!"net edited {size}; clearing history"⟩]

end Session

end TokenGame
