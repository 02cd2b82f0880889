import TokenGame.Codec.Report
import TokenGame.Codec.Text
import TokenGame.Command.Plan
import TokenGame.Options.Basic
import TokenGame.Service.Basic

/-! Exploring many nets at once. Each net has its own report; one that fails does
not keep the others from being reported. -/
namespace TokenGame

/-- How files are found. -/
abbrev Reading := Path → Except FileError String

namespace Batch

/-- The model in a net's file. -/
def loadModel (read : Reading) (p : Path) : Except Failure Model :=
  match Model.ofFile p (read p) with
  | .ok model => .ok model
  | .error e => .error ⟨s!"Failed to load net {p.text}", e.messages⟩

/-- The request to explore a net from its initial marking. -/
def request (limits : Limits) (net : Model) : BoundRequest :=
  { net, k := limits.k, maxDepth := limits.maxDepth, maxStates := limits.maxStates }

/-- Explores the model that a net's file holds. -/
def explore (settings : ExploreSettings) (limits : Limits) (p : Path) (model : Model) :
    Except Failure Findings :=
  match Service.bounds settings (request limits model) with
  | .ok findings => .ok findings
  | .error e => .error ⟨s!"Failed to explore {p.text}", [e.message]⟩

def analyze (settings : ExploreSettings) (limits : Limits) (read : Reading) (p : Path) :
    Except Failure Findings := do
  explore settings limits p (← loadModel read p)

/-- Reports are named after their nets. -/
def reportPath (dir net : Path) : Path :=
  let stem := net.stem?.getD "net"
  dir.child s!"{stem}.report"

/-- Keeps a report as a text, and beside it as JSON. -/
def save (r : Report) (p : Path) : List Action :=
  let failure (e : FileError) : Failure := ⟨e.message, []⟩
  [.write p r.fileText failure, .write (p.extend ".json") r.toJson.pretty failure]

/-- A net and what became of its exploration. -/
abbrev Result := Path × Except Failure Report

def resultActions (output : Option Path) : Result → List Action
  | (net, .ok report) =>
    match output with
    | some dir => save report (reportPath dir net)
    | none => [.print report.text]
  | (_, .error failure) => [.warn failure.chain]

def fails : Result → Bool
  | (_, .error _) => true
  | (_, .ok _) => false

/-- The batch fails if any of its nets does. -/
def failure? (results : List Result) : Option Failure :=
  let failed := (results.filter fails).length
  if failed = 0 then none else some ⟨s!"{failed} of {results.length} nets failed", []⟩

def makeOutput : Option Path → List Action
  | some dir => [.makeDirectories dir fun e => ⟨s!"Failed to create {dir.text}", [e.message]⟩]
  | none => []

def plan (output : Option Path) (results : List Result) : Plan where
  actions := makeOutput output ++ results.flatMap (resultActions output)
  failure := failure? results

/-- The result for a net whose exploration took so long. -/
def result (p : Path) (findings : Except Failure Findings) (time : Duration) : Result :=
  (p, findings.map fun result => { netName := p.text, time, result })

end Batch

end TokenGame
