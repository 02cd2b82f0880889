import TokenGame.Count

/-! Answers about a bound, given what a search has seen. A count above the bound
refutes it for good; the absence of one is an answer only if the search has seen
every reachable marking. -/
namespace TokenGame

inductive Verdict where
  | yes
  | no
  | unknown
  deriving DecidableEq, Repr, Inhabited

namespace Verdict

def name : Verdict → String
  | .yes => "yes"
  | .no => "no"
  | .unknown => "unknown"

def ofName? : String → Option Verdict
  | "yes" => some .yes
  | "no" => some .no
  | "unknown" => some .unknown
  | _ => none

/-- Whether a place stays within a threshold, from the most tokens seen on it. -/
def forBound (observed threshold : Count) (exhaustive : Bool) : Verdict :=
  if threshold < observed then .no else if exhaustive then .yes else .unknown

/-- The verdict on all places together. A search that was cut short is a doubt from
the start. -/
def aggregate (verdicts : List Verdict) (exhaustive : Bool) : Verdict :=
  go (if exhaustive then .yes else .unknown) verdicts
where
  /-- Goes through the verdicts with the result so far: a refutation ends it, and a
  doubt stays. -/
  go : Verdict → List Verdict → Verdict
    | result, [] => result
    | _, .no :: _ => .no
    | _, .unknown :: rest => go .unknown rest
    | result, .yes :: rest => go result rest

end Verdict

end TokenGame
