import TokenGame.Service.Basic

/-! Calls of the service: a request together with what is asked about it. -/
namespace TokenGame.Service

/-- What can be asked of the service. -/
inductive Endpoint where
  | enabled
  | fire
  | state
  | bounds
  deriving DecidableEq, Repr

inductive Call where
  | enabled (request : NetRequest)
  | fire (request : FireRequest)
  | state (request : NetRequest)
  | bounds (request : BoundRequest)
  deriving DecidableEq

inductive Answer where
  | enabled (ids : List String)
  | fired (response : FireResponse)
  | state (response : StateResponse)
  | findings (findings : Findings)
  deriving DecidableEq

namespace Call

def run (settings : ExploreSettings) : Call → Except ServiceError Answer
  | .enabled r => (Service.enabled r).map .enabled
  | .fire r => (Service.fire r).map .fired
  | .state r => (Service.state r).map .state
  | .bounds r => (Service.bounds settings r).map .findings

/-- The records of `run`. -/
def log (settings : ExploreSettings) : Call → Log
  | .enabled r | .state r => Net.compileLog r.net
  | .fire r => Net.compileLog r.net
  | .bounds r => Service.boundsLog settings r

end Call

end TokenGame.Service
