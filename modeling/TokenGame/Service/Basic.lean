import TokenGame.Analysis.Exploration
import TokenGame.Config

/-! The stateless service: each request brings its net, and a marking unless the
net's initial one is meant. -/
namespace TokenGame

structure NetRequest where
  net : Model
  marking : Option TokenMap := none
  deriving DecidableEq

structure FireRequest where
  net : Model
  transitionId : String
  marking : Option TokenMap := none
  deriving DecidableEq

structure BoundRequest where
  net : Model
  marking : Option TokenMap := none
  k : Option Count := none
  maxDepth : Option Nat := none
  maxStates : Option Nat := none
  deriving DecidableEq

def BoundRequest.config (r : BoundRequest) (settings : ExploreSettings) : SearchConfig :=
  settings.resolve r.k r.maxDepth r.maxStates

/-- The marking after a firing, and the model with that marking as its initial
one. -/
structure FireResponse where
  marking : TokenMap
  net : Model
  deriving DecidableEq

structure StateResponse where
  enabled : List String
  deadlocked : Bool
  deriving DecidableEq, Repr

inductive ServiceError where
  | invalidNet (cause : NetError)
  | marking (cause : MarkingError)
  | fire (cause : FireError)
  | explore (cause : SearchError)
  | worker (reason : String)
  deriving DecidableEq, Repr

namespace ServiceError

def message : ServiceError → String
  | .invalidNet cause => cause.message
  | .marking cause => cause.message
  | .fire cause => cause.message
  | .explore cause => cause.message
  | .worker reason => s!"exploration worker failed: {reason}"

/-- The kinds of errors that a client can tell apart. -/
inductive Kind where
  | invalidNet
  | unknownPlace
  | unknownTransition
  | notEnabled
  | invalidConfig
  | tokenOverflow
  | internal
  deriving DecidableEq, Repr

def kind : ServiceError → Kind
  | .invalidNet _ => .invalidNet
  | .marking (.unknownPlace _) => .unknownPlace
  | .fire (.unknownTransition _) => .unknownTransition
  | .fire (.notEnabled _) => .notEnabled
  | .explore (.invalidConfig _) => .invalidConfig
  | .fire (.tokenOverflow _) | .explore (.fire (.tokenOverflow _)) => .tokenOverflow
  | .fire (.foreignMarking ..) | .explore _ | .worker _ => .internal

def Kind.name : Kind → String
  | .invalidNet => "InvalidNet"
  | .unknownPlace => "UnknownPlace"
  | .unknownTransition => "UnknownTransition"
  | .notEnabled => "NotEnabled"
  | .invalidConfig => "InvalidConfig"
  | .tokenOverflow => "TokenOverflow"
  | .internal => "Internal"

/-- The status code of a response that reports the error. -/
def Kind.status : Kind → Nat
  | .invalidNet | .unknownPlace | .invalidConfig => 400
  | .unknownTransition => 404
  | .notEnabled => 409
  | .tokenOverflow => 422
  | .internal => 500

def status (e : ServiceError) : Nat := e.kind.status

/-- The record made when a response reports the error. -/
def log (e : ServiceError) : Log :=
  if 500 ≤ e.status then [⟨.error, s!"request failed: {e.message}"⟩]
  else [⟨.debug, s!"request rejected: {e.message}"⟩]

end ServiceError

namespace Service

/-- The net of a request and the marking it is about. -/
def compile (model : Model) (marking : Option TokenMap) : Except ServiceError (Net × Marking) :=
  match Net.ofModel model with
  | .error cause => .error (.invalidNet cause)
  | .ok net =>
    match marking with
    | none => .ok (net, net.initialMarking)
    | some map =>
      match net.markingOfMap map with
      | .error cause => .error (.marking cause)
      | .ok m => .ok (net, m)

/-- The ids of the enabled transitions. -/
def enabled (r : NetRequest) : Except ServiceError (List String) :=
  (compile r.net r.marking).map fun (net, m) => net.enabledIds m

def state (r : NetRequest) : Except ServiceError StateResponse :=
  (enabled r).map fun ids => { enabled := ids, deadlocked := ids.isEmpty }

/-- A model with its initial tokens replaced, place by place. -/
def withTokens (m : Model) (tokens : TokenMap) : Model :=
  { m with places := m.places.map fun p => { p with tokens := tokens.tokens p.id } }

def fire (r : FireRequest) : Except ServiceError FireResponse := do
  let (net, m) ← compile r.net r.marking
  match net.fire m r.transitionId with
  | .error cause => throw (.fire cause)
  | .ok next =>
    let marking := net.markingToMap next
    return { marking, net := withTokens r.net marking }

/-- Refuses more states than the settings allow. -/
def checkCap (settings : ExploreSettings) (c : SearchConfig) : Except ServiceError Unit :=
  if settings.maxStatesCap < c.maxStates then
    let cap := settings.maxStatesCap
    .error (.explore (.invalidConfig
      s!"maxStates {c.maxStates} exceeds the configured cap of {cap}"))
  else .ok ()

/-- Explores the markings reachable in the request's net. -/
def bounds (settings : ExploreSettings) (r : BoundRequest) : Except ServiceError Findings := do
  let (net, m) ← compile r.net r.marking
  let c := r.config settings
  checkCap settings c
  match net.explore c m with
  | .error cause => throw (.explore cause)
  | .ok findings => return findings

/-- The records of `bounds`. -/
def boundsLog (settings : ExploreSettings) (r : BoundRequest) : Log :=
  Net.compileLog r.net ++
    match compile r.net r.marking with
    | .error _ => []
    | .ok (net, m) =>
      let c := r.config settings
      match checkCap settings c with
      | .error _ => []
      | .ok () => net.exploreLog c m

end Service

end TokenGame
