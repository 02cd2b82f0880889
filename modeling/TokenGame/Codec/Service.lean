import TokenGame.Codec.Findings
import TokenGame.Service.Call

/-! How requests are read and responses are written. -/
namespace TokenGame

variable {δ : Type} [Document δ]

def NetRequest.decode (d : δ) : Decoded NetRequest := do
  let f ← Document.record "NetRequest" [["net"], ["marking"]] d
  f.complete <| NetRequest.mk
    <$> f.required 0 Model.decode
    <*> f.defaulted 1 (Document.optional TokenMap.decode) none

/-- The transition's field has two spellings, of which one is written. -/
def FireRequest.decode (d : δ) : Decoded FireRequest := do
  let f ← Document.record "FireRequest"
    [["net"], ["transitionId", "transition_id"], ["marking"]] d
  f.complete <| FireRequest.mk
    <$> f.required 0 Model.decode
    <*> f.required 1 Document.text
    <*> f.defaulted 2 (Document.optional TokenMap.decode) none

def BoundRequest.decode (d : δ) : Decoded BoundRequest := do
  let f ← Document.record "KBoundedRequest"
    [["net"], ["marking"], ["k"], ["maxDepth"], ["maxStates"]] d
  f.complete <| BoundRequest.mk
    <$> f.required 0 Model.decode
    <*> f.defaulted 1 (Document.optional TokenMap.decode) none
    <*> f.defaulted 2 (Document.optional Document.count) none
    <*> f.defaulted 3 (Document.optional Document.word) none
    <*> f.defaulted 4 (Document.optional Document.word) none

def Service.Endpoint.decode (d : δ) : Service.Endpoint → Decoded Service.Call
  | .enabled => (NetRequest.decode d).map .enabled
  | .fire => (FireRequest.decode d).map .fire
  | .state => (NetRequest.decode d).map .state
  | .bounds => (BoundRequest.decode d).map .bounds

/-! ### JSON -/

def NetRequest.toJson (r : NetRequest) : Json :=
  .record [("net", r.net.toJson), ("marking", .option TokenMap.toJson r.marking)]

def FireRequest.toJson (r : FireRequest) : Json :=
  .record [("net", r.net.toJson), ("transitionId", .string r.transitionId),
    ("marking", .option TokenMap.toJson r.marking)]

def BoundRequest.toJson (r : BoundRequest) : Json :=
  .record [("net", r.net.toJson), ("marking", .option TokenMap.toJson r.marking),
    ("k", .option Count.toJson r.k), ("maxDepth", .option .natural r.maxDepth),
    ("maxStates", .option .natural r.maxStates)]

def enabledJson (ids : List String) : Json := .record [("enabled", .strings ids)]

def StateResponse.toJson (r : StateResponse) : Json :=
  .record [("enabled", .strings r.enabled), ("deadlocked", .bool r.deadlocked)]

def FireResponse.toJson (r : FireResponse) : Json :=
  .record [("marking", r.marking.toJson), ("net", r.net.toJson)]

def Service.Answer.toJson : Service.Answer → Json
  | .enabled ids => enabledJson ids
  | .fired r => r.toJson
  | .state r => r.toJson
  | .findings f => f.toJson

def ServiceError.toJson (e : ServiceError) : Json :=
  .record [("error", .string e.kind.name), ("message", .string e.message)]

end TokenGame
