import TokenGame.Codec.Service
import TokenGame.Json.Document
import TokenGame.Json.Parser
import TokenGame.Service.MediaType
import TokenGame.Service.Target

/-! The service over HTTP: which requests are calls, and the responses to them. -/
namespace TokenGame.Http

structure Request where
  method : String
  /-- The path by which the request is routed. -/
  path : String
  contentType : Option String
  body : String
  deriving DecidableEq, Repr

/-- Whether a text can be a method. -/
def isMethod (text : String) : Bool :=
  !text.isEmpty && text.toList.all MediaType.isTokenChar

/-- Whether a text can be the value of a header: it holds no controls but tabs. -/
def isHeaderValue (text : String) : Bool :=
  text.toList.all fun c => c = '\t' || (0x20 ≤ c.toNat && c.toNat != 0x7f)

/-- The request to a target, if its parts are well formed. -/
def Request.ofParts? (method target : String) (contentType : Option String) (body : String) :
    Option Request := do
  let path ← Target.path? target
  if isMethod method && contentType.all isHeaderValue then
    some { method, path, contentType, body }
  else none

/-- A response with a JSON body, or with none that matters. -/
structure Response where
  status : Nat
  body : Option Json

/-- What answers a request to a path. -/
inductive Handler where
  | about
  | health
  | call (endpoint : Service.Endpoint)
  deriving DecidableEq, Repr

/-- The handler of a path and the methods it answers to. -/
def route? : String → Option (List String × Handler)
  | "/" => some (["GET"], .about)
  | "/health" => some (["GET"], .health)
  | "/simulate/enabled" => some (["GET", "POST"], .call .enabled)
  | "/simulate/fire" => some (["POST"], .call .fire)
  | "/analyze/state" => some (["POST"], .call .state)
  | "/analyze/k-bounded" => some (["POST"], .call .bounds)
  | _ => none

/-- What GET does, HEAD does too. -/
def answersTo (methods : List String) (method : String) : Bool :=
  methods.contains (if method == "HEAD" then "GET" else method)

/-- The call that a request makes, or the status that refuses it. -/
def call (endpoint : Service.Endpoint) (r : Request) : Except Nat Service.Call :=
  match r.contentType.bind MediaType.ofText? with
  | none => .error 415
  | some media =>
    if !media.isJson then .error 415
    else
      match Json.parse? r.body with
      | none => .error 400
      | some body =>
        match endpoint.decode body with
        | .error .malformed => .error 400
        | .error .mismatch => .error 422
        | .ok c => .ok c

/-- The name and version that the service gives itself. -/
def about : Json :=
  .record [("message", .string "Petri net engine"), ("version", .string "0.1.0")]

def health : Json := .record [("status", .string "ok")]

def ofResult : Except ServiceError Service.Answer → Response
  | .ok answer => ⟨200, some answer.toJson⟩
  | .error e => ⟨e.status, some e.toJson⟩

def Handler.respond (config : Config) (r : Request) : Handler → Response
  | .about => ⟨200, some Http.about⟩
  | .health => ⟨200, some Http.health⟩
  | .call endpoint =>
    match Http.call endpoint r with
    | .error status => ⟨status, none⟩
    | .ok c => ofResult (c.run config.explore)

def respond (config : Config) (r : Request) : Response :=
  match route? r.path with
  | none => ⟨404, none⟩
  | some (methods, handler) =>
    if !answersTo methods r.method then ⟨405, none⟩
    else
      let response := handler.respond config r
      if r.method == "HEAD" then { response with body := none } else response

/-! ### Records -/

/-- The records of a call: a firing is announced, and a failure is reported. -/
def callLog (config : Config) (c : Service.Call) : Log :=
  let announcement : Log := match c with
    | .fire r => [⟨.debug, s!"fire {r.transitionId}"⟩]
    | _ => []
  let outcome := match c.run config.explore with
    | .ok _ => []
    | .error e => e.log
  announcement ++ c.log config.explore ++ outcome

/-- The records of `respond`. -/
def respondLog (config : Config) (r : Request) : Log :=
  match route? r.path with
  | some (methods, .call endpoint) =>
    if answersTo methods r.method then
      match call endpoint r with
      | .ok c => callLog config c
      | .error _ => []
    else []
  | _ => []

end TokenGame.Http
