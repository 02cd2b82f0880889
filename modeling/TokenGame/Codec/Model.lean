import TokenGame.Document
import TokenGame.Json.Basic
import TokenGame.Marking
import TokenGame.Model
import TokenGame.TokenMap

/-! How models and markings are read from documents and written as JSON. Labels are
written only where there is one; tokens and weights always are. -/
namespace TokenGame

variable {δ : Type} [Document δ]

def Place.decode (d : δ) : Decoded Place := do
  let f ← Document.record "Place" [["id"], ["label"], ["tokens"]] d
  f.complete <| Place.mk
    <$> f.required 0 Document.text
    <*> f.defaulted 1 (Document.optional Document.text) none
    <*> f.defaulted 2 Document.count 0

def Transition.decode (d : δ) : Decoded Transition := do
  let f ← Document.record "Transition" [["id"], ["label"]] d
  f.complete <| Transition.mk
    <$> f.required 0 Document.text
    <*> f.defaulted 1 (Document.optional Document.text) none

def Arc.decode (d : δ) : Decoded Arc := do
  let f ← Document.record "Arc" [["id"], ["src"], ["dst"], ["weight"]] d
  f.complete <| Arc.mk
    <$> f.required 0 Document.text
    <*> f.required 1 Document.text
    <*> f.required 2 Document.text
    <*> f.defaulted 3 Document.count 1

def Model.decode (d : δ) : Decoded Model := do
  let f ← Document.record "NetModel" [["places"], ["transitions"], ["arcs"]] d
  f.complete <| Model.mk
    <$> f.defaulted 0 (Document.listOf Place.decode) []
    <*> f.defaulted 1 (Document.listOf Transition.decode) []
    <*> f.defaulted 2 (Document.listOf Arc.decode) []

/-- The last entry for a place wins. -/
def TokenMap.decode (d : δ) : Decoded TokenMap := do
  return .ofList (← Document.mapOf Document.count d)

def Marking.decode (d : δ) : Decoded Marking := do
  return .ofList (← Document.listOf Document.count d)

/-! ### JSON -/

def Count.toJson (n : Count) : Json := .natural n.toNat

def labelField (label : Option String) : List (String × Json) :=
  match label with
  | some text => [("label", .string text)]
  | none => []

def Place.toJson (p : Place) : Json :=
  .record ([("id", .string p.id)] ++ labelField p.label ++ [("tokens", Count.toJson p.tokens)])

def Transition.toJson (t : Transition) : Json :=
  .record ([("id", .string t.id)] ++ labelField t.label)

def Arc.toJson (a : Arc) : Json :=
  .record [("id", .string a.id), ("src", .string a.src), ("dst", .string a.dst),
    ("weight", Count.toJson a.weight)]

def Model.toJson (m : Model) : Json :=
  .record [("places", .list (m.places.map Place.toJson)),
    ("transitions", .list (m.transitions.map Transition.toJson)),
    ("arcs", .list (m.arcs.map Arc.toJson))]

def TokenMap.toJson (m : TokenMap) : Json :=
  .record (m.entries.map fun e => (e.1, Count.toJson e.2))

def Marking.toJson (m : Marking) : Json := .list (m.toList.map Count.toJson)

end TokenGame
