import TokenGame.Codec.Model
import TokenGame.FileTree
import TokenGame.Json.Document
import TokenGame.Json.Parser
import TokenGame.Json.Printer
import TokenGame.Ron.Document
import TokenGame.Ron.Parser
import TokenGame.Ron.Printer

/-! Values as texts. A text is read in one of two formats; models can be written in
both. -/
namespace TokenGame

inductive Format where
  | json
  | ron
  deriving DecidableEq, Repr

/-- Why a text or file cannot be read as a value. -/
inductive TextError where
  | json
  | ron
  | file (cause : FileError)
  deriving DecidableEq, Repr

/-- The messages of an error, each the cause of the one before. -/
def TextError.messages : TextError → List String
  | .json => ["json error: the text holds no such value"]
  | .ron => ["ron parse error: the text holds no such value"]
  | .file cause => [s!"io error: {cause.message}", cause.message]

/-- The file's extension tells its format. -/
def Format.ofPath (p : Path) : Format :=
  match p.extension? with
  | some extension => if extension.map Char.toLower == "ron" then .ron else .json
  | none => .json

/-- A value that can be read in every format. -/
structure Reader (α : Type) where
  json : Json → Decoded α
  ron : Ron.Source → Decoded α

namespace Reader

/-- Reads a JSON text and tells texts that are no JSON from JSON of another kind. -/
def decodeJson (r : Reader α) (text : String) : Decoded α :=
  match Json.parse? text with
  | some v => r.json v
  | none => .error .malformed

def ofJson (r : Reader α) (text : String) : Except TextError α :=
  match r.decodeJson text with
  | .ok a => .ok a
  | .error _ => .error .json

def ofRon (r : Reader α) (text : String) : Except TextError α :=
  match Ron.parse? text with
  | none => .error .ron
  | some (extensions, value) =>
    match r.ron { extensions, value } with
    | .ok a => .ok a
    | .error _ => .error .ron

def ofText (r : Reader α) : Format → String → Except TextError α
  | .json, text => r.ofJson text
  | .ron, text => r.ofRon text

end Reader

def TokenMap.reader : Reader TokenMap := ⟨decode, decode⟩

/-! ### Models in RON -/

def Count.toRon (n : Count) : Ron := .natural n.toNat

def labelFieldRon (label : Option String) : List (String × Ron) :=
  match label with
  | some text => [("label", .option (some (.text text)))]
  | none => []

def Place.toRon (p : Place) : Ron :=
  .struct none
    ([("id", .text p.id)] ++ labelFieldRon p.label ++ [("tokens", Count.toRon p.tokens)])

def Transition.toRon (t : Transition) : Ron :=
  .struct none ([("id", .text t.id)] ++ labelFieldRon t.label)

def Arc.toRon (a : Arc) : Ron :=
  .struct none [("id", .text a.id), ("src", .text a.src), ("dst", .text a.dst),
    ("weight", Count.toRon a.weight)]

def Model.toRon (m : Model) : Ron :=
  .struct none [("places", .list (m.places.map Place.toRon)),
    ("transitions", .list (m.transitions.map Transition.toRon)),
    ("arcs", .list (m.arcs.map Arc.toRon))]

namespace Model

def reader : Reader Model := ⟨decode, decode⟩

def toText (m : Model) : Format → String
  | .json => m.toJson.pretty
  | .ron => m.toRon.pretty

def ofText (format : Format) (text : String) : Except TextError Model := reader.ofText format text

/-- The model that a file holds. -/
def ofFile (p : Path) (content : Except FileError String) : Except TextError Model :=
  match content with
  | .error cause => .error (.file cause)
  | .ok text => ofText (Format.ofPath p) text

/-- What a file of that name holds if it keeps the model. -/
def fileText (m : Model) (p : Path) : String := m.toText (Format.ofPath p)

end Model

end TokenGame
