import TokenGame.Document
import TokenGame.Json.Number

/-! JSON as a data format. A record is an object, or a list of its fields in
declaration order; an absent value is null; a name is a text, or the only key of
an object whose value is null. -/
namespace TokenGame.Json

/-- Why a value is refused where another kind was expected. Texts and numbers that
denote nothing are refused as such. -/
def refuse (v : Json) : DecodeError :=
  match v with
  | .text none => .malformed
  | v => if Number.isHuge v then .malformed else .mismatch

def key (k : Option String) : Decoded String :=
  match k with
  | some s => .ok s
  | none => .error .malformed

def entries (fields : List (Option String × Json)) : List (Decoded String × Json) :=
  fields.map fun f => (key f.1, f.2)

/-- A list that is longer than a record is no text of a record at all. -/
def decodeRecord (declared : List (List String)) : Json → Decoded (Fields Json)
  | .object fields => .ok (Fields.ofNamed declared (entries fields))
  | .list items => .ok (Fields.ofPositions declared items (some .malformed))
  | v => .error v.refuse

instance : Document Json where
  bool
    | .bool b => .ok b
    | v => .error v.refuse
  word
    | .natural n => if n < Count.limit then .ok n else .error (Json.natural n).refuse
    | v => .error v.refuse
  text
    | .text (some s) => .ok s
    | v => .error v.refuse
  variant
    | .text (some s) => .ok s
    | .object [(some s, .null)] => .ok s
    | v => .error v.refuse
  option
    | .null => .ok none
    | v => .ok (some v)
  list
    | .list items => .ok items
    | v => .error v.refuse
  map
    | .object fields => .ok (entries fields)
    | v => .error v.refuse
  record _ declared v := decodeRecord declared v

end TokenGame.Json
