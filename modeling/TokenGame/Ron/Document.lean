import TokenGame.Document
import TokenGame.Ron.Number

/-! RON as a data format. A record is a structure with named fields, which may bear
the name of its type; an absent value is `None`, and a present one stands inside
`Some` unless an extension allows to leave that out. -/
namespace TokenGame.Ron

/-- Where a value stands, which decides how a structure may be written there. -/
inductive Place where
  | plain
  /-- Inside `Some`, where a structure has no parentheses of its own. -/
  | inSome
  /-- The value shares the parentheses of `Some`. -/
  | merged
  deriving DecidableEq, Repr

/-- A document together with the extensions under which it is to be read. -/
structure Source where
  extensions : Extensions
  value : Ron
  place : Place := .plain
  deriving Repr

namespace Source

def sub (s : Source) (value : Ron) : Source := { s with value, place := .plain }

/-- A value inside `Some`. -/
def inner (s : Source) (value : Ron) : Source :=
  { s with value, place := if s.extensions.mergedSome then .inSome else .plain }

/-- Whether a structure may stand for a record of a type. -/
def accepts (s : Source) (type : String) (name : Option String) : Bool :=
  match s.place, name with
  | .plain, some name => name = type
  | .plain, none => !s.extensions.explicitNames
  | .inSome, _ => false
  | .merged, _ => true

def key : Ron → Decoded String
  | .text k => .ok k
  | _ => .error .mismatch

/-- The fields of a structure. Those that are passed over have to be clear. -/
def fields (s : Source) (declared : List (List String)) (written : List (String × Ron)) :
    Decoded (Fields Source) :=
  let extra := written.filter fun f => !declared.any (·.contains f.1)
  if fieldsAreClear extra then
    .ok (Fields.ofNamed declared (written.map fun f => (.ok f.1, s.sub f.2)))
  else .error .mismatch

instance : Document Source where
  bool s := match s.value with
    | .bool b => .ok b
    | _ => .error .mismatch
  word s := match s.value with
    | .number lexeme =>
      match Number.word? lexeme with
      | some n => .ok n
      | none => .error .mismatch
    | _ => .error .mismatch
  text s := match s.value with
    | .text t => .ok t
    | _ => .error .mismatch
  variant s := match s.value with
    | .unit n => .ok n
    | _ => .error .mismatch
  option s := match s.value with
    | .option v => .ok (v.map s.inner)
    | .shared (.tuple none [v]) _ => .ok (some (s.inner v))
    | .shared content _ => .ok (some { s with value := content, place := .merged })
    | v => if s.extensions.implicitSome then .ok (some (s.sub v)) else .error .mismatch
  list s := match s.value with
    | .list items => .ok (items.map s.sub)
    | _ => .error .mismatch
  map s := match s.value with
    | .map entries => .ok (entries.map fun e => (key e.1, s.sub e.2))
    | _ => .error .mismatch
  record type declared s := match s.value with
    | .struct name written =>
      if s.accepts type name then s.fields declared written else .error .mismatch
    | .tuple name [] => if s.accepts type name then s.fields declared [] else .error .mismatch
    | _ => .error .mismatch

end Source

end TokenGame.Ron
