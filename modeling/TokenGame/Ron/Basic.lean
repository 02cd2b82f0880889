/-! RON documents: structures with named fields, tuples, lists, maps, optional
values and scalars. Numbers are kept as they are written. -/
namespace TokenGame

inductive Ron where
  | bool (value : Bool)
  | number (lexeme : String)
  | char (value : Char)
  | text (value : String)
  | bytes (value : List Nat)
  | option (value : Option Ron)
  /-- A present value where `Some` may lend its parentheses: what they hold, as a
  nameless structure or tuple. It is clear if that can be told before reading it. -/
  | shared (content : Ron) (clear : Bool)
  | list (items : List Ron)
  | map (entries : List (Ron × Ron))
  /-- A name that stands alone. -/
  | unit (name : String)
  | tuple (name : Option String) (items : List Ron)
  | struct (name : Option String) (fields : List (String × Ron))
  deriving Repr, Inhabited

namespace Ron

def natural (n : Nat) : Ron := .number (Nat.repr n)

/-- What a text may switch on before its document. -/
structure Extensions where
  /-- An optional value may be written without `Some`. -/
  implicitSome : Bool := false
  /-- The names of structures have to be written. -/
  explicitNames : Bool := false
  /-- A structure inside `Some` has no parentheses of its own. -/
  mergedSome : Bool := false
  deriving DecidableEq, Repr

/-- Switches on the extension with this name. One of them concerns a kind of
structure that no document here has. -/
def Extensions.enable? (e : Extensions) : String → Option Extensions
  | "implicit_some" => some { e with implicitSome := true }
  | "explicit_struct_names" => some { e with explicitNames := true }
  | "unwrap_variant_newtypes" => some { e with mergedSome := true }
  | "unwrap_newtypes" => some e
  | _ => none

mutual

/-- Whether a document can be passed over: nothing says then what the parentheses of
`Some` hold, so that has to be clear from the text. -/
def isClear : Ron → Bool
  | .shared content clear => clear && content.isClear
  | .option (some v) => v.isClear
  | .list items | .tuple _ items => areClear items
  | .map entries => entriesAreClear entries
  | .struct _ fields => fieldsAreClear fields
  | .bool _ | .number _ | .char _ | .text _ | .bytes _ | .option none | .unit _ => true

def areClear : List Ron → Bool
  | [] => true
  | v :: rest => v.isClear && areClear rest

def entriesAreClear : List (Ron × Ron) → Bool
  | [] => true
  | (k, v) :: rest => k.isClear && v.isClear && entriesAreClear rest

def fieldsAreClear : List (String × Ron) → Bool
  | [] => true
  | (_, v) :: rest => v.isClear && fieldsAreClear rest

end

end Ron

end TokenGame
