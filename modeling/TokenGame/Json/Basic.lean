/-! JSON documents. Fields keep their order and may repeat. A number that is
written as plain digits is kept as a natural number, any other as it is written. -/
namespace TokenGame

/-- A text is `none` if it is not a sequence of characters: its escapes name half
of a surrogate pair. Such a text is well-formed JSON and denotes nothing. -/
inductive Json where
  | null
  | bool (value : Bool)
  | natural (value : Nat)
  | decimal (lexeme : String)
  | text (value : Option String)
  | list (items : List Json)
  | object (fields : List (Option String × Json))
  deriving Repr, Inhabited

namespace Json

def string (s : String) : Json := .text (some s)

def record (fields : List (String × Json)) : Json := .object (fields.map fun f => (some f.1, f.2))

def strings (items : List String) : Json := .list (items.map string)

/-- A value that may be absent, written as null then. -/
def option (write : α → Json) : Option α → Json
  | some a => write a
  | none => .null

end Json

end TokenGame
