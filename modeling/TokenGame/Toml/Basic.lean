/-! TOML documents. Floats and dates are told apart from other values, but what they
say is not needed here and is not kept. -/
namespace TokenGame

inductive Toml where
  | text (value : String)
  | integer (value : Int)
  /-- Whether the value is one that a double holds. -/
  | float (fits : Bool)
  | bool (value : Bool)
  | date
  | array (items : List Toml)
  | table (entries : List (String × Toml))
  deriving Repr, Inhabited

namespace Toml

/-- The values that some integer type holds. -/
def inRange (n : Int) : Bool := -(Int.pow 2 127) ≤ n && n < Int.pow 2 128

mutual

/-- Whether every number in a document has a value. A document that is passed over
has to be sound as well. -/
def isSound : Toml → Bool
  | .integer n => inRange n
  | .float fits => fits
  | .array items => areSound items
  | .table entries => entriesAreSound entries
  | .text _ | .bool _ | .date => true

def areSound : List Toml → Bool
  | [] => true
  | v :: rest => v.isSound && areSound rest

def entriesAreSound : List (String × Toml) → Bool
  | [] => true
  | (_, v) :: rest => v.isSound && entriesAreSound rest

end

end Toml

end TokenGame
