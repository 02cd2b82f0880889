import TokenGame.Document
import TokenGame.Toml.Basic

/-! TOML as a data format. A record is a table, or an array of its fields in
declaration order whose surplus items are not looked at. A date is a table with an
entry that no record declares. A value that is there is never absent. -/
namespace TokenGame.Toml

def named (entries : List (String × Toml)) : List (Decoded String × Toml) :=
  entries.map fun e => (.ok e.1, e.2)

/-- The fields of a table. Entries that are passed over have to be sound. -/
def fields (declared : List (List String)) (entries : List (String × Toml)) :
    Decoded (Fields Toml) :=
  let extra := entries.filter fun e => !declared.any (·.contains e.1)
  if entriesAreSound extra then .ok (Fields.ofNamed declared (named entries))
  else .error .mismatch

instance : Document Toml where
  bool
    | .bool b => .ok b
    | _ => .error .mismatch
  word
    | .integer n => if 0 ≤ n ∧ n < Count.limit then .ok n.toNat else .error .mismatch
    | _ => .error .mismatch
  text
    | .text s => .ok s
    | _ => .error .mismatch
  variant
    | .text s => .ok s
    | _ => .error .mismatch
  option v := .ok (some v)
  list
    | .array items => .ok items
    | _ => .error .mismatch
  map
    | .table entries => .ok (named entries)
    | _ => .error .mismatch
  record _ declared
    | .table entries => fields declared entries
    | .date => fields declared []
    | .array items => .ok (Fields.ofPositions declared items none)
    | _ => .error .mismatch

end TokenGame.Toml
