import TokenGame.Toml.Basic

/-! Tables that are being put together. A table can be written in several places
only in the ways that the format allows: a table that exists because a longer
header names it can still get a header of its own, and a table made by dotted keys
can only grow by dotted keys. -/
namespace TokenGame.Toml

/-- How a table came to be. -/
inductive Origin where
  /-- A header names it. -/
  | header
  /-- A longer header passes through it. -/
  | passed
  /-- A dotted key passes through it. -/
  | dotted
  deriving DecidableEq, Repr

mutual

inductive Node where
  | value (value : Toml)
  | table (table : Table)
  /-- The tables that one repeated header opens, the last one first. -/
  | tables (last : Table) (earlier : List Table)

inductive Table where
  | mk (origin : Origin) (entries : List (String × Node))

end

namespace Table

def origin : Table → Origin
  | .mk origin _ => origin

def entries : Table → List (String × Node)
  | .mk _ entries => entries

def get? (t : Table) (key : String) : Option Node := (t.entries.find? (·.1 == key)).map (·.2)

/-- Replaces the entry of a key, or adds it at the end. -/
def set (t : Table) (key : String) (node : Node) : Table :=
  if (t.get? key).isSome then
    .mk t.origin (t.entries.map fun e => if e.1 == key then (key, node) else e)
  else .mk t.origin (t.entries ++ [(key, node)])

def empty (origin : Origin) : Table := .mk origin []

/-- Changes the table at the end of a path. Tables on the way are made if they are
missing; a path goes through the last of repeated tables. Dotted keys do not go
through tables that have a header. -/
def update? (dotted : Bool) (change : Table → Option Table) : List String → Table → Option Table
  | [], t => change t
  | key :: path, t =>
    match t.get? key with
    | none => do
      let inner ← update? dotted change path (empty (if dotted then .dotted else .passed))
      return t.set key (.table inner)
    | some (.value _) => none
    | some (.table inner) =>
      if dotted ∧ inner.origin = .header then none
      else (update? dotted change path inner).map fun inner => t.set key (.table inner)
    | some (.tables last earlier) =>
      (update? dotted change path last).map fun last => t.set key (.tables last earlier)

/-- Writes a value under a key that is not there yet. -/
def insert? (key : String) (v : Toml) (t : Table) : Option Table :=
  if (t.get? key).isSome then none else some (t.set key (.value v))

/-- Writes a value under a dotted key. The last table of a dotted key is one that
dotted keys made, and a plain key is never written into such a table. -/
def insertAt? (path : List String) (key : String) (v : Toml) (t : Table) : Option Table :=
  update? true
    (fun t => if (t.origin = .dotted) = (path ≠ []) then insert? key v t else none)
    path t

/-- Opens the table of a header. -/
def openTable? (key : String) (t : Table) : Option Table :=
  match t.get? key with
  | none => some (t.set key (.table (empty .header)))
  | some (.table (.mk .passed entries)) => some (t.set key (.table (.mk .header entries)))
  | some _ => none

/-- Opens another table of a repeated header. -/
def openTables? (key : String) (t : Table) : Option Table :=
  match t.get? key with
  | none => some (t.set key (.tables (empty .header) []))
  | some (.tables last earlier) =>
    some (t.set key (.tables (empty .header) (last :: earlier)))
  | some _ => none

end Table

mutual

def Node.toToml : Node → Toml
  | .value v => v
  | .table t => t.toToml
  | .tables last earlier => .array (tablesToToml earlier [last.toToml])

def Table.toToml : Table → Toml
  | .mk _ entries => .table (entriesToToml entries)

/-- The tables before some others, which come last one first. -/
def tablesToToml : List Table → List Toml → List Toml
  | [], later => later
  | t :: earlier, later => tablesToToml earlier (t.toToml :: later)

def entriesToToml : List (String × Node) → List (String × Toml)
  | [] => []
  | (key, node) :: rest => (key, node.toToml) :: entriesToToml rest

end

end TokenGame.Toml
