import TokenGame.Path

/-! The files of a system, by the names that lead to them from its root, and the
directory that commands work in. Paths that do not begin with a slash start there. -/
namespace TokenGame

/-- Why a file or directory cannot be reached. -/
inductive FileError where
  | notFound
  | notDirectory
  | isDirectory
  | exists
  | nameTooLong
  /-- The path holds a character that ends paths. -/
  | invalidPath
  | other (reason : String)
  deriving DecidableEq, Repr

/-- What the system says about the error. -/
def FileError.message : FileError → String
  | .notFound => "No such file or directory (os error 2)"
  | .notDirectory => "Not a directory (os error 20)"
  | .isDirectory => "Is a directory (os error 21)"
  | .exists => "File exists (os error 17)"
  | .nameTooLong => "File name too long (os error 36)"
  | .invalidPath => "file name contained an unexpected NUL byte"
  | .other reason => reason

/-- Whether the error says that there is nothing at the path. -/
def FileError.isAbsence : FileError → Bool
  | .notFound | .notDirectory | .nameTooLong | .invalidPath => true
  | .isDirectory | .exists | .other _ => false

inductive FileNode where
  | file (text : String)
  | directory
  /-- The device that reads as an empty file and keeps nothing. -/
  | null
  deriving DecidableEq, Repr

structure FileTree where
  nodes : List (List String × FileNode)
  directory : List String
  deriving Repr

namespace FileTree

/-- The directories at the root of every system. -/
def topDirectories : List String :=
  ["bin", "dev", "etc", "home", "lib", "proc", "root", "sys", "tmp", "usr", "var"]

/-- A system with an empty directory to work in. -/
def empty : FileTree where
  nodes := (["dev", "null"], .null) :: (["tmp", "work"], .directory) ::
    topDirectories.map fun name => ([name], .directory)
  directory := ["tmp", "work"]

/-- What stands at a place. The root is a directory. -/
def node? (t : FileTree) (names : List String) : Option FileNode :=
  if names.isEmpty then some .directory
  else (t.nodes.find? (·.1 == names)).map (·.2)

/-- Replaces the node at a place, or adds it at the end. -/
def put (names : List String) (node : FileNode) :
    List (List String × FileNode) → List (List String × FileNode)
  | [] => [(names, node)]
  | e :: rest => if e.1 = names then (names, node) :: rest else e :: put names node rest

def set (t : FileTree) (names : List String) (node : FileNode) : FileTree :=
  { t with nodes := put names node t.nodes }

theorem find?_put (names : List String) (node : FileNode) (other : List String)
    (nodes : List (List String × FileNode)) :
    (put names node nodes).find? (·.1 == other) =
      if names = other then some (names, node) else nodes.find? (·.1 == other) := by
  induction nodes with
  | nil => by_cases same : names = other <;> simp [put, same]
  | cons e rest ih =>
    unfold put
    by_cases here : e.1 = names
    · by_cases same : names = other <;> simp [here, same]
    · by_cases same : names = other
      · subst same
        simpa [here] using ih
      · simp [here, same, List.find?_cons, ih]

/-- Below the root, a place holds what was put there last. -/
theorem node?_set (t : FileTree) {names : List String} (node : FileNode) (other : List String)
    (below : names ≠ []) :
    (t.set names node).node? other = if names = other then some node else t.node? other := by
  by_cases root : other = []
  · simp [node?, root, below]
  · simp only [node?, set, List.isEmpty_iff, root, if_false, find?_put]
    split <;> simp

/-- The files below the directory that commands work in, by the names that lead to
them from there. -/
def files (t : FileTree) : List (List String × String) :=
  t.nodes.filterMap fun
    | (names, .file text) =>
      if t.directory.isPrefixOf names then some (names.drop t.directory.length, text) else none
    | (_, .directory) | (_, .null) => none

/-- Takes one step from a directory. Nothing is above the root. -/
def step (names : List String) (name : String) : List String :=
  if name == "" || name == "." then names
  else if name == ".." then names.dropLast
  else names ++ [name]

/-- Follows steps from a place. Every step has to start at a directory. -/
def follow (t : FileTree) (names : List String) : List String → Except FileError (List String)
  | [] => .ok names
  | name :: rest =>
    match t.node? names with
    | some .directory => t.follow (step names name) rest
    | some (.file _) | some .null => .error .notDirectory
    | none => .error .notFound

/-- Paths are shorter than this, in bytes. -/
def pathLimit : Nat := 4096

/-- The longest name, in bytes. -/
def nameLimit : Nat := 255

/-- Whether a path can be a path of the system at all. -/
def check (p : Path) : Except FileError Unit :=
  if p.text.toList.contains '\x00' then .error .invalidPath
  else if pathLimit ≤ p.text.utf8ByteSize || p.steps.any (nameLimit < ·.utf8ByteSize) then
    .error .nameTooLong
  else .ok ()

def start (t : FileTree) (p : Path) : List String := if p.isAbsolute then [] else t.directory

/-- Where a path leads to. -/
def locate (t : FileTree) (p : Path) : Except FileError (List String) := do
  check p
  t.follow (t.start p) p.steps

def lookup (t : FileTree) (p : Path) : Except FileError FileNode := do
  match t.node? (← t.locate p) with
  | some node => return node
  | none => throw .notFound

def read (t : FileTree) (p : Path) : Except FileError String := do
  match ← t.lookup p with
  | .file text => return text
  | .null => return ""
  | .directory => throw .isDirectory

/-- Writes a file. The directory that it is in has to be there. -/
def write (t : FileTree) (p : Path) (text : String) : Except FileError FileTree := do
  let names ← t.locate p
  match t.node? names with
  | some .directory => throw .isDirectory
  | some .null => return t
  | some (.file _) | none => return t.set names (.file text)

/-- Makes the directories along some names, and gives the place of the last one. -/
def makeAlong (t : FileTree) (names : List String) :
    List String → Except FileError (FileTree × List String)
  | [] => .ok (t, names)
  | name :: rest =>
    let next := step names name
    match t.node? next with
    | some .directory => t.makeAlong next rest
    | some (.file _) | some .null => .error .exists
    | none => (t.set next .directory).makeAlong next rest

/-- Makes a directory and those above it. A path that ends in a step to the same place
makes no directory at its end. -/
def makeDirectories (t : FileTree) (p : Path) : Except FileError FileTree := do
  check p
  if p.staysAtEnd then
    let (t, names) ← t.makeAlong (t.start p) p.components.dropLast
    let names ← t.follow names (p.components.drop (p.components.length - 1))
    if t.node? names = some .directory then return t else throw .notFound
  else
    let (t, _) ← t.makeAlong (t.start p) p.components
    return t

end FileTree

end TokenGame
