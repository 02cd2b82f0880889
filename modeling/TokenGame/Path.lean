/-! Paths of files. A path is its text; its components are what stands between the
slashes. -/
namespace TokenGame

structure Path where
  text : String
  deriving DecidableEq, Repr

namespace Path

/-- What stands between slashes, empty pieces included. -/
def pieces : List Char → List (List Char)
  | [] => [[]]
  | c :: rest =>
    if c = '/' then [] :: pieces rest
    else
      match pieces rest with
      | piece :: more => (c :: piece) :: more
      | [] => [[c]]

/-- The steps of a path, as they are written. -/
def steps (p : Path) : List String := (pieces p.text.toList).map String.ofList

def isAbsolute (p : Path) : Bool := p.text.toList.head? = some '/'

/-- The steps that name something: empty ones and `.` do not. -/
def components (p : Path) : List String := p.steps.filter fun s => s != "" && s != "."

/-- Whether the last step that is written leads to the same place. -/
def staysAtEnd (p : Path) : Bool := (p.steps.filter (· != "")).getLast? = some "."

/-- Whether the path leads down from where it starts, name by name. After the first
name a step may stay in place. -/
def descends (p : Path) : Bool :=
  !p.isAbsolute && p.steps.head? != some "." && !p.components.contains ".."

/-- The last component, unless it leads upwards. -/
def fileName? (p : Path) : Option String :=
  match p.components.getLast? with
  | some ".." | none => none
  | some name => some name

/-- A file's name up to its last dot, and what follows the dot. A dot at the front
divides nothing. -/
def splitName (name : List Char) : List Char × Option (List Char) :=
  let extension := (name.reverse.takeWhile (· != '.')).reverse
  let stem := name.take (name.length - extension.length - 1)
  if stem.isEmpty then (name, none) else (stem, some extension)

def stem? (p : Path) : Option String :=
  p.fileName?.map fun name => String.ofList (splitName name.toList).1

def extension? (p : Path) : Option String :=
  p.fileName?.bind fun name => (splitName name.toList).2.map String.ofList

/-- The directory that a path is in. It has an empty text if the path names no
directory. -/
def parent (p : Path) : Path :=
  let names := String.intercalate "/" p.components.dropLast
  ⟨if p.isAbsolute then "/" ++ names else names⟩

/-- Whether a name can follow the text without a slash between them. -/
def isOpen (dir : Path) : Bool := dir.text = "" || dir.text.toList.getLast? = some '/'

/-- A name in a directory. -/
def child (dir : Path) (name : String) : Path :=
  if dir.isOpen then ⟨dir.text ++ name⟩ else ⟨dir.text ++ "/" ++ name⟩

/-- A path whose text goes on. -/
def extend (p : Path) (more : String) : Path := ⟨p.text ++ more⟩

end Path

end TokenGame
