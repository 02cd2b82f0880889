import TokenGame.FileTree

/-! Plans: what a command prints and writes. Files are read before there is a plan,
so carrying one out needs nothing but its actions in order. -/
namespace TokenGame

/-- Why a command fails: messages, each the cause of the one before. -/
structure Failure where
  message : String
  causes : List String := []
  deriving DecidableEq, Repr

namespace Failure

/-- All messages in one line. -/
def chain (f : Failure) : String := String.intercalate ": " (f.message :: f.causes)

/-- The causes as a list below the message; more than one are numbered. -/
def causeLines (f : Failure) : List String :=
  match f.causes with
  | [] => []
  | [cause] => ["", "Caused by:", "    " ++ cause]
  | causes => ["", "Caused by:"] ++ causes.mapIdx fun index cause => s!"    {index}: {cause}"

/-- What is printed about the failure of a command. -/
def report (f : Failure) : String :=
  String.intercalate "\n" (("Error: " ++ f.message) :: f.causeLines)

end Failure

inductive Action where
  | print (line : String)
  | warn (line : String)
  | makeDirectories (path : Path) (failure : FileError → Failure)
  | write (path : Path) (text : String) (failure : FileError → Failure)

/-- Actions, and the failure that ends the command after them. -/
structure Plan where
  actions : List Action := []
  failure : Option Failure := none

def Plan.ofExcept : Except Failure Plan → Plan
  | .ok plan => plan
  | .error failure => { failure := some failure }

/-- What a command leaves behind. -/
structure Outcome where
  printed : List String := []
  warned : List String := []
  files : FileTree
  failure : Option Failure := none

namespace Outcome

def succeeds (o : Outcome) : Bool := o.failure.isNone

/-- What is printed, as a text. -/
def output (o : Outcome) : String := String.join (o.printed.map (· ++ "\n"))

/-- Warnings and the failure, as a text. -/
def errors (o : Outcome) : String :=
  String.join ((o.warned ++ (o.failure.map Failure.report).toList).map (· ++ "\n"))

end Outcome

namespace Action

/-- Takes one action on files that have been left by those before it. -/
def perform (o : Outcome) : Action → Except Failure Outcome
  | .print line => .ok { o with printed := o.printed ++ [line] }
  | .warn line => .ok { o with warned := o.warned ++ [line] }
  | .makeDirectories path failure => change failure (o.files.makeDirectories path)
  | .write path text failure => change failure (o.files.write path text)
where
  change (failure : FileError → Failure) (result : Except FileError FileTree) :
      Except Failure Outcome :=
    match result with
    | .ok files => .ok { o with files }
    | .error e => .error (failure e)

/-- Takes actions until one fails. -/
def performAll (o : Outcome) : List Action → Outcome
  | [] => o
  | action :: rest =>
    match action.perform o with
    | .ok o => performAll o rest
    | .error failure => { o with failure := some failure }

end Action

/-- Carries out a plan. -/
def Plan.perform (p : Plan) (files : FileTree) : Outcome :=
  let o := Action.performAll { files } p.actions
  match o.failure with
  | some _ => o
  | none => { o with failure := p.failure }

end TokenGame
