import TokenGame.Command.Run
import TokenGame.Options.Parser

/-! The command line: files are read, a plan is made, and its actions are taken. -/
namespace TokenGame.CommandLine

def usage : String :=
  "Usage: pn [-c FILE] COMMAND

Commands:
  enabled NET [-m JSON]                        List the transitions enabled at a marking
  fire NET TRANSITION [-m JSON] [-o FILE]      Fire one transition and print the resulting marking
  explore NET... [LIMITS] [-o DIR]             Bounded reachability analysis of one or more nets
  simulate NET [-n STEPS] [--seed SEED]        Fire random enabled transitions and print the history
  graph NET [-m JSON] [LIMITS] [-o FILE]       Export the explored state graph as DOT

Limits: [-k K] [--max-depth N] [--max-states N]"

/-- The causes that the program tells apart. -/
def fileError : IO.Error → FileError
  | .noFileOrDirectory .. => .notFound
  | .alreadyExists .. => .exists
  | .inappropriateType _ code _ => if code = 21 then .isDirectory else .notDirectory
  | .invalidArgument file code details =>
    if code = 36 ∨ code = 0 - 36 then .nameTooLong
    else .other (toString (IO.Error.invalidArgument file code details))
  | e => .other (toString e)

def reading (p : Path) : IO (Except FileError String) := do
  match ← (IO.FS.readFile p.text).toBaseIO with
  | .ok text => return .ok text
  | .error e => return .error (fileError e)

/-- Reads files once, so that plans can be made from what they hold. -/
def readAll (paths : List Path) : IO Reading := do
  let contents ← paths.mapM fun p => return (p, ← reading p)
  return fun p => ((contents.find? (·.1 == p)).map (·.2)).getD (.error .notFound)

/-- Changes files, and tells why that fails. -/
def change (failure : FileError → Failure) (effect : IO Unit) : ExceptT Failure IO Unit := do
  match ← effect.toBaseIO with
  | .ok () => return
  | .error e => throw (failure (fileError e))

/-- Makes a directory and those above it. One whose path ends in a step to the same
place is not made. -/
def makeDirectories (p : Path) : IO Unit := do
  if p.staysAtEnd then
    unless p.parent.text.isEmpty do IO.FS.createDirAll p.parent.text
    match ← (IO.FS.createDir p.text).toBaseIO with
    | .ok () | .error (.alreadyExists ..) => return
    | .error e => throw e
  else IO.FS.createDirAll p.text

def take : Action → ExceptT Failure IO Unit
  | .print line => IO.println line
  | .warn line => IO.eprintln line
  | .makeDirectories path failure =>
    if path.text.isEmpty then return else change failure (makeDirectories path)
  | .write path text failure => change failure (IO.FS.writeFile path.text text)

def carryOut (plan : Plan) : ExceptT Failure IO Unit := do
  plan.actions.forM take
  match plan.failure with
  | some failure => throw failure
  | none => return

/-- A generator that nobody can foresee. -/
def freshRandom : IO Random := do
  let bytes ← IO.getRandomBytes 8
  return Random.ofSeed (bytes.foldl (fun seed byte => seed * 256 + byte.toUInt64) 0)

/-- Explores a net and takes the time of it. -/
def timed (settings : ExploreSettings) (limits : Limits) (read : Reading) (p : Path) :
    IO Batch.Result := do
  match Batch.loadModel read p with
  | .error failure => return (p, .error failure)
  | .ok model =>
    let started ← IO.monoNanosNow
    let findings ← IO.lazyPure fun _ => Batch.explore settings limits p model
    let ended ← IO.monoNanosNow
    return Batch.result p findings (.ofNanoseconds (ended - started))

def plan (options : Options) : IO Plan := do
  let read ← readAll (options.config :: options.command.nets)
  match options.command, Config.load read options.config with
  | .explore nets limits output, .ok config =>
    return Batch.plan output (← nets.mapM (timed config.explore limits read))
  | _, _ => return options.plan read (← freshRandom) fun _ => {}

end TokenGame.CommandLine

open TokenGame in
def main (args : List String) : IO UInt32 := do
  match Options.ofArguments args with
  | .error e =>
    IO.eprintln e.message
    if e = .displayHelp then IO.eprintln CommandLine.usage
    return 2
  | .ok options =>
    match ← (CommandLine.carryOut (← CommandLine.plan options)).run with
    | .ok () => return 0
    | .error failure =>
      IO.eprintln failure.report
      return 1
