import TokenGame.Count
import TokenGame.Options.Basic

/-! Command-line arguments, told apart. An option has a long name and may have a
short one; its value is attached to it or is the next argument. Values are checked
when the next argument after them is understood, so a mistake in a value is only
seen if what follows it is known. -/
namespace TokenGame.Options

/-- What values an argument takes. -/
inductive ValueKind where
  | path
  | word
  | text
  deriving DecidableEq, Repr

structure OptionSpec where
  name : String
  short : Option Char
  kind : ValueKind
  deriving DecidableEq, Repr

/-- The arguments of a command. All its words are needed. -/
structure Spec where
  options : List OptionSpec
  /-- The words that stand by themselves, in order. -/
  words : List ValueKind := []
  /-- The last word may be repeated. -/
  repeated : Bool := false
  /-- Names that begin the arguments of another command. -/
  subcommands : List String := []
  /-- The version can be asked for. -/
  versioned : Bool := false
  deriving DecidableEq, Repr

namespace ValueKind

/-- A number in decimal digits, perhaps after a plus sign, that fits a word. -/
def word? (text : String) : Option Nat :=
  let digits := match text.toList with
    | '+' :: rest => rest
    | chars => chars
  if digits.isEmpty || !digits.all Char.isDigit then none
  else
    let n := Nat.ofDigitChars 10 digits 0
    if n < Count.limit then some n else none

def check (value : String) : ValueKind → Except OptionError Unit
  | .path => if value.isEmpty then .error .invalidValue else .ok ()
  | .word => if (word? value).isSome then .ok () else .error .valueValidation
  | .text => .ok ()

end ValueKind

/-- What was read last and is not checked yet. -/
inductive Pending where
  | none
  /-- An option, with its value unless that is still to come. -/
  | option (spec : OptionSpec) (value : Option String)
  | words (kind : ValueKind) (values : List String)
  deriving DecidableEq, Repr

structure Scan where
  /-- The options that were given, with their values. -/
  given : List (String × String) := []
  words : List String := []
  pending : Pending := .none
  /-- All further arguments are words. -/
  trailing : Bool := false
  deriving DecidableEq, Repr

/-- What an argument looks like. -/
inductive Shape where
  | escape
  | long (name : String) (value : Option String)
  | short (flags : List Char)
  | word
  deriving DecidableEq, Repr

def Shape.ofText (arg : String) : Shape :=
  match arg.toList with
  | ['-', '-'] => .escape
  | '-' :: '-' :: rest =>
    match rest.span (· != '=') with
    | (name, _ :: value) => .long (String.ofList name) (some (String.ofList value))
    | (name, []) => .long (String.ofList name) none
  | '-' :: flag :: rest => .short (flag :: rest)
  | _ => .word

namespace Scan

def value? (s : Scan) (name : String) : Option String :=
  (s.given.find? (·.1 == name)).map (·.2)

/-- Takes over the value of an option. An option is given once. -/
def give (s : Scan) (spec : OptionSpec) (value : String) : Except OptionError Scan := do
  if (s.value? spec.name).isSome then throw .argumentConflict
  spec.kind.check value
  return { s with given := s.given ++ [(spec.name, value)] }

/-- Checks what was read last. -/
def settle (s : Scan) : Except OptionError Scan :=
  let settled := { s with pending := .none }
  match s.pending with
  | .none => .ok s
  | .option _ none => .error .invalidValue
  | .option spec (some value) => settled.give spec value
  | .words kind values => do
    values.forM (kind.check ·)
    return { settled with words := s.words ++ values }

/-- How many words were read. -/
def count (s : Scan) : Nat :=
  match s.pending with
  | .words _ values => s.words.length + values.length
  | _ => s.words.length

/-- Reads an option, with its value if that is attached to it. -/
def option (s : Scan) (spec : OptionSpec) (value : Option String) : Except OptionError Scan := do
  let s ← s.settle
  match value with
  | some value => s.give spec value
  | none => return { s with pending := .option spec none }

/-- A request ends the scan, unless what was read before it is wrong. -/
def request (s : Scan) (e : OptionError) : Except OptionError Scan := do
  let _ ← s.settle
  throw e

def long (spec : Spec) (s : Scan) (name : String) (value : Option String) :
    Except OptionError Scan :=
  let flag (e : OptionError) := if value.isSome then .error .tooManyValues else s.request e
  if name == "help" then flag .displayHelp
  else if spec.versioned && name == "version" then flag .displayVersion
  else
    match spec.options.find? (·.name == name) with
    | some option => s.option option value
    | none => .error .unknownArgument

/-- The value that is attached to a short name, if there is one. -/
def attached : List Char → Option String
  | [] => none
  | '=' :: rest => some (String.ofList rest)
  | rest => some (String.ofList rest)

def short (spec : Spec) (s : Scan) : List Char → Except OptionError Scan
  | [] => .ok s
  | flag :: rest =>
    if flag = 'h' then s.request .displayHelp
    else if spec.versioned && flag = 'V' then s.request .displayVersion
    else
      match spec.options.find? (·.short == some flag) with
      | some option => s.option option (attached rest)
      | none => .error .unknownArgument

/-- The kind of the next word. -/
def nextWord? (spec : Spec) (s : Scan) : Option ValueKind :=
  match spec.words[s.count]? with
  | some kind => some kind
  | none => if spec.repeated then spec.words.getLast? else none

/-- Why a word has no place. Where commands are named, it is a wrong name. -/
def misplaced (spec : Spec) (s : Scan) (arg : String) : OptionError :=
  if spec.subcommands.isEmpty then .unknownArgument
  else if s.trailing && spec.subcommands.contains arg then .unknownArgument
  else .invalidSubcommand

def word (spec : Spec) (s : Scan) (arg : String) : Except OptionError Scan :=
  match nextWord? spec s with
  | none => .error (misplaced spec s arg)
  | some kind =>
    match s.pending with
    | .words _ values =>
      if spec.repeated then .ok { s with pending := .words kind (values ++ [arg]) }
      else do return { ← s.settle with pending := .words kind [arg] }
    | _ => do return { ← s.settle with pending := .words kind [arg] }

/-- Whether the next argument is an option's value. -/
def expecting (s : Scan) : Bool :=
  match s.pending with
  | .option _ none => true
  | _ => false

/-- A word is the value of the option before it, if that still waits for one. -/
def wordOrValue (spec : Spec) (s : Scan) (arg : String) : Except OptionError Scan :=
  match s.pending with
  | .option option none => .ok { s with pending := .option option (some arg) }
  | _ => word spec s arg

/-- Reads arguments up to the name of another command; what follows that name is
left for it. -/
def run (spec : Spec) (s : Scan) :
    List String → Except OptionError (Scan × Option (String × List String))
  | [] => .ok (s, none)
  | arg :: rest =>
    if s.trailing then do run spec (← word spec s arg) rest
    else if !s.expecting && spec.subcommands.contains arg then .ok (s, some (arg, rest))
    else
      match Shape.ofText arg with
      | .escape => run spec { s with trailing := true } rest
      | .long name value => do run spec (← long spec s name value) rest
      | .short flags => do run spec (← short spec s flags) rest
      | .word => do run spec (← wordOrValue spec s arg) rest

/-- All arguments of a command without further commands. -/
def ofArguments (spec : Spec) (args : List String) : Except OptionError Scan := do
  let (s, _) ← run spec {} args
  let s ← s.settle
  if s.words.length < spec.words.length then throw .missingRequiredArgument
  return s

end Scan

end TokenGame.Options
