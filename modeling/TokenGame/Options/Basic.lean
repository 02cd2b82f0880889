import TokenGame.Path
import TokenGame.TokenMap

/-! What the command line asks for. -/
namespace TokenGame

/-- The limits of an exploration, as far as they are given. -/
structure Limits where
  k : Option Count := none
  maxDepth : Option Nat := none
  maxStates : Option Nat := none
  deriving DecidableEq, Repr

inductive Command where
  | enabled (net : Path) (marking : Option TokenMap)
  | fire (net : Path) (transition : String) (marking : Option TokenMap) (output : Option Path)
  | explore (nets : List Path) (limits : Limits) (output : Option Path)
  | simulate (net : Path) (steps : Option Nat) (seed : Option UInt64)
  | graph (net : Path) (marking : Option TokenMap) (limits : Limits) (output : Option Path)
  deriving DecidableEq

structure Options where
  config : Path
  command : Command
  deriving DecidableEq

/-- Why arguments are not carried out. Asking for help or for the version is among
the reasons. -/
inductive OptionError where
  | displayHelp
  | displayVersion
  | missingSubcommand
  | invalidSubcommand
  | unknownArgument
  | tooManyValues
  | invalidValue
  | valueValidation
  | argumentConflict
  | missingRequiredArgument
  /-- The marking is not the text of one. -/
  | marking
  deriving DecidableEq, Repr

def OptionError.message : OptionError → String
  | .displayHelp => "help was asked for"
  | .displayVersion => "pn v0.1.0"
  | .missingSubcommand => "error: a command is needed"
  | .invalidSubcommand => "error: there is no such command"
  | .unknownArgument => "error: an argument was not expected"
  | .tooManyValues => "error: an option takes no value"
  | .invalidValue => "error: an option or argument has no value"
  | .valueValidation => "error: a value is not a number in range"
  | .argumentConflict => "error: an option is given more than once"
  | .missingRequiredArgument => "error: an argument is missing"
  | .marking => "error: the marking is not a JSON object of token counts"

end TokenGame
