import TokenGame.Codec.Text
import TokenGame.Options.Scan

/-! The commands and their arguments. -/
namespace TokenGame.Options

def configOption : OptionSpec := ⟨"config", some 'c', .path⟩
def markingOption : OptionSpec := ⟨"marking", some 'm', .text⟩
def outputOption : OptionSpec := ⟨"output", some 'o', .path⟩
def stepsOption : OptionSpec := ⟨"steps", some 'n', .word⟩
def seedOption : OptionSpec := ⟨"seed", none, .word⟩

def limitOptions : List OptionSpec :=
  [⟨"k", some 'k', .word⟩, ⟨"max-depth", none, .word⟩, ⟨"max-states", none, .word⟩]

/-- The configuration is looked for here unless another file is named. -/
def defaultConfig : Path := ⟨"pn.toml"⟩

namespace Scan

def path? (s : Scan) (name : String) : Option Path := (s.value? name).map Path.mk

def number? (s : Scan) (name : String) : Option Nat := (s.value? name).bind ValueKind.word?

def limits (s : Scan) : Limits where
  k := (s.number? "k").map Nat.toUInt64
  maxDepth := s.number? "max-depth"
  maxStates := s.number? "max-states"

def marking? (s : Scan) : Except OptionError (Option TokenMap) :=
  match s.value? "marking" with
  | none => .ok none
  | some text =>
    match TokenMap.reader.ofJson text with
    | .ok map => .ok (some map)
    | .error _ => .error .marking

def wordAt (s : Scan) (index : Nat) : String := s.words.getD index ""

def pathAt (s : Scan) (index : Nat) : Path := ⟨s.wordAt index⟩

end Scan

/-- A command: its name, its arguments, and what they make of it. -/
structure Form where
  name : String
  spec : Spec
  command : Scan → Except OptionError Command

def enabledForm : Form where
  name := "enabled"
  spec := { options := [markingOption], words := [.path] }
  command s := do return .enabled (s.pathAt 0) (← s.marking?)

def fireForm : Form where
  name := "fire"
  spec := { options := [markingOption, outputOption], words := [.path, .text] }
  command s := do return .fire (s.pathAt 0) (s.wordAt 1) (← s.marking?) (s.path? "output")

def exploreForm : Form where
  name := "explore"
  spec := { options := outputOption :: limitOptions, words := [.path], repeated := true }
  command s := .ok (.explore (s.words.map Path.mk) s.limits (s.path? "output"))

def simulateForm : Form where
  name := "simulate"
  spec := { options := [stepsOption, seedOption], words := [.path] }
  command s :=
    .ok (.simulate (s.pathAt 0) (s.number? "steps") ((s.number? "seed").map Nat.toUInt64))

def graphForm : Form where
  name := "graph"
  spec := { options := [markingOption, outputOption] ++ limitOptions, words := [.path] }
  command s := do return .graph (s.pathAt 0) (← s.marking?) s.limits (s.path? "output")

def forms : List Form := [enabledForm, fireForm, exploreForm, simulateForm, graphForm]

def form? (name : String) : Option Form := forms.find? (·.name == name)

/-- The arguments before the command's name. -/
def topSpec : Spec where
  options := [configOption]
  subcommands := "help" :: forms.map (·.name)
  versioned := true

/-- Help is given on the program, or on one of its commands. -/
def help : List String → OptionError
  | [] => .displayHelp
  | [name] => if topSpec.subcommands.contains name then .displayHelp else .invalidSubcommand
  | _ => .invalidSubcommand

def ofArguments (args : List String) : Except OptionError Options := do
  match ← Scan.run topSpec {} args with
  | (s, none) =>
    let _ ← s.settle
    throw .missingSubcommand
  | (s, some (name, rest)) =>
    match form? name with
    | none => throw (help rest)
    | some form =>
      let inner ← Scan.ofArguments form.spec rest
      let s ← s.settle
      return { config := (s.path? "config").getD defaultConfig, command := ← form.command inner }

end TokenGame.Options
