import TokenGame.Config
import TokenGame.Document
import TokenGame.Json.Basic
import TokenGame.Toml.Document
import TokenGame.Toml.Parser

/-! How configurations are read. -/
namespace TokenGame

variable {δ : Type} [Document δ]

def ExploreSettings.decode (d : δ) : Decoded ExploreSettings := do
  let f ← Document.record "ExploreSettings" [["max_depth"], ["max_states"], ["max_states_cap"]] d
  f.complete <| ExploreSettings.mk
    <$> f.defaulted 0 Document.word 1000
    <*> f.defaulted 1 Document.word 10000
    <*> f.defaulted 2 Document.word 1000000

def ServerSettings.decode (d : δ) : Decoded ServerSettings := do
  let f ← Document.record "ServerSettings" [["bind"]] d
  let preset : ServerSettings := {}
  f.complete <| ServerSettings.mk <$> f.defaulted 0 Document.text preset.bind

def SimulationSettings.decode (d : δ) : Decoded SimulationSettings := do
  let f ← Document.record "SimulationSettings" [["run_steps"], ["seed"]] d
  f.complete <| SimulationSettings.mk
    <$> f.defaulted 0 Document.word 100
    <*> f.defaulted 1 (Document.optional Document.count) none

def Config.decode (d : δ) : Decoded Config := do
  let f ← Document.record "Config" [["explore"], ["server"], ["simulation"]] d
  f.complete <| Config.mk
    <$> f.defaulted 0 ExploreSettings.decode {}
    <*> f.defaulted 1 ServerSettings.decode {}
    <*> f.defaulted 2 SimulationSettings.decode {}

/-- Why a text is no configuration. -/
inductive ConfigError where
  | text
  | issue (cause : ConfigIssue)
  deriving DecidableEq, Repr

def ConfigError.message : ConfigError → String
  | .text => "the text is not TOML with these settings"
  | .issue cause => cause.message

/-- The configuration that a text holds. -/
def Config.ofText (text : String) : Except ConfigError Config := do
  let some document := Toml.parse? text | throw .text
  match Config.decode document with
  | .error _ => throw .text
  | .ok config =>
    match config.validate with
    | .error issue => throw (.issue issue)
    | .ok () => return config

end TokenGame
