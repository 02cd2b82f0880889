/-! Log records are values: an operation's records are computed beside its result,
in the order in which the operation makes them, and never change the result. -/
namespace TokenGame

inductive Level where
  | trace
  | debug
  | info
  | warn
  | error
  deriving DecidableEq, Repr

def Level.name : Level → String
  | .trace => "TRACE"
  | .debug => "DEBUG"
  | .info => "INFO"
  | .warn => "WARN"
  | .error => "ERROR"

structure Record where
  level : Level
  text : String
  deriving DecidableEq, Repr

def Record.render (r : Record) : String := r.level.name ++ " " ++ r.text

abbrev Log := List Record

end TokenGame
