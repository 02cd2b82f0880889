import TokenGame.Analysis.Exploration

/-! Reports of explorations, as texts for people. -/
namespace TokenGame

/-- A span of time. -/
structure Duration where
  seconds : Nat := 0
  /-- Below a thousand million. -/
  nanoseconds : Nat := 0
  deriving DecidableEq, Repr

namespace Duration

def ofNanoseconds (n : Nat) : Duration := ⟨n / 1000000000, n % 1000000000⟩

/-- The digits of a fraction with so many places, without zeros at the end. -/
def fractionDigits (places fraction : Nat) : List Char :=
  let digits := Nat.toDigits 10 fraction
  let padded := List.replicate (places - digits.length) '0' ++ digits
  (padded.reverse.dropWhile (· = '0')).reverse

/-- A number of units and a fraction of a unit in decimal places. -/
def decimal (whole fraction places : Nat) (unit : String) : String :=
  match fractionDigits places fraction with
  | [] => s!"{whole}{unit}"
  | digits => s!"{whole}.{String.ofList digits}{unit}"

/-- The exact time in the largest unit that it fills. -/
def describe (d : Duration) : String :=
  if 0 < d.seconds then decimal d.seconds d.nanoseconds 9 "s"
  else if 1000000 ≤ d.nanoseconds then
    decimal (d.nanoseconds / 1000000) (d.nanoseconds % 1000000) 6 "ms"
  else if 1000 ≤ d.nanoseconds then
    decimal (d.nanoseconds / 1000) (d.nanoseconds % 1000) 3 "µs"
  else decimal d.nanoseconds 0 0 "ns"

end Duration

/-- What an exploration of a net found, and how long it took. -/
structure Report where
  netName : String
  time : Duration
  result : Findings
  deriving DecidableEq

namespace Report

/-- A witness, as lines under its title. -/
def witnessLines (title : String) (w : Witness) : List String :=
  let trace := if w.trace.isEmpty then "<initial marking>" else String.intercalate " -> " w.trace
  ["", s!"{title} (depth {w.depth}):", s!"  trace: {trace}"] ++
    w.marking.entries.map fun e => s!"  {e.1}: {e.2.toNat}"

def optionalWitness (title : String) : Option Witness → List String
  | some w => witnessLines title w
  | none => []

/-- The places that exceed the bound that was asked about. -/
def exceeding (f : Findings) : List String :=
  (f.placeVerdicts.filter fun v => v.kBounded = some .no).map fun v =>
    s!"{v.place} ({v.maxTokens.toNat})"

def boundLines (f : Findings) : List String :=
  match f.k, f.isKBounded with
  | some k, some verdict => [s!"{k.toNat}-bounded: {verdict.name}"]
  | _, _ => []

def largestLine (f : Findings) : String :=
  match f.bound with
  | some bound => s!"Bound: {bound.toNat}"
  | none => s!"Largest count observed: {f.minimalKObserved.toNat}"

def exceedingLines (f : Findings) : List String :=
  match exceeding f with
  | [] => []
  | places => ["Places over k: " ++ String.intercalate ", " places]

def lines (r : Report) : List String :=
  let f := r.result
  let limits := if f.hitLimits then ", limits reached" else ""
  ["Reachability report",
    s!"Net: {r.netName}",
    s!"Analysis time: {r.time.describe}",
    s!"Explored states: {f.exploredStates} (depth {f.depthReached}{limits})",
    s!"Deadlock reachable: {f.deadlocked}",
    s!"Safe: {f.isSafe.name}"] ++
    boundLines f ++ [largestLine f] ++ exceedingLines f ++
    optionalWitness "Deadlock witness" f.deadlockWitness ++
    optionalWitness "k-bound witness" f.kWitness ++
    optionalWitness "Safety witness" f.unsafeWitness

/-- The report's lines, each ended by a line break. -/
def text (r : Report) : String := String.join (r.lines.map (· ++ "\n"))

/-- What a file that keeps the report holds; an empty line ends it. -/
def fileText (r : Report) : String := r.text ++ "\n"

end Report

end TokenGame
