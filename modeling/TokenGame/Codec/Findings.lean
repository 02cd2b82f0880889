import TokenGame.Analysis.Exploration
import TokenGame.Codec.Model

/-! How the settings and the findings of a search are read and written. -/
namespace TokenGame

variable {δ : Type} [Document δ]

def SearchConfig.decode (d : δ) : Decoded SearchConfig := do
  let f ← Document.record "ExploreConfig" [["k"], ["maxDepth"], ["maxStates"]] d
  f.complete <| SearchConfig.mk
    <$> f.defaulted 0 (Document.optional Document.count) none
    <*> f.required 1 Document.word
    <*> f.required 2 Document.word

def Verdict.decode (d : δ) : Decoded Verdict := do
  match Verdict.ofName? (← Document.variant d) with
  | some v => return v
  | none => throw .mismatch

def Witness.decode (d : δ) : Decoded Witness := do
  let f ← Document.record "Witness" [["marking"], ["depth"], ["trace"]] d
  f.complete <| Witness.mk
    <$> f.required 0 TokenMap.decode
    <*> f.required 1 Document.word
    <*> f.required 2 (Document.listOf Document.text)

def PlaceVerdict.decode (d : δ) : Decoded PlaceVerdict := do
  let f ← Document.record "PlaceVerdict" [["place"], ["maxTokens"], ["kBounded"], ["safe"]] d
  f.complete <| PlaceVerdict.mk
    <$> f.required 0 Document.text
    <*> f.required 1 Document.count
    <*> f.named 2 (Document.optional Verdict.decode)
    <*> f.required 3 Verdict.decode

def Findings.fieldNames : List (List String) :=
  [["deadlocked"], ["isKBounded"], ["isSafe"], ["bound"], ["perPlaceMax"], ["placeVerdicts"],
    ["minimalKObserved"], ["exploredStates"], ["depthReached"], ["hitLimits"], ["k"],
    ["deadlockWitness"], ["kWitness"], ["unsafeWitness"]]

def Findings.decode (d : δ) : Decoded Findings := do
  let f ← Document.record "ExploreReport" fieldNames d
  f.complete <| Findings.mk
    <$> f.required 0 Document.bool
    <*> f.named 1 (Document.optional Verdict.decode)
    <*> f.required 2 Verdict.decode
    <*> f.named 3 (Document.optional Document.count)
    <*> f.required 4 TokenMap.decode
    <*> f.required 5 (Document.listOf PlaceVerdict.decode)
    <*> f.required 6 Document.count
    <*> f.required 7 Document.word
    <*> f.required 8 Document.word
    <*> f.required 9 Document.bool
    <*> f.named 10 (Document.optional Document.count)
    <*> f.named 11 (Document.optional Witness.decode)
    <*> f.named 12 (Document.optional Witness.decode)
    <*> f.named 13 (Document.optional Witness.decode)

/-! ### JSON -/

def SearchConfig.toJson (c : SearchConfig) : Json :=
  .record [("k", .option Count.toJson c.k), ("maxDepth", .natural c.maxDepth),
    ("maxStates", .natural c.maxStates)]

def Verdict.toJson (v : Verdict) : Json := .string v.name

def Witness.toJson (w : Witness) : Json :=
  .record [("marking", w.marking.toJson), ("depth", .natural w.depth), ("trace", .strings w.trace)]

/-- `kBounded` is left out where no bound was asked for. -/
def PlaceVerdict.toJson (v : PlaceVerdict) : Json :=
  let kBounded := match v.kBounded with
    | some verdict => [("kBounded", verdict.toJson)]
    | none => []
  .record ([("place", .string v.place), ("maxTokens", Count.toJson v.maxTokens)] ++ kBounded ++
    [("safe", v.safe.toJson)])

def Findings.toJson (f : Findings) : Json :=
  .record [
    ("deadlocked", .bool f.deadlocked),
    ("isKBounded", .option Verdict.toJson f.isKBounded),
    ("isSafe", f.isSafe.toJson),
    ("bound", .option Count.toJson f.bound),
    ("perPlaceMax", f.perPlaceMax.toJson),
    ("placeVerdicts", .list (f.placeVerdicts.map PlaceVerdict.toJson)),
    ("minimalKObserved", Count.toJson f.minimalKObserved),
    ("exploredStates", .natural f.exploredStates),
    ("depthReached", .natural f.depthReached),
    ("hitLimits", .bool f.hitLimits),
    ("k", .option Count.toJson f.k),
    ("deadlockWitness", .option Witness.toJson f.deadlockWitness),
    ("kWitness", .option Witness.toJson f.kWitness),
    ("unsafeWitness", .option Witness.toJson f.unsafeWitness)]

end TokenGame
