import TokenGame.Analysis.Verdict
import TokenGame.Net.Basic

/-! Bounds on the places of a net, from the most tokens seen on each place. -/
namespace TokenGame

/-- What is known about one place. `kBounded` is absent if no bound was asked for. -/
structure PlaceVerdict where
  place : String
  maxTokens : Count
  kBounded : Option Verdict
  safe : Verdict
  deriving DecidableEq, Repr, Inhabited

structure Boundedness where
  isKBounded : Option Verdict
  isSafe : Verdict
  /-- The least bound of the whole net, if every reachable marking was seen. -/
  bound : Option Count
  /-- The most tokens seen on any place. -/
  minimalK : Count
  places : List PlaceVerdict
  deriving DecidableEq, Repr

namespace Boundedness

/-- A place is safe if it never holds more than one token. -/
def safeThreshold : Count := 1

def ofPlace (k : Option Count) (exhaustive : Bool) (place : Place) (seen : Count) :
    PlaceVerdict where
  place := place.id
  maxTokens := seen
  kBounded := k.map fun k => .forBound seen k exhaustive
  safe := .forBound seen safeThreshold exhaustive

/-- `maxima` lists the most tokens seen by place index; a place it leaves out was
never seen with a token. -/
def summarize (net : Net) (maxima : List Count) (k : Option Count) (exhaustive : Bool) :
    Boundedness :=
  let places := net.places.mapIdx fun index p => ofPlace k exhaustive p (maxima.getD index 0)
  let minimalK := Count.maximum (places.map (·.maxTokens))
  { isKBounded := k.map fun _ => .aggregate (places.filterMap (·.kBounded)) exhaustive
    isSafe := .aggregate (places.map (·.safe)) exhaustive
    bound := if exhaustive then some minimalK else none
    minimalK
    places }

end Boundedness

end TokenGame
