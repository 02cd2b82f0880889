import TokenGame.Net.Basic

/-! Structural findings that hint at a modelling mistake: nodes without arcs, and
transitions that nothing can ever disable. -/
namespace TokenGame

structure Diagnosis where
  /-- Places that no arc touches. -/
  isolatedPlaces : List String := []
  /-- Transitions that no arc touches. -/
  isolatedTransitions : List String := []
  /-- Transitions with outputs and no inputs. -/
  sourceTransitions : List String := []
  deriving DecidableEq, Repr

namespace Diagnosis

def hasIssues (d : Diagnosis) : Bool :=
  !d.isolatedPlaces.isEmpty || !d.isolatedTransitions.isEmpty || !d.sourceTransitions.isEmpty

def log (d : Diagnosis) : Log :=
  if d.hasIssues then
    d.isolatedPlaces.map (fun id => ⟨.warn, s!"place '{id}' has no arcs"⟩) ++
    d.isolatedTransitions.map
      (fun id => ⟨.warn, s!"transition '{id}' has no arcs and is always enabled"⟩) ++
    d.sourceTransitions.map
      (fun id => ⟨.warn, s!"transition '{id}' has no input arcs; it is enabled in every marking"⟩)
  else [⟨.info, "net structure check passed"⟩]

end Diagnosis

namespace Net

/-- Whether some transition is linked to a place. -/
def isConnected (net : Net) (place : Nat) : Bool :=
  net.flows.any fun f => f.adjacent.contains place

/-- The ids of the transitions whose flow satisfies a test, in declaration order. -/
def transitionsWith (net : Net) (test : Flow → Bool) : List String :=
  ((List.range net.transitions.length).filter fun t => test (net.flow t)).map net.transitionName

def diagnose (net : Net) : Diagnosis where
  isolatedPlaces :=
    ((List.range net.places.length).filter fun p => !net.isConnected p).map net.placeName
  isolatedTransitions := net.transitionsWith fun f => f.inputs.isEmpty && f.outputs.isEmpty
  sourceTransitions := net.transitionsWith fun f => f.inputs.isEmpty && !f.outputs.isEmpty

end Net

end TokenGame
