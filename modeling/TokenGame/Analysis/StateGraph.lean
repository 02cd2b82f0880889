import TokenGame.Analysis.Search

/-! The graph of the states that a search found, and its text in the DOT language. -/
namespace TokenGame

structure StateNode where
  index : Nat
  depth : Nat
  marking : Marking
  /-- The places that hold tokens, with their counts. -/
  label : String
  deriving DecidableEq, Repr

structure StateEdge where
  source : Nat
  transition : Nat
  target : Nat
  /-- The id of the transition. -/
  label : String
  deriving DecidableEq, Repr

structure StateGraph where
  nodes : List StateNode
  edges : List StateEdge
  /-- The nodes that enable nothing, in increasing order. -/
  deadlocks : List Nat
  deriving DecidableEq, Repr

namespace StateGraph

def describe (net : Net) (m : Marking) : String :=
  let entries := m.toList.mapIdx fun place n => (place, n)
  String.intercalate ", " <|
    (entries.filter fun e => 0 < e.2).map fun e => s!"{net.placeName e.1}:{e.2.toNat}"

/-- The events of a search, drawn in the order in which they happened. -/
def ofSearch (net : Net) (s : Search) : StateGraph where
  nodes := s.events.toList.filterMap fun
    | .state index marking depth => some ⟨index, depth, marking, describe net marking⟩
    | _ => none
  edges := s.events.toList.filterMap fun
    | .edge source transition target =>
      some ⟨source, transition, target, net.transitionName transition⟩
    | _ => none
  deadlocks := s.events.toList.filterMap fun
    | .deadlock state => some state
    | _ => none

/-- Writes some characters in place of each occurrence of one. -/
def replaceEach (target : Char) (replacement chars : List Char) : List Char :=
  chars.flatMap fun c => if c = target then replacement else [c]

/-- Text that is to stand inside quotes. The backslashes are doubled first, so that
those which are then put before double quotes stay single. -/
def escape (text : String) : String :=
  let doubled := replaceEach '\\' ['\\', '\\'] text.toList
  String.ofList (replaceEach '"' ['\\', '"'] doubled)

def nodeText (g : StateGraph) (n : StateNode) : String :=
  let fill := if g.deadlocks.contains n.index then ", style=filled, fillcolor=\"#ffcdd2\"" else ""
  s!"    {n.index} [ label=\"s{n.index}\\n{escape n.label}\"{fill}]\n"

def edgeText (e : StateEdge) : String :=
  s!"    {e.source} -> {e.target} [ label=\"{escape e.label}\"]\n"

def dot (g : StateGraph) : String :=
  "digraph \x7b\n" ++ String.join (g.nodes.map g.nodeText) ++
    String.join (g.edges.map edgeText) ++ "\x7d\n"

end StateGraph

end TokenGame
