import TokenGame.Analysis.StateGraph
import TokenGame.Proofs.Search.BreadthFirst

/-! The graph that a search draws. It is the graph that firing induces on the visited
markings, also where the search was cut short: a successor that the limits dropped is
never found later, so no firing between two visited markings is left out. -/
namespace TokenGame

namespace Event

/-- The states that an event refers to. The event of a new state refers to none: it
is what the others refer to. -/
def mentions : Event → List Nat
  | .state .. => []
  | .edge source _ target => [source, target]
  | .deadlock index => [index]
  | .overflow source .. => [source]
  | .cut source _ => [source]

/-- The state with an index has been reported before position `n`. -/
def ReportedBefore (events : Array Event) (n index : Nat) : Prop :=
  ∃ j marking depth, j < n ∧ events[j]? = some (.state index marking depth)

/-- No event refers to a state that has not been reported before it. -/
def Ordered (events : Array Event) : Prop :=
  ∀ n e, events[n]? = some e → ∀ i ∈ e.mentions, ReportedBefore events n i

theorem ReportedBefore.push {events : Array Event} {n index : Nat} (e : Event)
    (reported : ReportedBefore events n index) : ReportedBefore (events.push e) n index := by
  obtain ⟨j, marking, depth, before, found⟩ := reported
  refine ⟨j, marking, depth, before, ?_⟩
  have bound := (Array.getElem?_eq_some_iff.mp found).1
  rw [Array.getElem?_push_lt bound, ← found, Array.getElem?_eq_getElem bound]

theorem Ordered.push {events : Array Event} (ordered : Ordered events) {e : Event}
    (reported : ∀ i ∈ e.mentions, ReportedBefore events events.size i) :
    Ordered (events.push e) := by
  intro n d found i mentioned
  rw [Array.getElem?_push] at found
  split at found
  · rename_i last
    cases found
    exact last ▸ (reported i mentioned).push _
  · exact (ordered n d found i mentioned).push e

end Event

/-- The graph of all firings between some states. -/
structure StateGraph.Induced (net : Net) (states : Array State) (g : StateGraph) : Prop where
  nodes : ∀ i, g.nodes[i]? =
    (states[i]?).map fun a => StateNode.mk i a.depth a.marking (describe net a.marking)
  edges : ∀ e, e ∈ g.edges ↔ ∃ a b, states[e.source]? = some a ∧ states[e.target]? = some b ∧
    net.fireTransition a.marking e.transition = .ok b.marking ∧
    (net.transitions[e.transition]?).map (·.id) = some e.label
  ordered : g.edges.Pairwise fun e d =>
    e.source < d.source ∨ e.source = d.source ∧ e.transition < d.transition
  deadlocks : ∀ i, i ∈ g.deadlocks ↔
    ∃ a, states[i]? = some a ∧ ∀ t, net.isEnabled a.marking t = false
  increasing : g.deadlocks.Pairwise (· < ·)

namespace Search

variable {net : Net} {c : SearchConfig} {m : Marking} {s : Search}

/-! ### The order of the events -/

/-- Whatever a search can refer to has been reported. -/
structure Reported (s : Search) : Prop where
  known : ∀ (x : Marking) i, s.known[x]? = some i → i < s.states.size
  states : ∀ i, i < s.states.size → Event.ReportedBefore s.events s.events.size i
  ordered : Event.Ordered s.events

theorem Reported.note (reported : s.Reported) {e : Event}
    (inside : ∀ i ∈ e.mentions, i < s.states.size) : (s.note e).Reported where
  known := reported.known
  states := by
    intro i bound
    obtain ⟨j, marking, depth, before, found⟩ := (reported.states i bound).push e
    exact ⟨j, marking, depth, by simp [Search.note]; omega, found⟩
  ordered := reported.ordered.push fun i mentioned => reported.states i (inside i mentioned)

theorem Reported.discover (reported : s.Reported) (a : State) : (s.discover a).Reported where
  known := by
    intro x i found
    rw [getElem?_known_discover] at found
    rw [states_discover, Array.size_push]
    split at found
    · cases found
      exact Nat.lt_succ_self _
    · exact Nat.lt_succ_of_lt (reported.known x i found)
  states := by
    intro i bound
    rw [states_discover, Array.size_push] at bound
    rcases Nat.lt_succ_iff_lt_or_eq.mp bound with old | rfl
    · obtain ⟨j, marking, depth, before, found⟩ := (reported.states i old).push _
      exact ⟨j, marking, depth, by simp [Search.discover]; omega, found⟩
    · exact ⟨s.events.size, a.marking, a.depth, by simp [Search.discover], by simp [Search.discover]⟩
  ordered := reported.ordered.push (by simp [Event.mentions])

theorem Reported.start (m : Marking) : (Search.start m).Reported :=
  Reported.discover ⟨by simp, by simp, by simp [Event.Ordered]⟩ _

theorem Reported.step {index t : Nat} {origin : State} {s' : Search} (reported : s.Reported)
    (current : s.At index origin) (way : Step net c index origin t s s') : s'.Reported := by
  have inside := current.lt
  cases way with
  | overflow | cut => exact reported.note (by simpa [Event.mentions] using inside)
  | old _ seen =>
    have target := reported.known _ _ seen
    exact reported.note (by simp [Event.mentions, inside, target])
  | new =>
    refine (reported.discover _).note ?_
    simp [Event.mentions]
    omega

/-- A search reports each state before it refers to it. -/
theorem events_ordered (searched : net.search c m = .ok s) : Event.Ordered s.events := by
  obtain ⟨_, _, ran⟩ := Net.search_ok_iff.mp searched
  refine (run_preserves (fun current way reported => reported.step current way)
    (fun current reported => ?_) ran (Reported.start m)).ordered
  exact reported.note (by simpa [Event.mentions] using current.lt)

/-! ### The graph of the events -/

theorem nodes_ofSearch : (StateGraph.ofSearch net s).nodes =
    s.visits.map fun v => ⟨v.index, v.depth, v.marking, StateGraph.describe net v.marking⟩ := by
  rw [visits, List.map_filterMap, StateGraph.ofSearch]
  apply List.filterMap_congr
  intro e _
  cases e <;> rfl

theorem mem_edges_ofSearch {e : StateEdge} : e ∈ (StateGraph.ofSearch net s).edges ↔
    .edge e.source e.transition e.target ∈ s.events ∧
      net.transitionName e.transition = e.label := by
  simp only [StateGraph.ofSearch, List.mem_filterMap, Array.mem_toList_iff]
  constructor
  · rintro ⟨d, member, drawn⟩
    cases d with
    | edge => cases drawn; exact ⟨member, rfl⟩
    | state | deadlock | overflow | cut => cases drawn
  · rintro ⟨member, label⟩
    exact ⟨_, member, by simp [label]⟩

/-- Transitions are followed state by state, and in their order at each state. -/
theorem trail_increasing (net : Net) (s : Search) (index : Nat) :
    (s.trail net index).Pairwise fun x y => x.1 < y.1 ∨ x.1 = y.1 ∧ x.2 < y.2 := by
  have block : ∀ i : Nat, ∀ x ∈ ((s.states[i]?).map fun a : State =>
      (net.enabledTransitions a.marking).map (i, ·)).getD [], x.1 = i := by
    intro i x member
    cases found : s.states[i]? with
    | none => simp [found] at member
    | some a =>
      rw [found, Option.map_some, Option.getD_some, List.mem_map] at member
      obtain ⟨t, _, rfl⟩ := member
      rfl
  refine List.pairwise_flatMap.mpr ⟨fun i _ => ?_, ?_⟩
  · cases s.states[i]? with
    | none => exact .nil
    | some a =>
      have increasing : (net.enabledTransitions a.marking).Pairwise (· < ·) :=
        List.pairwise_lt_range.filter _
      exact increasing.map _ fun _ _ before => .inr ⟨rfl, before⟩
  · refine List.pairwise_lt_range.imp fun {i j} before x left y right => .inl ?_
    rwa [block i x left, block j y right]

namespace Finished

variable (finished : s.Finished net c m)
include finished

/-- The events of the edges are the firings between states. -/
theorem edge_mem_iff {i t j : Nat} : .edge i t j ∈ s.events ↔
    ∃ a b, s.At i a ∧ s.At j b ∧ net.fireTransition a.marking t = .ok b.marking := by
  constructor
  · intro member
    obtain ⟨a, b, source, target, fired, _⟩ := finished.holds _ member
    exact ⟨a, b, source, target, fired⟩
  · rintro ⟨a, b, source, target, fired⟩
    cases finished.outcome source.lt source (Net.fireTransition_ok fired).2 with
    | edge recorded target' same _ =>
      obtain rfl := finished.unique target' target (Except.ok.inj (same.symm.trans fired))
      exact recorded
    | overflow _ failed => cases failed.symm.trans fired
    | cut _ same absent _ =>
      -- what was cut is none of the states that the search ended with
      exact absurd (Except.ok.inj (fired.symm.trans same)) (absent j b target)

theorem mem_deadlocks_iff {i : Nat} : i ∈ s.deadlocks ↔
    ∃ a, s.At i a ∧ ∀ t, net.isEnabled a.marking t = false := by
  have none : ∀ x : Marking, net.enabledTransitions x = [] ↔ ∀ t, net.isEnabled x t = false := by
    intro x
    simp [List.eq_nil_iff_forall_not_mem]
  simp only [← none, ← deadAt_iff, finished.ended, ends, List.mem_filter, List.mem_range,
    and_iff_right_iff_imp]
  intro dead
  obtain ⟨a, found, _⟩ := deadAt_iff.mp dead
  exact found.lt

theorem graph_induced : (StateGraph.ofSearch net s).Induced net s.states := by
  have deadlocks : (StateGraph.ofSearch net s).deadlocks = s.deadlocks := rfl
  constructor
  case nodes =>
    intro i
    rw [nodes_ofSearch, List.getElem?_map, finished.getElem?_visits, Option.map_map]
    rfl
  case edges =>
    intro e
    rw [mem_edges_ofSearch, finished.edge_mem_iff]
    constructor
    · rintro ⟨⟨a, b, source, target, fired⟩, label⟩
      have bound := Net.isEnabled_lt (Net.fireTransition_ok fired).2
      exact ⟨a, b, source, target, fired, by simpa [Net.transitionName, bound] using label⟩
    · rintro ⟨a, b, source, target, fired, label⟩
      have bound := Net.isEnabled_lt (Net.fireTransition_ok fired).2
      exact ⟨⟨a, b, source, target, fired⟩, by simpa [Net.transitionName, bound] using label⟩
  case ordered =>
    have increasing := trail_increasing net s s.states.size
    have followed : s.steps = s.trail net s.states.size := by simpa using finished.trailed
    rw [← followed, steps, List.pairwise_filterMap] at increasing
    rw [StateGraph.ofSearch, List.pairwise_filterMap]
    refine increasing.imp fun {x y} before e left d right => ?_
    cases x <;> cases left
    cases y <;> cases right
    exact before _ rfl _ rfl
  case deadlocks =>
    intro i
    rw [deadlocks, finished.mem_deadlocks_iff]
  case increasing =>
    rw [deadlocks, finished.ended]
    exact List.pairwise_lt_range.filter _

end Finished

end Search

namespace Net

open Search

/-- The state graph has a node for each visited marking and an edge for each firing
between two of them, under any limits. Deadlocks are the markings that enable nothing,
not those whose transitions all overflow, and states are reported before they are
referred to. -/
theorem explore_draws_firings {model : Model} {net : Net} (compiled : ofModel model = .ok net)
    {c : SearchConfig} (config : c.validate = .ok ()) {m : Marking}
    (size : m.size = net.places.length) :
    ∃ s f, net.search c m = .ok s ∧ net.explore c m = .ok f ∧
      (StateGraph.ofSearch net s).nodes.length = f.exploredStates ∧
      (StateGraph.ofSearch net s).Induced net s.states ∧
      (∀ i a, s.At i a → net.enabledTransitions a.marking ≠ [] →
        (∀ t ∈ net.enabledTransitions a.marking, ∃ place,
          net.fireTransition a.marking t = .error (.tokenOverflow place)) →
        i ∉ (StateGraph.ofSearch net s).deadlocks) ∧
      Event.Ordered s.events := by
  have wellFormed := wellFormed_of_ofModel compiled
  obtain ⟨s, searched, finished, explored⟩ := search_finishes wellFormed config size
  have induced := finished.graph_induced
  refine ⟨s, _, searched, explored, ?_, induced, ?_, events_ordered searched⟩
  · rw [nodes_ofSearch, List.length_map, finished.length_visits]
    rfl
  · intro i a found alive _ dead
    obtain ⟨b, same, none⟩ := (induced.deadlocks i).mp dead
    obtain rfl := At.det found same
    obtain ⟨t, enabled⟩ := List.exists_mem_of_ne_nil _ alive
    rw [mem_enabledTransitions, none t] at enabled
    cases enabled

theorem explore_draws_firings_transfer :
    ∃ s f, transfer.search { maxDepth := 1, maxStates := 2 } (.ofList [2, 0]) = .ok s ∧
      transfer.explore { maxDepth := 1, maxStates := 2 } (.ofList [2, 0]) = .ok f ∧
      (StateGraph.ofSearch transfer s).nodes.length = f.exploredStates ∧
      (StateGraph.ofSearch transfer s).Induced transfer s.states ∧ Event.Ordered s.events := by
  obtain ⟨s, f, searched, explored, count, induced, _, ordered⟩ :=
    explore_draws_firings (c := { maxDepth := 1, maxStates := 2 }) ofModel_transfer rfl
      (m := .ofList [2, 0]) rfl
  exact ⟨s, f, searched, explored, count, induced, ordered⟩

end Net

end TokenGame
