import TokenGame.Proofs.Search.Limits
import TokenGame.Proofs.Simulation.Session

/-! Sessions against a search of the same net. A search without a loss has visited all
that a session can come to: whatever is enabled there fires, no operation overflows,
and if no visited marking is dead, a run never stops early. -/
namespace TokenGame

namespace Search

/-- A marking that the search has visited. -/
def Visited (s : Search) (x : Marking) : Prop := ∃ v ∈ s.visits, v.marking = x

variable {net : Net} {c : SearchConfig} {m x y : Marking} {s : Search}

namespace Finished

variable (finished : s.Finished net c m)
include finished

theorem visited_iff : s.Visited x ↔ ∃ i a, s.At i a ∧ a.marking = x :=
  finished.exists_visit_iff

theorem visited_start : s.Visited m := finished.visited_iff.mpr ⟨0, _, finished.start, rfl⟩

theorem tokens_le_maximumAt (visited : s.Visited x) (place : Nat) :
    x.tokens place ≤ s.maximumAt place := by
  obtain ⟨i, a, found, rfl⟩ := finished.visited_iff.mp visited
  exact UInt64.le_iff_toNat_le.mpr (maximumAt_le_iff.mp (Nat.le_refl _) i a found)

theorem alive (none : s.deadlock?.isSome = false) (visited : s.Visited x) :
    net.isDeadlocked x = false := by
  obtain ⟨i, a, found, rfl⟩ := finished.visited_iff.mp visited
  apply Bool.eq_false_iff.mpr
  intro dead
  rw [finished.deadlock?_isSome_iff.mpr ⟨i, a, found, List.isEmpty_iff.mp dead⟩] at none
  cases none

variable (lossless : s.hitLimits = false)
include lossless

theorem fireTransition_visited {t : Nat} (visited : s.Visited x)
    (enabled : net.isEnabled x t = true) :
    ∃ y, net.fireTransition x t = .ok y ∧ s.Visited y := by
  obtain ⟨i, a, found, rfl⟩ := finished.visited_iff.mp visited
  obtain ⟨j, b, there, fired⟩ := finished.successor_of_lossless lossless found enabled
  exact ⟨b.marking, fired, finished.visited_iff.mpr ⟨j, b, there, rfl⟩⟩

theorem fire_visited {id : String} (visited : s.Visited x) (fires : net.fire x id = .ok y) :
    s.Visited y := by
  obtain ⟨t, _, fired⟩ := Net.fire_ok_iff.mp fires
  obtain ⟨z, same, after⟩ :=
    finished.fireTransition_visited lossless visited (Net.fireTransition_ok fired).2
  exact Except.ok.inj (same.symm.trans fired) ▸ after

theorem fire_fits {id place : String} (visited : s.Visited x) :
    net.fire x id ≠ .error (.tokenOverflow place) := by
  intro failed
  unfold Net.fire at failed
  split at failed
  · cases failed
  · obtain ⟨_, fired, _⟩ := finished.fireTransition_visited lossless visited
      (Net.isEnabled_of_overflow failed)
    cases failed.symm.trans fired

theorem fire_enabledIds (wellFormed : net.WellFormed) {id : String} (visited : s.Visited x)
    (enabled : id ∈ net.enabledIds x) : ∃ y, net.fire x id = .ok y := by
  obtain ⟨t, member, rfl⟩ := List.mem_map.mp enabled
  have enabled := Net.mem_enabledTransitions.mp member
  obtain ⟨y, fired, _⟩ := finished.fireTransition_visited lossless visited enabled
  exact ⟨y, Net.fire_ok_iff.mpr
    ⟨t, wellFormed.transitionIndex?_transitionName (Net.isEnabled_lt enabled), fired⟩⟩

end Finished

end Search

namespace Net

/-- One token that goes around. -/
def cycle : Net where
  places := [{ id := "left", tokens := 1 }, { id := "right" }]
  transitions := [{ id := "go" }, { id := "back" }]
  flows := #[⟨[⟨0, 1⟩], [⟨1, 1⟩]⟩, ⟨[⟨1, 1⟩], [⟨0, 1⟩]⟩]

def cycleArcs : List Arc :=
  [⟨"a", "left", "go", 1⟩, ⟨"b", "go", "right", 1⟩, ⟨"c", "right", "back", 1⟩,
    ⟨"d", "back", "left", 1⟩]

theorem ofModel_cycle : ofModel ⟨cycle.places, cycle.transitions, cycleArcs⟩ = .ok cycle := rfl

/-- The cycle is explored without a loss although its second marking is as deep as
the limit allows. -/
theorem explore_cycle :
    ∃ f, cycle.explore { maxDepth := 1, maxStates := 2 } cycle.initialMarking = .ok f ∧
      f.hitLimits = false ∧ f.deadlocked = false := by
  have left : cycle.enabledTransitions cycle.initialMarking = [0] := rfl
  have right : cycle.enabledTransitions (.ofList [0, 1]) = [1] := rfl
  have go : cycle.fireTransition cycle.initialMarking 0 = .ok (.ofList [0, 1]) := rfl
  have back : cycle.fireTransition (.ofList [0, 1]) 1 = .ok cycle.initialMarking := rfl
  have apart : cycle.initialMarking ≠ .ofList [0, 1] := by decide
  obtain ⟨s, ran, lossless, alive⟩ : ∃ s,
      Search.run cycle { maxDepth := 1, maxStates := 2 } 2 0 (.start cycle.initialMarking) =
        .ok s ∧ s.hitLimits = false ∧ s.deadlock? = none := by
    simp [Search.run, Search.expand, Search.start, Search.discover, Search.follow, Search.note,
      left, right, go, back, apart, bind, Except.bind, pure, Except.pure, Search.hitLimits,
      Search.deadlock?, Event.isLoss, -Array.any_eq_false]
  refine ⟨_, explore_ok_iff.mpr ⟨s, search_ok_iff.mpr ⟨rfl, rfl, ran⟩, rfl⟩, lossless, ?_⟩
  simp [Search.findings, alive]

end Net

namespace Session

/-- What the findings of a search say about a session on the same net. -/
structure Foretold (net : Net) (search : Search) (f : Findings) (s : Session) : Prop where
  same : s.net = net
  visited : ∀ e ∈ s.history.entries, search.Visited e.marking
  bounded : ∀ e ∈ s.history.entries, ∀ i place, net.places[i]? = some place →
    ∃ most, f.perPlaceMax.get? place.id = some most ∧ e.marking.tokens i ≤ most
  fits : ∀ move place, (s.play move).1 ≠ .error (.fire (.tokenOverflow place))
  alive : f.deadlocked = false → s.isDeadlocked = false ∧
    ∀ steps, ∃ summary, (s.run steps).1 = .ok summary ∧ summary.fired.length = steps ∧
      summary.deadlocked = false

/-- A consistent session on a net. -/
structure On (net : Net) (s : Session) : Prop where
  consistent : s.Consistent
  same : s.net = net

variable {net : Net} {c : SearchConfig} {search : Search} {s s' : Session}

namespace On

theorem few (on : s.On net) : s.enabled.length ≤ UInt32.size := on.consistent.few

theorem drawn (random : Random) (on : s.On net) : { s with random }.On net :=
  ⟨⟨on.consistent.compiled, on.consistent.initial, on.consistent.replays⟩, on.same⟩

theorem fire (on : s.On net) {id : String} (fired : s.fire id = .ok s') : s'.On net := by
  refine ⟨on.consistent.fire fired, ?_⟩
  obtain ⟨_, _, _, _, rfl⟩ := fire_ok_iff.mp fired
  exact on.same

theorem goto (on : s.On net) {index : Nat} (moved : s.goto index = .ok s') : s'.On net := by
  refine ⟨on.consistent.goto moved, ?_⟩
  obtain ⟨_, _, rfl⟩ := goto_ok_iff.mp moved
  exact on.same

theorem reset (on : s.On net) : s.reset.On net := ⟨on.consistent.reset, on.same⟩

theorem playAll (on : s.On net) (moves : List Move) : (s.playAll moves).On net :=
  playAll_preserves few (fun on fired => on.fire fired) drawn (fun on moved => on.goto moved)
    reset on moves

section Lossless

variable (finished : search.Finished net c net.initialMarking)
  (lossless : search.hitLimits = false)
include finished lossless

theorem entry_visited (on : s.On net) {i : Nat} {e : Entry}
    (found : s.history.entries[i]? = some e) : search.Visited e.marking := by
  obtain ⟨consistent, rfl⟩ := on
  refine consistent.replays.invariant search.Visited ?_ ?_ found
  · rw [consistent.initial]
    exact finished.visited_start
  · exact fun _ _ _ visited fires => finished.fire_visited lossless visited fires

theorem marking_visited (on : s.On net) : search.Visited s.marking := by
  obtain ⟨c, e, _, found, _, same⟩ := on.consistent.current
  exact same ▸ on.entry_visited finished lossless found

theorem fire_enabled (on : s.On net) {id : String} (enabled : id ∈ s.enabled) :
    ∃ s', s.fire id = .ok s' := by
  have visited := on.marking_visited finished lossless
  obtain ⟨consistent, rfl⟩ := on
  obtain ⟨y, fires⟩ := finished.fire_enabledIds lossless
    (Net.wellFormed_of_ofModel consistent.compiled) visited enabled
  obtain ⟨s', fired, _⟩ := consistent.fire_ok fires
  exact ⟨s', fired⟩

theorem run_ends (on : s.On net) (steps : Nat) :
    ∃ summary, (s.run steps).1 = .ok summary ∧
      summary.deadlocked = (s.run steps).2.isDeadlocked ∧
      (summary.fired.length = steps ∨ summary.deadlocked = true) :=
  Session.run_ends few (fun on fired => on.fire fired) drawn
    (fun on enabled => on.fire_enabled finished lossless enabled) on steps

theorem play_fits (on : s.On net) (move : Move) (place : String) :
    (s.play move).1 ≠ .error (.fire (.tokenOverflow place)) := by
  cases move with
  | fire id =>
    have visited := on.marking_visited finished lossless
    obtain ⟨consistent, rfl⟩ := on
    cases fires : s.net.fire s.marking id with
    | error cause =>
      have apart : cause ≠ .tokenOverflow place := by
        rintro rfl
        exact finished.fire_fits lossless visited fires
      simpa [play, settle, Session.fire, fires] using apart
    | ok next =>
      obtain ⟨s', fired, _⟩ := consistent.fire_ok fires
      simp [play, settle, fired]
  | stepRandom =>
    obtain ⟨chosen, ok⟩ := stepRandom_ok few drawn
      (fun on enabled => on.fire_enabled finished lossless enabled) on
    simp [play, ok, Except.map]
  | run steps =>
    obtain ⟨summary, ok, _⟩ := on.run_ends finished lossless steps
    simp [play, ok, Except.map]
  | goto index => cases moved : s.history.goto index <;> simp [play, settle, Session.goto, moved]
  | reset => exact nofun

variable (none : search.deadlock?.isSome = false)
include none

theorem alive (on : s.On net) : s.isDeadlocked = false := by
  rw [isDeadlocked, on.same]
  exact finished.alive none (on.marking_visited finished lossless)

theorem run_alive (on : s.On net) (steps : Nat) :
    ∃ summary, (s.run steps).1 = .ok summary ∧ summary.fired.length = steps ∧
      summary.deadlocked = false := by
  obtain ⟨summary, ended, dead, length⟩ := on.run_ends finished lossless steps
  have last : (s.run steps).2.On net :=
    run_preserves few (fun on fired => on.fire fired) drawn on steps
  -- an early end would be at a dead marking
  rw [last.alive finished lossless none] at dead
  exact ⟨summary, ended, length.resolve_right (by simp [dead]), dead⟩

omit none in
theorem foretold (on : s.On net) (k : Option Count) :
    s.Foretold net search (search.findings net k) where
  same := on.same
  visited e member := by
    obtain ⟨i, found⟩ := Array.mem_iff_getElem?.mp member
    exact on.entry_visited finished lossless found
  bounded e member i place declared := by
    obtain ⟨j, found⟩ := Array.mem_iff_getElem?.mp member
    obtain ⟨bound, rfl⟩ := List.getElem?_eq_some_iff.mp declared
    have wellFormed := Net.wellFormed_of_ofModel (on.same ▸ on.consistent.compiled)
    exact ⟨_, wellFormed.get?_ofList_places search.maximumAt bound,
      finished.tokens_le_maximumAt (on.entry_visited finished lossless found) i⟩
  fits := on.play_fits finished lossless
  alive none := ⟨on.alive finished lossless none, on.run_alive finished lossless none⟩

end Lossless

end On

/-- If an exploration from the initial marking meets no limit, its findings hold of
a session after any moves, failed ones included, and a session can be fired to every
marking that was visited. -/
theorem foretold_by_exploration {model : Model} {net : Net}
    (compiled : Net.ofModel model = .ok net) {c : SearchConfig} {f : Findings}
    (explored : net.explore c net.initialMarking = .ok f) (complete : f.hitLimits = false)
    (random : Random) :
    ∃ search fresh, net.search c net.initialMarking = .ok search ∧
      Session.ofModel model random = .ok fresh ∧
      (∀ moves, (fresh.playAll moves).Foretold net search f) ∧
      ∀ x, search.Visited x →
        ∃ (ids : List String) (last : Session),
          ids.foldlM Session.fire fresh = .ok last ∧ last.marking = x := by
  have wellFormed := Net.wellFormed_of_ofModel compiled
  obtain ⟨search, searched, rfl⟩ := Net.explore_ok_iff.mp explored
  have finished := wellFormed.finished searched
  obtain ⟨fresh, opened, consistent, on, initial⟩ := Consistent.ofModel compiled random
  refine ⟨search, fresh, searched, opened, fun moves => ?_, fun x visited => ?_⟩
  · exact (On.playAll ⟨consistent, on⟩ moves).foretold finished complete c.k
  · obtain ⟨i, a, found, rfl⟩ := finished.visited_iff.mp visited
    have fires := wellFormed.fireIds_names (finished.pathTo_fires found).2
    rw [← initial, ← on] at fires
    obtain ⟨last, fired, there⟩ := consistent.foldlM_fire fires
    exact ⟨_, last, fired, there⟩

theorem foretold_by_exploration_cycle :
    ∃ search f fresh,
      Net.cycle.search { maxDepth := 1, maxStates := 2 } Net.cycle.initialMarking = .ok search ∧
      Session.ofModel ⟨Net.cycle.places, Net.cycle.transitions, Net.cycleArcs⟩ (.ofSeed 7) =
        .ok fresh ∧
      f.deadlocked = false ∧
      (fresh.playAll [.run 3, .goto 1, .fire "go", .fire "back"]).Foretold Net.cycle search f := by
  obtain ⟨f, explored, complete, alive⟩ := Net.explore_cycle
  obtain ⟨search, fresh, searched, opened, foretold, _⟩ :=
    foretold_by_exploration Net.ofModel_cycle explored complete (.ofSeed 7)
  exact ⟨search, f, fresh, searched, opened, alive, foretold _⟩

end Session

end TokenGame
