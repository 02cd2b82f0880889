import TokenGame.Proofs.Net.Removed
import TokenGame.Proofs.Simulation.Session

/-! Edits that add nothing. A model that describes a net still does when nodes or arcs are removed
from it or tokens are set, whatever ids the edits name, so a session refuses no such edit. -/
namespace TokenGame

namespace Model

variable {m : Model}

/-- Whether an edit declares something new. -/
def Edit.adds : Edit → Bool
  | .addPlace _ | .addTransition _ | .addArc _ => true
  | .removeNode _ | .removeArc _ | .setTokens _ _ => false

theorem shrinks_apply {e : Edit} (keeps : e.adds = false) : m.Shrinks (m.apply e) := by
  cases e with
  | addPlace | addTransition | addArc => cases keeps
  | removeNode id => exact m.shrinks_removeNode id
  | removeArc id => exact m.shrinks_removeArc id
  | setTokens id tokens => exact m.shrinks_setTokens id tokens

theorem Accepted.applyAll (accepted : m.Accepted) {edits : List Edit}
    (keep : ∀ e ∈ edits, e.adds = false) : (m.applyAll edits).Accepted := by
  induction edits generalizing m with
  | nil => exact accepted
  | cons e rest ih =>
    obtain ⟨first, later⟩ := List.forall_mem_cons.mp keep
    exact ih ((shrinks_apply first).accepted accepted) later

end Model

/-- Edits that add nothing lead from nets to nets. -/
theorem Net.ofModel_applyAll {model : Model} {net : Net} (compiled : ofModel model = .ok net)
    {edits : List Model.Edit} (keep : ∀ e ∈ edits, e.adds = false) :
    ∃ other, ofModel (model.applyAll edits) = .ok other :=
  exists_ofModel_iff.mpr ((exists_ofModel_iff.mp ⟨net, compiled⟩).applyAll keep)

namespace Session

theorem Consistent.edit_applyAll {s : Session} (consistent : s.Consistent)
    {change : Model → Model} {edits : List Model.Edit} (keep : ∀ e ∈ edits, e.adds = false)
    (changes : change s.model = s.model.applyAll edits) : ∃ s', s.edit change = .ok s' := by
  obtain ⟨other, compiled⟩ := Net.ofModel_applyAll consistent.compiled keep
  rw [← changes] at compiled
  simp only [Session.edit, compiled]
  exact ⟨_, rfl⟩

/-- Removing a node leaves the rest of a net alone. Without a transition the others are enabled
and fire as before. Without a place, what was enabled still is, and what was fired leads to the
same marking of the other places. An id that names no node changes nothing. After any edits that
add nothing there is a net again, and a session accepts them at any time. -/
theorem removals_keep_behaviour {model : Model} {net : Net}
    (compiled : Net.ofModel model = .ok net) (random : Random) :
    (∀ id, ∃ other, Net.ofModel (model.removeNode id) = .ok other ∧
      (id ∈ net.transitions.map (·.id) → ∀ m,
        other.enabledIds m = (net.enabledIds m).filter (· != id) ∧
        ∀ x, x ≠ id → other.fire m x = net.fire m x) ∧
      (∀ k, net.placeIndex? id = some k → other.places = net.places.eraseIdx k ∧ ∀ m x,
        (x ∈ net.enabledIds m → x ∈ other.enabledIds (m.without k)) ∧
        ∀ next, net.fire m x = .ok next → other.fire (m.without k) x = .ok (next.without k)) ∧
      (id ∉ model.nodeIds →
        model.removeNode id = model ∧ model.finds? (.removeNode id) = some false)) ∧
    (∀ edits : List Model.Edit, (∀ e ∈ edits, e.adds = false) →
      ∃ other, Net.ofModel (model.applyAll edits) = .ok other) ∧
    ∃ fresh, Session.ofModel model random = .ok fresh ∧
      ∀ operations s, fresh.performAll operations = s →
        ∀ (change : Model → Model) (edits : List Model.Edit), (∀ e ∈ edits, e.adds = false) →
          change s.model = s.model.applyAll edits → ∃ s', s.edit change = .ok s' := by
  refine ⟨fun id => ?_, fun _ => Net.ofModel_applyAll compiled, ?_⟩
  · have accepted := Net.exists_ofModel_iff.mp ⟨net, compiled⟩
    obtain ⟨other, compiled'⟩ :=
      Net.exists_ofModel_iff.mpr ((model.shrinks_removeNode id).accepted accepted)
    refine ⟨other, compiled', fun member m => ?_, fun k found => ?_, fun absent => ?_⟩
    · have removed := Net.WithoutTransition.ofModel compiled member compiled'
      exact ⟨removed.enabledIds_eq m, fun x => removed.fire_eq⟩
    · have removed := Net.WithoutPlace.ofModel compiled found compiled'
      exact ⟨removed.places, fun m x => ⟨removed.mem_enabledIds, fun _ => removed.fire_without⟩⟩
    · have missing : model.hasNode id = false :=
        Bool.eq_false_iff.mpr (mt Model.hasNode_iff.mp absent)
      exact ⟨Model.removeNode_of_not_mem absent, congrArg some missing⟩
  · obtain ⟨fresh, opened, consistent, _⟩ := Consistent.ofModel compiled random
    refine ⟨fresh, opened, ?_⟩
    rintro operations s rfl change edits keep changes
    exact (consistent.performAll operations).edit_applyAll keep changes

/-- A room that is entered with a key. -/
def lock : Model where
  places := [{ id := "hall", tokens := 1 }, { id := "key", tokens := 1 }, { id := "room" }]
  transitions := [{ id := "enter" }, { id := "leave" }]
  arcs := [⟨"a", "hall", "enter", 1⟩, ⟨"b", "key", "enter", 1⟩, ⟨"c", "enter", "room", 1⟩,
    ⟨"d", "room", "leave", 1⟩]

/-- Without the key the room is entered as with it, and without the way in it is left as before. -/
theorem removals_keep_behaviour_lock :
    ∃ net keyless closed, Net.ofModel lock = .ok net ∧
      Net.ofModel (lock.removeNode "key") = .ok keyless ∧
      Net.ofModel (lock.removeNode "enter") = .ok closed ∧
      net.fire (.ofList [1, 1, 0]) "enter" = .ok (.ofList [0, 0, 1]) ∧
      keyless.fire (.ofList [1, 0]) "enter" = .ok (.ofList [0, 1]) ∧
      closed.fire (.ofList [0, 0, 1]) "leave" = .ok (.ofList [0, 0, 0]) := by
  have compiled : Net.ofModel lock = .ok _ := rfl
  obtain ⟨each, _⟩ := removals_keep_behaviour compiled (.ofSeed 0)
  obtain ⟨keyless, compiled', _, place, _⟩ := each "key"
  obtain ⟨closed, compiled'', transition, _⟩ := each "enter"
  have moves := (place 1 (by decide)).2 (.ofList [1, 1, 0]) "enter"
  have enters := moves.2 (.ofList [0, 0, 1]) (by decide)
  have leaves := (transition (by decide) (.ofList [0, 0, 1])).2 "leave" (by decide)
  exact ⟨_, keyless, closed, compiled, compiled', compiled'', by decide, enters,
    leaves.trans (by decide)⟩

end Session

end TokenGame
