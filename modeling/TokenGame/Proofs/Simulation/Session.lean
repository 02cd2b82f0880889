import TokenGame.Proofs.Net.Firing
import TokenGame.Proofs.Simulation.History
import TokenGame.Proofs.Simulation.Operation

/-! What holds of a session after any operations, whether they succeed or fail: its net
is compiled from its model, and its history replays on that net from the initial
marking. Edits keep it because they start the history anew. -/
namespace TokenGame

namespace Session

/-- A session that agrees with itself. -/
structure Consistent (s : Session) : Prop where
  compiled : Net.ofModel s.model = .ok s.net
  initial : s.initial = s.net.initialMarking
  replays : s.history.Replays s.net s.initial

variable {s s' : Session}

theorem enabled_length_le (s : Session) : s.enabled.length ≤ s.net.transitions.length := by
  simp only [enabled, Net.enabledIds, Net.enabledTransitions, List.length_map]
  exact Nat.le_trans (List.length_filter_le ..) (Nat.le_of_eq List.length_range)

namespace Consistent

theorem few (consistent : s.Consistent) : s.enabled.length ≤ UInt32.size :=
  Nat.le_of_lt (Nat.lt_of_le_of_lt s.enabled_length_le (Net.ofModel_parts consistent.compiled).2.1)

theorem ofModel {model : Model} {net : Net} (compiled : Net.ofModel model = .ok net)
    (random : Random) : ∃ s, Session.ofModel model random = .ok s ∧ s.Consistent ∧
      s.net = net ∧ s.marking = net.initialMarking := by
  refine ⟨⟨model, net, net.initialMarking, .single net.initialMarking 0, random, 1⟩, ?_,
    ⟨compiled, rfl, History.single_replays ..⟩, rfl, rfl⟩
  simp only [Session.ofModel, compiled]

variable (consistent : s.Consistent)
include consistent

theorem current : ∃ c e, s.history.cursor = some c ∧ s.history.entries[c]? = some e ∧
    s.history.current? = some e ∧ s.marking = e.marking := by
  obtain ⟨c, e, here, found, current⟩ := consistent.replays.current
  exact ⟨c, e, here, found, current, by rw [marking, current]; rfl⟩

/-- A session fires what its net fires, and goes to the marking that it leads to. -/
theorem fire_ok {id : String} {next : Marking} (fires : s.net.fire s.marking id = .ok next) :
    ∃ s', s.fire id = .ok s' ∧ s'.Consistent ∧ s'.net = s.net ∧ s'.marking = next := by
  obtain ⟨c, e, _, _, current, same⟩ := consistent.current
  obtain ⟨history, appended, replays, after⟩ :=
    consistent.replays.append current (same ▸ fires) s.clock
  refine ⟨_, fire_ok_iff.mpr ⟨next, history, fires, appended, rfl⟩,
    ⟨consistent.compiled, consistent.initial, replays⟩, rfl, ?_⟩
  rw [marking, after]
  rfl

theorem fire {id : String} (fired : s.fire id = .ok s') : s'.Consistent := by
  obtain ⟨next, _, fires, _⟩ := fire_ok_iff.mp fired
  obtain ⟨_, same, kept, _⟩ := consistent.fire_ok fires
  exact Except.ok.inj (same.symm.trans fired) ▸ kept

/-- A session follows any firing sequence of its net. -/
theorem foldlM_fire {ids : List String} {next : Marking}
    (fires : s.net.fireIds s.marking ids = .ok next) :
    ∃ s', ids.foldlM Session.fire s = .ok s' ∧ s'.marking = next := by
  induction ids generalizing s with
  | nil => exact ⟨s, rfl, Except.ok.inj fires⟩
  | cons id rest ih =>
    obtain ⟨middle, first, later⟩ := Net.fireIds_cons_ok.mp fires
    obtain ⟨t, fired, kept, same, after⟩ := consistent.fire_ok first
    rw [← same, ← after] at later
    obtain ⟨s', done, there⟩ := ih kept later
    refine ⟨s', ?_, there⟩
    rw [List.foldlM_cons, fired]
    exact done

theorem goto {index : Nat} (moved : s.goto index = .ok s') : s'.Consistent := by
  obtain ⟨history, goes, rfl⟩ := goto_ok_iff.mp moved
  exact ⟨consistent.compiled, consistent.initial, consistent.replays.goto goes⟩

theorem reset : s.reset.Consistent :=
  ⟨consistent.compiled, consistent.initial, History.single_replays ..⟩

omit consistent in
theorem edit {change : Model → Model} (edited : s.edit change = .ok s') : s'.Consistent := by
  unfold Session.edit at edited
  simp only at edited
  split at edited
  · cases edited
  · rename_i compiled
    cases edited
    exact ⟨compiled, rfl, History.single_replays ..⟩

theorem perform (operation : Operation) : (s.perform operation).2.Consistent := by
  cases operation with
  | move move =>
    exact play_preserves few (fun kept fired => kept.fire fired)
      (fun _ kept => ⟨kept.compiled, kept.initial, kept.replays⟩)
      (fun kept moved => kept.goto moved) reset consistent move
  | edit change => exact settle_preserves consistent fun _ => edit

theorem performAll (operations : List Operation) : (s.performAll operations).Consistent := by
  induction operations generalizing s with
  | nil => exact consistent
  | cons operation rest ih => exact ih (consistent.perform operation)

/-- Every marking of the history has one count per place. -/
theorem sized {i : Nat} {e : Entry} (found : s.history.entries[i]? = some e) :
    e.marking.size = s.net.places.length := by
  have wellFormed := Net.wellFormed_of_ofModel consistent.compiled
  refine consistent.replays.invariant (·.size = s.net.places.length) ?_ ?_ found
  · rw [consistent.initial]
    simp [Net.initialMarking, Marking.ofList, Marking.size]
  · intro x id y _ fires
    obtain ⟨t, _, fires⟩ := Net.fire_ok_iff.mp fires
    exact (wellFormed.fireTransition_counts fires).1

end Consistent

/-- After any operations, failed ones included, the net is the compiled model, the
history replays on it from the initial marking, the session is at the marking under
the cursor, and what the net can fire there can be fired and recorded. -/
theorem consistent_after_operations {model : Model} {net : Net}
    (compiled : Net.ofModel model = .ok net) (random : Random) :
    ∃ fresh, Session.ofModel model random = .ok fresh ∧
      ∀ operations s, fresh.performAll operations = s →
        s.Consistent ∧
        (∀ e ∈ s.history.entries, e.marking.size = s.net.places.length) ∧
        (∃ c e, s.history.cursor = some c ∧ s.history.entries[c]? = some e ∧
          s.marking = e.marking) ∧
        ∀ id next, s.net.fire s.marking id = .ok next →
          ∃ s', s.fire id = .ok s' ∧ s'.marking = next := by
  obtain ⟨fresh, opened, consistent, _⟩ := Consistent.ofModel compiled random
  refine ⟨fresh, opened, ?_⟩
  rintro operations s rfl
  have kept := consistent.performAll operations
  refine ⟨kept, ?_, ?_, ?_⟩
  · intro e member
    obtain ⟨i, found⟩ := Array.mem_iff_getElem?.mp member
    exact kept.sized found
  · obtain ⟨c, e, here, found, _, same⟩ := kept.current
    exact ⟨c, e, here, found, same⟩
  · intro id next fires
    obtain ⟨s', fired, _, _, after⟩ := kept.fire_ok fires
    exact ⟨s', fired, after⟩

theorem consistent_after_operations_transfer :
    ∃ fresh, Session.ofModel ⟨Net.transfer.places, Net.transfer.transitions,
        [⟨"a", "full", "move", 1⟩, ⟨"b", "move", "empty", 1⟩]⟩ (.ofSeed 7) = .ok fresh ∧
      (fresh.performAll [.move (.run 3), .edit (·.setTokens "full" 3), .move (.fire "move"),
        .edit (·.removeArc "a"), .move (.goto 9), .move (.goto 0), .move .stepRandom]).Consistent := by
  obtain ⟨fresh, opened, kept⟩ :=
    consistent_after_operations Net.ofModel_transfer (.ofSeed 7)
  exact ⟨fresh, opened, (kept _ _ rfl).1⟩

end Session

end TokenGame
