import TokenGame.Net.Firing
import TokenGame.Simulation.History

/-! Histories that can be replayed: a net fires its way from a start marking through
all entries. Recording a firing keeps that, also where it starts a new branch, since
what is dropped lies behind the entry that was fired from. -/
namespace TokenGame

namespace History

/-- Every entry but the first is what a firing of the net makes of the one before,
and the cursor is at an entry. -/
structure Replays (net : Net) (start : Marking) (h : History) : Prop where
  cursor : ∃ c, h.cursor = some c ∧ c < h.size
  first : ∃ time, h.entries[0]? = some ⟨none, start, time⟩
  later : ∀ i e, h.entries[i + 1]? = some e → ∃ id d, e.fired = some id ∧
    h.entries[i]? = some d ∧ net.fire d.marking id = .ok e.marking

/-- The entries after a firing is recorded at position `c`. -/
theorem getElem?_branch {entries : Array Entry} {c : Nat} (inside : c < entries.size)
    (e : Entry) (i : Nat) : ((entries.shrink (c + 1)).push e)[i]? =
      if i = c + 1 then some e else if i ≤ c then entries[i]? else none := by
  have size : (entries.shrink (c + 1)).size = c + 1 := by
    rw [Array.size_shrink]
    omega
  rw [Array.getElem?_push, size]
  split
  · rfl
  · split
    · rename_i old
      have bound : i < (entries.shrink (c + 1)).size := by omega
      rw [Array.getElem?_eq_getElem bound, Array.getElem_shrink, Array.getElem?_eq_getElem]
    · exact Array.getElem?_eq_none (by omega)

theorem append_eq {h : History} {c : Nat} (here : h.cursor = some c) (inside : c < h.size)
    (fired : String) (m : Marking) (time : Nat) : h.append fired m time =
      .ok ⟨(h.entries.shrink (c + 1)).push ⟨some fired, m, time⟩, some (c + 1)⟩ := by
  have room : c + 1 ≤ h.entries.size := inside
  simp only [append, here, Nat.min_eq_right room]

theorem single_replays (net : Net) (start : Marking) (time : Nat) :
    (single start time).Replays net start where
  cursor := ⟨0, rfl, Nat.zero_lt_one⟩
  first := ⟨time, rfl⟩
  later := by simp [single]

namespace Replays

variable {net : Net} {start : Marking} {h : History} (replays : h.Replays net start)
include replays

theorem current : ∃ c e, h.cursor = some c ∧ h.entries[c]? = some e ∧ h.current? = some e := by
  obtain ⟨c, here, inside⟩ := replays.cursor
  have found : h.entries[c]? = some h.entries[c] := Array.getElem?_eq_getElem inside
  exact ⟨c, _, here, found, by rw [current?, here, Option.bind_some, found]⟩

/-- A firing from the current entry can be recorded. -/
theorem append {e : Entry} (current : h.current? = some e) {id : String} {next : Marking}
    (fired : net.fire e.marking id = .ok next) (time : Nat) :
    ∃ h', h.append id next time = .ok h' ∧ h'.Replays net start ∧
      h'.current? = some ⟨some id, next, time⟩ := by
  obtain ⟨c, here, inside⟩ := replays.cursor
  have found : h.entries[c]? = some e := by rwa [current?, here, Option.bind_some] at current
  have branch := getElem?_branch inside ⟨some id, next, time⟩
  have appended := append_eq here inside id next time
  refine ⟨_, appended, ⟨⟨c + 1, rfl, ?_⟩, ?_, ?_⟩, current?_append ?_ appended⟩
  · have kept : c + 1 ≤ h.entries.size := inside
    simp [size, kept]
  · rw [branch, if_neg (by omega), if_pos (Nat.zero_le c)]
    exact replays.first
  · intro i d added
    rw [branch] at added
    split at added
    · rename_i last
      obtain rfl : i = c := by omega
      cases added
      exact ⟨id, e, rfl, by rw [branch, if_neg (by omega), if_pos (Nat.le_refl i), found], fired⟩
    · split at added
      · obtain ⟨name, b, label, before, step⟩ := replays.later i d added
        exact ⟨name, b, label, by rw [branch, if_neg (by omega), if_pos (by omega), before], step⟩
      · cases added
  · intro d there
    cases here.symm.trans there
    exact inside

theorem goto {index : Nat} {h' : History} (moved : h.goto index = .ok h') :
    h'.Replays net start := by
  unfold History.goto at moved
  split at moved
  · rename_i inside
    cases moved
    exact ⟨⟨index, rfl, inside⟩, replays.first, replays.later⟩
  · cases moved

/-- What holds of the start and what every firing preserves holds of every entry. -/
theorem invariant (property : Marking → Prop) (initial : property start)
    (preserved : ∀ x id y, property x → net.fire x id = .ok y → property y) {i : Nat} {e : Entry}
    (found : h.entries[i]? = some e) : property e.marking := by
  induction i generalizing e with
  | zero =>
    obtain ⟨_, first⟩ := replays.first
    obtain rfl := Option.some.inj (first.symm.trans found)
    exact initial
  | succ i ih =>
    obtain ⟨id, d, _, before, fired⟩ := replays.later i e found
    exact preserved _ id _ (ih before) fired

end Replays

end History

end TokenGame
