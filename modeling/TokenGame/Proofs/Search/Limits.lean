import Mathlib.Data.Set.Card
import TokenGame.Proofs.Net.Unbounded
import TokenGame.Proofs.Search.BreadthFirst

/-! When a search reports that it met its limits. It does so exactly if the markings
reachable in the unbounded token game are too many, too far, or too large for it;
a search that reports no limit has visited each of them once. -/
namespace TokenGame

namespace Search

/-- The exact counts of the visited markings, in the order of the visits. -/
def seen (net : Net) (s : Search) : List net.Tokens :=
  s.visits.map fun v => net.tokensOf v.marking

variable {net : Net} {c : SearchConfig} {m : Marking} {s : Search}

namespace Finished

variable (finished : s.Finished net c m)
include finished

theorem mem_seen {M : net.Tokens} :
    M ∈ s.seen net ↔ ∃ i a, s.At i a ∧ net.tokensOf a.marking = M := by
  simp only [seen, List.mem_map]
  exact finished.exists_visit_iff

theorem length_seen : (s.seen net).length = s.states.size := by
  rw [seen, List.length_map, finished.length_visits]

/-- Without a loss, every enabled transition of a visited marking was followed to
another one. -/
theorem successor_of_lossless (lossless : s.hitLimits = false) {i t : Nat} {a : State}
    (found : s.At i a) (enabled : net.isEnabled a.marking t = true) :
    ∃ j b, s.At j b ∧ net.fireTransition a.marking t = .ok b.marking := by
  have kept : ∀ e ∈ s.events, e.isLoss ≠ true := by
    intro e recorded loss
    cases lossless.symm.trans (hitLimits_iff.mpr ⟨e, recorded, loss⟩)
  cases finished.outcome found.lt found enabled with
  | edge _ target fired _ => exact ⟨_, _, target, fired⟩
  | overflow recorded => exact absurd rfl (kept _ recorded)
  | cut recorded => exact absurd rfl (kept _ recorded)

variable (wellFormed : net.WellFormed)
include wellFormed

/-- Whatever was visited is reachable, by as many moves as it is deep. -/
theorem moves {i : Nat} {a : State} (found : s.At i a) :
    ∃ ts, ts.length = a.depth ∧ net.Moves (net.tokensOf m) ts (net.tokensOf a.marking) :=
  wellFormed.moves_of_reachesIn (finished.reaches found)

theorem reachable {M : net.Tokens} (member : M ∈ s.seen net) :
    net.Reachable (net.tokensOf m) M := by
  obtain ⟨i, a, found, rfl⟩ := finished.mem_seen.mp member
  obtain ⟨ts, _, path⟩ := finished.moves wellFormed found
  exact ⟨ts, path⟩

variable (size : m.size = net.places.length)
include size

theorem seen_nodup : (s.seen net).Nodup := by
  have split : s.seen net = (s.visits.map (·.marking)).map net.tokensOf := by
    simp [seen]
  rw [split]
  apply List.Nodup.map_on _ finished.visits_nodup
  intro x left y right same
  obtain ⟨v, first, rfl⟩ := List.mem_map.mp left
  obtain ⟨w, second, rfl⟩ := List.mem_map.mp right
  obtain ⟨i, a, foundLeft, rfl⟩ := finished.mem_visits.mp first
  obtain ⟨j, b, foundRight, rfl⟩ := finished.mem_visits.mp second
  exact Net.tokensOf_injective (finished.sized wellFormed size foundLeft)
    (finished.sized wellFormed size foundRight) same

/-- Without a loss, every move from a visited marking leads to a visited marking. -/
theorem seen_closed (lossless : s.hitLimits = false) {M : net.Tokens}
    {t : Fin net.transitions.length} (member : M ∈ s.seen net) (enabled : net.Enables M t) :
    net.moved M t ∈ s.seen net := by
  obtain ⟨i, a, found, rfl⟩ := finished.mem_seen.mp member
  obtain ⟨j, b, there, fired⟩ :=
    finished.successor_of_lossless lossless found ((wellFormed.enables_iff t).mp enabled)
  rcases wellFormed.fire_of_move (finished.sized wellFormed size found) enabled with
    ⟨next, same, after⟩ | ⟨_, failed, _⟩
  · obtain rfl := Except.ok.inj (fired.symm.trans same)
    exact finished.mem_seen.mpr ⟨j, b, there, after⟩
  · rw [fired] at failed
    cases failed

/-- A search without a loss has seen exactly the reachable markings. -/
theorem mem_seen_iff_reachable (lossless : s.hitLimits = false) {M : net.Tokens} :
    M ∈ s.seen net ↔ net.Reachable (net.tokensOf m) M := by
  refine ⟨finished.reachable wellFormed, fun reachable => ?_⟩
  exact reachable.invariant
    (fun _ _ member enabled => finished.seen_closed wellFormed size lossless member enabled)
    (finished.mem_seen.mpr ⟨0, _, finished.start, rfl⟩)

/-- Every loss shows a reachable marking that the search has not seen. -/
theorem unseen_of_hitLimits (lossy : s.hitLimits = true) :
    ∃ M, net.Reachable (net.tokensOf m) M ∧ M ∉ s.seen net := by
  obtain ⟨e, recorded, loss⟩ := hitLimits_iff.mp lossy
  have truth := finished.holds e recorded
  cases e with
  | overflow source transition place =>
    obtain ⟨a, found, enabled, failed⟩ := truth
    have move := (wellFormed.enables_iff ⟨transition, Net.isEnabled_lt enabled⟩).mpr enabled
    refine ⟨_, (finished.reachable wellFormed (finished.mem_seen.mpr ⟨_, a, found, rfl⟩)).move
      move, fun member => ?_⟩
    obtain ⟨j, b, _, same⟩ := finished.mem_seen.mp member
    rcases wellFormed.fire_of_move (finished.sized wellFormed size found) move with
      ⟨next, fired, _⟩ | ⟨_, _, full, large⟩
    · rw [failed] at fired
      cases fired
    · rw [← same] at large
      exact absurd (Net.tokensOf_lt b.marking full) (Nat.not_lt.mpr large)
  | cut source transition =>
    obtain ⟨a, next, found, fired, absent, _⟩ := truth
    obtain ⟨move, enabled, after⟩ := wellFormed.move_of_fire fired
    refine ⟨_, (finished.reachable wellFormed (finished.mem_seen.mpr ⟨_, a, found, rfl⟩)).move
      enabled, fun member => ?_⟩
    obtain ⟨j, b, other, same⟩ := finished.mem_seen.mp member
    exact absent j b other (Net.tokensOf_injective (finished.sized wellFormed size other)
      (wellFormed.fireTransition_counts fired).1 (same.trans after.symm))
  | edge => cases loss
  | state => cases loss
  | deadlock => cases loss

/-- A search that has seen less than what is reachable ran out of states, or some
reachable marking is too far or too large for it. -/
theorem room_of_unseen (words : ∀ M, net.Reachable (net.tokensOf m) M → ∀ p, M p < Count.limit)
    (close : ∀ M, net.Reachable (net.tokensOf m) M →
      ∃ ts, ts.length ≤ c.maxDepth ∧ net.Moves (net.tokensOf m) ts M)
    {M : net.Tokens} (reachable : net.Reachable (net.tokensOf m) M)
    (unseen : M ∉ s.seen net) : c.maxStates ≤ s.states.size := by
  apply Nat.le_of_not_lt
  intro room
  obtain ⟨ts, short, path⟩ := close M reachable
  obtain ⟨next, reached, rfl⟩ := wellFormed.reachesIn_of_moves size words path
  obtain ⟨i, a, found, rfl⟩ := (finished.exact room).mpr ⟨ts.length, short, reached⟩
  exact unseen (finished.mem_seen.mpr ⟨i, a, found, rfl⟩)

end Finished

end Search

namespace Net

open Search

/-- A search meets its limits exactly if the unbounded game leaves them: too many
reachable markings, one too far from the start, or one with a count that is no
word. Otherwise it visits each reachable marking once. -/
theorem explore_hitLimits_iff {model : Model} {net : Net} (compiled : ofModel model = .ok net)
    {c : SearchConfig} (depth : 1 ≤ c.maxDepth) (states : 1 ≤ c.maxStates) {m : Marking}
    (size : m.size = net.places.length) :
    ∃ s f, net.search c m = .ok s ∧ net.explore c m = .ok f ∧
      (f.hitLimits = false ↔
        {M | net.Reachable (net.tokensOf m) M}.Finite ∧
        {M | net.Reachable (net.tokensOf m) M}.ncard ≤ c.maxStates ∧
        (∀ M, net.Reachable (net.tokensOf m) M →
          ∃ ts, ts.length ≤ c.maxDepth ∧ net.Moves (net.tokensOf m) ts M) ∧
        ∀ M, net.Reachable (net.tokensOf m) M → ∀ place, M place < Count.limit) ∧
      (f.hitLimits = false →
        (s.visits.map fun v => net.tokensOf v.marking).Nodup ∧
        ∀ M, M ∈ s.visits.map (fun v => net.tokensOf v.marking) ↔
          net.Reachable (net.tokensOf m) M) := by
  have wellFormed := wellFormed_of_ofModel compiled
  obtain ⟨s, searched, finished, explored⟩ :=
    search_finishes wellFormed (SearchConfig.validate_ok_iff.mpr ⟨depth, states⟩) size
  have distinct := finished.seen_nodup wellFormed size
  have card : (s.seen net).toFinset.card = s.states.size := by
    rw [List.toFinset_card_of_nodup distinct, finished.length_seen]
  refine ⟨s, _, searched, explored, ⟨fun lossless => ?_, ?_⟩, fun lossless => ⟨distinct, ?_⟩⟩
  · have all := fun M => finished.mem_seen_iff_reachable wellFormed size lossless (M := M)
    have same : {M | net.Reachable (net.tokensOf m) M} = ↑(s.seen net).toFinset := by
      ext M
      simp [all M]
    refine ⟨same ▸ Finset.finite_toSet _, ?_, ?_, ?_⟩
    · rw [same, Set.ncard_coe_finset, card]
      exact finished.count
    · intro M reachable
      obtain ⟨i, a, found, rfl⟩ := finished.mem_seen.mp ((all M).mpr reachable)
      obtain ⟨ts, length, path⟩ := finished.moves wellFormed found
      exact ⟨ts, length ▸ finished.depth i a found, path⟩
    · intro M reachable place
      obtain ⟨i, a, found, rfl⟩ := finished.mem_seen.mp ((all M).mpr reachable)
      exact tokensOf_lt a.marking place
  · rintro ⟨finite, few, close, words⟩
    apply Bool.eq_false_iff.mpr
    intro lossy
    obtain ⟨M, reachable, unseen⟩ := finished.unseen_of_hitLimits wellFormed size lossy
    have full := finished.room_of_unseen wellFormed size words close reachable unseen
    -- the visited markings and the missing one are more than the limit allows
    have inside : ↑(insert M (s.seen net).toFinset) ⊆
        {M | net.Reachable (net.tokensOf m) M} := by
      intro N member
      rcases Finset.mem_insert.mp (Finset.mem_coe.mp member) with rfl | old
      · exact reachable
      · exact finished.reachable wellFormed (List.mem_toFinset.mp old)
    have many := Set.ncard_le_ncard inside finite
    rw [Set.ncard_coe_finset, Finset.card_insert_of_notMem (by simpa using unseen), card] at many
    omega
  · exact fun M => finished.mem_seen_iff_reachable wellFormed size lossless

theorem explore_hitLimits_iff_transfer :
    ∃ s f, transfer.search { maxDepth := 2, maxStates := 3 } (.ofList [2, 0]) = .ok s ∧
      transfer.explore { maxDepth := 2, maxStates := 3 } (.ofList [2, 0]) = .ok f ∧
      (f.hitLimits = false → (s.visits.map fun v => transfer.tokensOf v.marking).Nodup) := by
  obtain ⟨s, f, searched, explored, _, visited⟩ :=
    explore_hitLimits_iff (c := { maxDepth := 2, maxStates := 3 }) ofModel_transfer (by decide)
      (by decide) (m := .ofList [2, 0]) rfl
  exact ⟨s, f, searched, explored, fun lossless => (visited lossless).1⟩

end Net

end TokenGame
