import Mathlib.Order.Bounds.Basic
import TokenGame.Analysis.Exploration
import TokenGame.Proofs.Maximum
import TokenGame.Proofs.Search.Invariant

/-! What a finished search has found. Every search of a compiled net finishes; the
depth of a state is its distance from the start over all firing sequences, also
where limits cut the search short, and a search that still has room for states has
found everything up to the depth limit. -/
namespace TokenGame

theorem SearchConfig.validate_ok_iff {c : SearchConfig} :
    c.validate = .ok () ↔ 1 ≤ c.maxDepth ∧ 1 ≤ c.maxStates := by
  unfold validate
  split
  · simp_all
  · split
    · simp_all
    · simp only [true_iff]
      omega

namespace Search

variable {net : Net} {c : SearchConfig} {m : Marking} {index : Nat} {s : Search}

/-- Holds of a search from `m` that has expanded every state it found. -/
abbrev Finished (net : Net) (c : SearchConfig) (m : Marking) (s : Search) : Prop :=
  Invariant net c m s.states.size [] s

theorem mem_states {a : State} : a ∈ s.states.toList ↔ ∃ i, s.At i a := by
  simp [List.mem_iff_getElem?, At]

theorem forall_states {property : State → Prop} :
    (∀ a ∈ s.states.toList, property a) ↔ ∀ i a, s.At i a → property a := by
  simp only [mem_states]
  exact ⟨fun all i a found => all a ⟨i, found⟩, fun all a ⟨i, found⟩ => all i a found⟩

theorem depthReached_le_iff {bound : Nat} :
    s.depthReached ≤ bound ↔ ∀ i a, s.At i a → a.depth ≤ bound := by
  rw [depthReached, ← Array.foldl_toList, foldl_max_le_iff fun a : State => a.depth,
    forall_states]
  simp

theorem maximumAt_le_iff {place bound : Nat} : (s.maximumAt place).toNat ≤ bound ↔
    ∀ i a, s.At i a → (a.marking.tokens place).toNat ≤ bound := by
  rw [maximumAt, ← Array.foldl_toList,
    Count.toNat_foldl_max fun a : State => a.marking.tokens place,
    foldl_max_le_iff fun a : State => (a.marking.tokens place).toNat, forall_states]
  simp

namespace Invariant

variable {followed : List Nat} (valid : Invariant net c m index followed s)
include valid

theorem getElem?_visits (i : Nat) :
    s.visits[i]? = (s.states[i]?).map fun a => ⟨i, a.marking, a.depth⟩ := by
  rw [valid.visited, List.getElem?_mapIdx, Array.getElem?_toList]

theorem mem_visits {v : Visit} :
    v ∈ s.visits ↔ ∃ i a, s.At i a ∧ ⟨i, a.marking, a.depth⟩ = v := by
  simp only [List.mem_iff_getElem?, valid.getElem?_visits, Option.map_eq_some_iff]

theorem exists_visit_iff {property : Visit → Prop} : (∃ v ∈ s.visits, property v) ↔
    ∃ i a, s.At i a ∧ property ⟨i, a.marking, a.depth⟩ := by
  simp only [valid.mem_visits]
  constructor
  · rintro ⟨_, ⟨i, a, found, rfl⟩, holds⟩
    exact ⟨i, a, found, holds⟩
  · rintro ⟨i, a, found, holds⟩
    exact ⟨_, ⟨i, a, found, rfl⟩, holds⟩

theorem length_visits : s.visits.length = s.states.size := by
  rw [valid.visited, List.length_mapIdx, Array.length_toList]

theorem getElem_visits {i : Nat} (bound : i < s.visits.length) :
    ∃ a, s.At i a ∧ s.visits[i] = ⟨i, a.marking, a.depth⟩ := by
  have found := valid.getElem?_visits i
  rw [List.getElem?_eq_getElem bound] at found
  obtain ⟨a, here, same⟩ := Option.map_eq_some_iff.mp found.symm
  exact ⟨a, here, same.symm⟩

theorem visits_nodup : (s.visits.map (·.marking)).Nodup := by
  rw [List.Nodup, List.pairwise_map, List.pairwise_iff_getElem]
  intro i j left right before same
  obtain ⟨a, foundLeft, first⟩ := valid.getElem_visits left
  obtain ⟨b, foundRight, second⟩ := valid.getElem_visits right
  rw [first, second] at same
  exact Nat.ne_of_lt before (valid.unique foundLeft foundRight same)

theorem visits_ordered : s.visits.Pairwise (·.depth ≤ ·.depth) := by
  rw [List.pairwise_iff_getElem]
  intro i j left right before
  obtain ⟨a, foundLeft, first⟩ := valid.getElem_visits left
  obtain ⟨b, foundRight, second⟩ := valid.getElem_visits right
  rw [first, second]
  exact valid.ordered i j a b (Nat.le_of_lt before) foundLeft foundRight

theorem walk_fires {steps i : Nat} {a : State} (bound : i ≤ steps) (found : s.At i a)
    (later : List Nat) : ∃ path, pathTo.walk s steps i later = path ++ later ∧
      path.length = a.depth ∧ net.fireAll m path = .ok a.marking := by
  induction steps generalizing i a later with
  | zero =>
    obtain rfl : i = 0 := by omega
    obtain rfl := At.det valid.start found
    exact ⟨[], rfl, rfl, rfl⟩
  | succ steps ih =>
    cases i with
    | zero =>
      obtain rfl := At.det valid.start found
      exact ⟨[], by simp [pathTo.walk, found], rfl, rfl⟩
    | succ i =>
      obtain ⟨j, t, b, parent, before, source, depth, fired⟩ := valid.parent i a found
      -- the walk goes back from the end, so what it collects stands after the parent's path
      obtain ⟨path, walked, length, fires⟩ := ih (by omega) source (t :: later)
      refine ⟨path ++ [t], ?_, by simp [length, depth], ?_⟩
      · simp [pathTo.walk, found, parent, walked]
      · exact Net.fireAll_concat_ok.mpr ⟨b.marking, fires, fired⟩

/-- The recorded path to a state can be fired and is as long as the state is deep. -/
theorem pathTo_fires {i : Nat} {a : State} (found : s.At i a) :
    (s.pathTo i).length = a.depth ∧ net.fireAll m (s.pathTo i) = .ok a.marking := by
  obtain ⟨path, walked, length, fires⟩ := valid.walk_fires (Nat.le_refl i) found []
  rw [pathTo, walked, List.append_nil]
  exact ⟨length, fires⟩

theorem reaches {i : Nat} {a : State} (found : s.At i a) :
    net.ReachesIn m a.depth a.marking := ⟨s.pathTo i, valid.pathTo_fires found⟩

/-- No firing sequence at all is shorter than the recorded depth. -/
theorem shortest {i n : Nat} {a : State} (found : s.At i a)
    (reached : net.ReachesIn m n a.marking) : a.depth ≤ n := by
  apply Nat.le_of_not_lt
  intro nearer
  obtain ⟨j, b, other, same, depth⟩ := valid.layers i a n a.marking found nearer reached
  obtain rfl := valid.unique other found same
  obtain rfl := At.det other found
  omega

/-- The deepest state is as deep as the search says. -/
theorem depthReached_attained : ∃ i a, s.At i a ∧ a.depth = s.depthReached := by
  rcases foldl_max_attained (fun a : State => a.depth) s.states.toList 0 with
    least | ⟨a, member, attained⟩
  · refine ⟨0, _, valid.start, ?_⟩
    rw [depthReached, ← Array.foldl_toList]
    exact least.symm
  · obtain ⟨i, found⟩ := mem_states.mp member
    refine ⟨i, a, found, ?_⟩
    rw [depthReached, ← Array.foldl_toList]
    exact attained

/-- Some state has on a place what the search says is the most. -/
theorem maximumAt_attained (place : Nat) :
    ∃ i a, s.At i a ∧ a.marking.tokens place = s.maximumAt place := by
  have value : (s.maximumAt place).toNat = s.states.toList.foldl
      (fun most a => max most (a.marking.tokens place).toNat) 0 := by
    rw [maximumAt, ← Array.foldl_toList]
    exact Count.toNat_foldl_max (fun a : State => a.marking.tokens place) _ _
  rcases foldl_max_attained (fun a : State => (a.marking.tokens place).toNat)
      s.states.toList 0 with least | ⟨a, member, attained⟩
  · refine ⟨0, _, valid.start, UInt64.toNat_inj.mp ?_⟩
    have below := maximumAt_le_iff.mp (Nat.le_of_eq (value.trans least)) 0 _ valid.start
    omega
  · obtain ⟨i, found⟩ := mem_states.mp member
    exact ⟨i, a, found, UInt64.toNat_inj.mp (attained.trans value.symm)⟩

end Invariant

/-- The search reports the first of its states that enables nothing. -/
theorem Finished.deadlock?_eq (finished : s.Finished net c m) :
    s.deadlock? = (List.range s.states.size).find? (s.deadAt net) := by
  have first : s.deadlock? = s.deadlocks.head? := by
    rw [deadlocks, List.head?_filterMap, Array.findSome?_toList, deadlock?]
    rfl
  rw [first, finished.ended, ends, List.head?_filter]

theorem Finished.deadlock?_isSome_iff (finished : s.Finished net c m) :
    s.deadlock?.isSome = true ↔ ∃ i a, s.At i a ∧ net.enabledTransitions a.marking = [] := by
  rw [finished.deadlock?_eq, List.find?_isSome]
  constructor
  · rintro ⟨i, _, dead⟩
    exact ⟨i, deadAt_iff.mp dead⟩
  · rintro ⟨i, a, found, none⟩
    exact ⟨i, List.mem_range.mpr found.lt, deadAt_iff.mpr ⟨a, found, none⟩⟩

/-- With room left for states, the search has found all that lies within its depth. -/
theorem Finished.exact (finished : s.Finished net c m) (room : s.states.size < c.maxStates)
    {x : Marking} : (∃ i a, s.At i a ∧ a.marking = x) ↔
      ∃ n, n ≤ c.maxDepth ∧ net.ReachesIn m n x := by
  constructor
  · rintro ⟨i, a, found, rfl⟩
    exact ⟨a.depth, finished.depth i a found, finished.reaches found⟩
  · rintro ⟨n, close, reached⟩
    obtain ⟨i, a, found, same, _⟩ := finished.within (fun _ _ found _ => found.lt)
      (Nat.le_refl c.maxDepth) room close reached
    exact ⟨i, a, found, same⟩

end Search

namespace Net

open Search

/-- On a compiled net a search within valid limits finishes, and its findings are
what an exploration answers. -/
theorem search_finishes {net : Net} (wellFormed : net.WellFormed) {c : SearchConfig}
    (config : c.validate = .ok ()) {m : Marking} (size : m.size = net.places.length) :
    ∃ s, net.search c m = .ok s ∧ s.Finished net c m ∧
      net.explore c m = .ok (s.findings net c.k) := by
  have room := (SearchConfig.validate_ok_iff.mp config).2
  obtain ⟨s, ran, finished⟩ := run_invariant wellFormed size (Nat.le_add_left c.maxStates 0)
    (start_invariant c m room) (Nat.zero_le _)
  have searched : net.search c m = .ok s := by
    simp [search, config, size, ran, bind, Except.bind, pure, Except.pure]
  refine ⟨s, searched, finished, ?_⟩
  simp [explore, searched, Except.map]

theorem WellFormed.finished {net : Net} (wellFormed : net.WellFormed) {c : SearchConfig}
    {m : Marking} {s : Search} (searched : net.search c m = .ok s) : s.Finished net c m := by
  obtain ⟨config, size, _⟩ := search_ok_iff.mp searched
  obtain ⟨_, same, finished, _⟩ := search_finishes wellFormed config size
  exact Except.ok.inj (same.symm.trans searched) ▸ finished

theorem explore_ok_iff {net : Net} {c : SearchConfig} {m : Marking} {f : Findings} :
    net.explore c m = .ok f ↔ ∃ s, net.search c m = .ok s ∧ s.findings net c.k = f := by
  unfold explore
  cases net.search c m <;> simp [Except.map]

/-- The search visits markings in the order of their distance from the start,
under any limits and whatever overflows: a depth is the least number of firings
over all firing sequences, and the report sums up exactly what was visited. -/
theorem explore_visits_by_distance {model : Model} {net : Net}
    (compiled : ofModel model = .ok net) {c : SearchConfig} (config : c.validate = .ok ())
    {m : Marking} (size : m.size = net.places.length) :
    ∃ s f, net.search c m = .ok s ∧ net.explore c m = .ok f ∧
      (s.visits.map (·.marking)).Nodup ∧
      (∀ (i : Nat) (v : Visit), s.visits[i]? = some v → v.index = i) ∧
      s.visits[0]? = some ⟨0, m, 0⟩ ∧
      (∀ v ∈ s.visits, IsLeast {n | net.ReachesIn m n v.marking} v.depth) ∧
      s.visits.Pairwise (·.depth ≤ ·.depth) ∧
      f.exploredStates = s.visits.length ∧ f.exploredStates ≤ c.maxStates ∧
      IsGreatest {d | ∃ v ∈ s.visits, v.depth = d} f.depthReached ∧
      f.depthReached ≤ c.maxDepth ∧
      (f.exploredStates < c.maxStates → ∀ x, (∃ v ∈ s.visits, v.marking = x) ↔
        ∃ n, n ≤ c.maxDepth ∧ net.ReachesIn m n x) ∧
      ∀ (i : Nat) (place : Place), net.places[i]? = some place → ∃ most,
        f.perPlaceMax.get? place.id = some most ∧
        IsGreatest {n | ∃ v ∈ s.visits, v.marking.tokens i = n} most := by
  have wellFormed := wellFormed_of_ofModel compiled
  obtain ⟨s, searched, finished, explored⟩ := search_finishes wellFormed config size
  refine ⟨s, _, searched, explored, finished.visits_nodup, ?_, ?_, ?_, finished.visits_ordered,
    finished.length_visits.symm, finished.count, ?_, ?_, ?_, ?_⟩
  · intro i v found
    rw [finished.getElem?_visits, Option.map_eq_some_iff] at found
    obtain ⟨a, _, rfl⟩ := found
    rfl
  · rw [finished.getElem?_visits, finished.start]
    rfl
  · intro v member
    obtain ⟨i, a, found, rfl⟩ := finished.mem_visits.mp member
    exact ⟨finished.reaches found, fun n reached => finished.shortest found reached⟩
  · obtain ⟨i, a, found, deepest⟩ := finished.depthReached_attained
    refine ⟨⟨_, finished.mem_visits.mpr ⟨i, a, found, rfl⟩, deepest⟩, ?_⟩
    rintro d ⟨v, member, rfl⟩
    obtain ⟨j, b, other, rfl⟩ := finished.mem_visits.mp member
    exact depthReached_le_iff.mp (Nat.le_refl _) j b other
  · exact depthReached_le_iff.mpr finished.depth
  · intro room x
    rw [← finished.exact room]
    constructor
    · rintro ⟨v, member, rfl⟩
      obtain ⟨i, a, found, rfl⟩ := finished.mem_visits.mp member
      exact ⟨i, a, found, rfl⟩
    · rintro ⟨i, a, found, rfl⟩
      exact ⟨_, finished.mem_visits.mpr ⟨i, a, found, rfl⟩, rfl⟩
  · intro i place declared
    obtain ⟨bound, rfl⟩ := List.getElem?_eq_some_iff.mp declared
    refine ⟨s.maximumAt i, wellFormed.get?_ofList_places s.maximumAt bound, ?_, ?_⟩
    · obtain ⟨j, a, found, most⟩ := finished.maximumAt_attained i
      exact ⟨_, finished.mem_visits.mpr ⟨j, a, found, rfl⟩, most⟩
    · rintro n ⟨v, member, rfl⟩
      obtain ⟨j, a, found, rfl⟩ := finished.mem_visits.mp member
      exact UInt64.le_iff_toNat_le.mpr (maximumAt_le_iff.mp (Nat.le_refl _) j a found)

theorem explore_visits_by_distance_transfer :
    ∃ s, transfer.search { maxDepth := 2, maxStates := 2 } (.ofList [2, 0]) = .ok s ∧
      s.visits[0]? = some ⟨0, .ofList [2, 0], 0⟩ ∧ s.visits.length ≤ 2 := by
  obtain ⟨s, f, searched, _, _, _, first, _, _, count, room, _⟩ :=
    explore_visits_by_distance (c := { maxDepth := 2, maxStates := 2 }) ofModel_transfer rfl
      (m := .ofList [2, 0]) rfl
  exact ⟨s, searched, first, count ▸ room⟩

end Net

end TokenGame
