import TokenGame.Proofs.Net.Renumbered
import TokenGame.Proofs.Search.Limits
import TokenGame.Proofs.Search.Reordered
import TokenGame.Proofs.Search.Witness

/-! Searches in nets whose transitions stand in different orders. The two searches discover
states in different orders and no step of the one is a step of the other, so they are
compared when they have finished: both have met their limits or neither has, and if not,
they have found the same markings at the same depths. -/
namespace TokenGame

namespace Search

variable {net other : Net} {c : SearchConfig} {m x : Marking} {s w : Search}
  {defect : Marking → Prop}

/-! ### What a search has found -/

/-- The markings that a search has found, with their depths. -/
def located (s : Search) : List (Marking × Nat) := s.states.toList.map fun a => (a.marking, a.depth)

@[simp] theorem length_located : s.located.length = s.states.size := by simp [located]

theorem mem_located {d : Nat} :
    (x, d) ∈ s.located ↔ ∃ i a, s.At i a ∧ a.marking = x ∧ a.depth = d := by
  simp only [located, List.mem_map, mem_states, Prod.mk.injEq]
  constructor
  · rintro ⟨a, ⟨i, found⟩, same⟩
    exact ⟨i, a, found, same⟩
  · rintro ⟨i, a, found, same⟩
    exact ⟨a, ⟨i, found⟩, same⟩

theorem At.located {i : Nat} {a : State} (found : s.At i a) : (a.marking, a.depth) ∈ s.located :=
  mem_located.mpr ⟨i, a, found, rfl, rfl⟩

/-- The state that a search reports for a defect: the first that shows it, if any does. -/
def Reports (s : Search) (defect : Marking → Prop) : Option Nat → Prop
  | some i => ∃ a, s.First defect i a
  | none => ∀ i a, s.At i a → ¬ defect a.marking

theorem reports_exceeding? (s : Search) (threshold : Count) :
    s.Reports (threshold < ·.maximum) (s.exceeding? threshold) := by
  cases reported : s.exceeding? threshold with
  | none =>
    intro i a found exceeds
    have absent := Array.findIdx?_eq_none_iff.mp reported a (Array.mem_of_getElem? found)
    exact of_decide_eq_false absent exceeds
  | some i =>
    obtain ⟨bound, exceeded, earlier⟩ := Array.findIdx?_eq_some_iff_getElem.mp reported
    refine ⟨s.states[i], Array.getElem?_eq_getElem bound, of_decide_eq_true exceeded, ?_⟩
    intro j b before found exceeds
    obtain ⟨_, rfl⟩ := Array.getElem?_eq_some_iff.mp found
    exact earlier j before (decide_eq_true exceeds)

namespace Finished

section One

variable (finished : s.Finished net c m)
include finished

theorem markings_nodup : (s.located.map (·.1)).Nodup := by
  have visited : s.located.map (·.1) = s.visits.map (·.marking) := by
    apply List.ext_getElem?
    intro i
    simp only [located, List.getElem?_map, finished.getElem?_visits, Array.getElem?_toList,
      Option.map_map]
    rfl
  rw [visited]
  exact finished.visits_nodup

theorem reports_deadlock? : s.Reports (net.enabledTransitions · = []) s.deadlock? := by
  cases reported : s.deadlock? with
  | none =>
    intro i a found dead
    have some := finished.deadlock?_isSome_iff.mpr ⟨i, a, found, dead⟩
    simp [reported] at some
  | some i => exact finished.first_deadlock? reported

/-- Without a loss, whatever can be reached has been found. -/
theorem found_of_reachesIn (lossless : s.hitLimits = false) {n : Nat}
    (reached : net.ReachesIn m n x) : ∃ i a, s.At i a ∧ a.marking = x := by
  induction n generalizing x with
  | zero => exact ⟨0, _, finished.start, (Net.reachesIn_zero.mp reached).symm⟩
  | succ n ih =>
    obtain ⟨middle, t, before, fired⟩ := Net.reachesIn_succ.mp reached
    obtain ⟨i, a, found, rfl⟩ := ih before
    obtain ⟨j, b, there, fired'⟩ :=
      finished.successor_of_lossless lossless found (Net.fireTransition_ok fired).2
    exact ⟨j, b, there, Except.ok.inj (fired'.symm.trans fired)⟩

end One

/-! ### Two searches -/

section Two

variable (same : net.Renumbers other) (finished : s.Finished net c m)
  (finished' : w.Finished other c m) (lossless : s.hitLimits = false)
include same finished finished' lossless

/-- If the one search has lost nothing, the other has found all there is: within its depth
it could only lack states, and then it would have found more than the first. -/
theorem found_of_lossless {n : Nat} (reached : other.ReachesIn m n x) :
    ∃ j b, w.At j b ∧ b.marking = x := by
  obtain ⟨i, a, found, rfl⟩ := finished.found_of_reachesIn lossless (same.symm.reachesIn reached)
  by_cases room : w.states.size < c.maxStates
  · exact (finished'.exact room).mpr
      ⟨a.depth, finished.depth i a found, same.reachesIn (finished.reaches found)⟩
  by_contra missing
  have distinct : (a.marking :: w.located.map (·.1)).Nodup := by
    refine List.nodup_cons.mpr ⟨fun member => missing ?_, finished'.markings_nodup⟩
    obtain ⟨⟨y, d⟩, here, rfl⟩ := List.mem_map.mp member
    obtain ⟨j, b, there, marking, _⟩ := mem_located.mp here
    exact ⟨j, b, there, marking⟩
  have among : a.marking :: w.located.map (·.1) ⊆ s.located.map (·.1) := by
    refine List.cons_subset.mpr ⟨List.mem_map.mpr ⟨_, found.located, rfl⟩, fun y member => ?_⟩
    obtain ⟨⟨_, d⟩, here, rfl⟩ := List.mem_map.mp member
    obtain ⟨j, b, there, rfl, rfl⟩ := mem_located.mp here
    obtain ⟨i', a', found', marking⟩ :=
      finished.found_of_reachesIn lossless (same.symm.reachesIn (finished'.reaches there))
    exact List.mem_map.mpr ⟨_, found'.located, marking⟩
  have fewer := (List.subperm_of_subset distinct among).length_le
  simp only [List.length_cons, List.length_map, length_located] at fewer
  have few := finished.count
  omega

/-- A search that has met no limit meets none in another order of the transitions. -/
theorem lossless_of_renumbers : w.hitLimits = false := by
  apply Bool.eq_false_iff.mpr
  intro lossy
  obtain ⟨e, recorded, loss⟩ := hitLimits_iff.mp lossy
  have truth := finished'.holds e recorded
  cases e with
  | overflow source transition place =>
    obtain ⟨b, there, enabled, failed⟩ := truth
    obtain ⟨i, a, found, marking⟩ :=
      finished.found_of_reachesIn lossless (same.symm.reachesIn (finished'.reaches there))
    obtain ⟨t, positions⟩ := same.symm.exists_corresponding (Net.isEnabled_lt enabled)
    rw [same.symm.isEnabled_eq positions, ← marking] at enabled
    obtain ⟨_, _, _, fired⟩ := finished.successor_of_lossless lossless found enabled
    rw [same.symm.fireTransition_eq positions, ← marking, fired] at failed
    cases failed
  | cut source transition =>
    obtain ⟨b, next, there, fired, absent, _⟩ := truth
    have reached : other.ReachesIn m (b.depth + 1) next :=
      Net.reachesIn_succ.mpr ⟨b.marking, transition, finished'.reaches there, fired⟩
    obtain ⟨j, d, known, marking⟩ := finished.found_of_lossless same finished' lossless reached
    exact absent j d known marking
  | edge => cases loss
  | state => cases loss
  | deadlock => cases loss

theorem located_subset : s.located ⊆ w.located := by
  rintro ⟨x, d⟩ member
  obtain ⟨i, a, found, rfl, rfl⟩ := mem_located.mp member
  have reached := same.reachesIn (finished.reaches found)
  obtain ⟨j, b, there, marking⟩ := finished.found_of_lossless same finished' lossless reached
  -- both depths are the distance from the start, and the distances are the same
  have nearer := finished'.shortest there (marking ▸ reached)
  have farther := finished.shortest found (marking ▸ same.symm.reachesIn (finished'.reaches there))
  exact mem_located.mpr ⟨j, b, there, marking, Nat.le_antisymm nearer farther⟩

/-- Without a loss, both searches have found the same markings at the same depths. -/
theorem located_perm : s.located.Perm w.located := by
  have lossless' := finished.lossless_of_renumbers same finished' lossless
  rw [List.perm_ext_iff_of_nodup (.of_map _ finished.markings_nodup)
    (.of_map _ finished'.markings_nodup)]
  intro p
  exact ⟨fun here => finished.located_subset same finished' lossless here,
    fun there => finished'.located_subset same.symm finished lossless' there⟩

end Two

end Finished

/-! ### The findings -/

section Findings

variable (located : s.located.Perm w.located)
include located

/-- What holds of all markings and depths of the one search holds of those of the other. -/
theorem forall_at_iff_of_perm (property : Marking → Nat → Prop) :
    (∀ i a, s.At i a → property a.marking a.depth) ↔
      ∀ i a, w.At i a → property a.marking a.depth := by
  constructor
  · intro all j b there
    obtain ⟨i, a, found, marking, depth⟩ := mem_located.mp (located.mem_iff.mpr there.located)
    exact marking ▸ depth ▸ all i a found
  · intro all i a found
    obtain ⟨j, b, there, marking, depth⟩ := mem_located.mp (located.mem_iff.mp found.located)
    exact marking ▸ depth ▸ all j b there

theorem depthReached_eq_of_perm : s.depthReached = w.depthReached := by
  refine eq_of_forall_ge_iff fun bound => ?_
  rw [depthReached_le_iff, depthReached_le_iff]
  exact forall_at_iff_of_perm located fun _ d => d ≤ bound

theorem maximumAt_eq_of_perm : s.maximumAt = w.maximumAt := by
  funext place
  refine UInt64.toNat_inj.mp (eq_of_forall_ge_iff fun bound => ?_)
  rw [maximumAt_le_iff, maximumAt_le_iff]
  exact forall_at_iff_of_perm located fun x _ => (x.tokens place).toNat ≤ bound

/-- No state of either search shows a defect at a smaller depth than the first one. -/
theorem First.depth_le (finished : s.Finished net c m) {i j : Nat} {a b : State}
    (first : s.First defect i a) (there : w.At j b) (shown : defect b.marking) :
    a.depth ≤ b.depth := by
  obtain ⟨i', a', found, marking, depth⟩ := mem_located.mp (located.mem_iff.mpr there.located)
  have later : i ≤ i' := by
    apply Nat.le_of_not_lt
    intro before
    exact first.earlier i' a' before found (marking ▸ shown)
  exact depth ▸ finished.ordered i i' a a' later first.found found

/-- A defect is reported by both searches or by neither. -/
theorem reported_isSome_eq {reported reported' : Option Nat} (reports : s.Reports defect reported)
    (reports' : w.Reports defect reported') : reported.isSome = reported'.isSome := by
  have none_iff := forall_at_iff_of_perm located fun x _ => ¬ defect x
  cases reported with
  | none =>
    cases reported' with
    | none => rfl
    | some j =>
      obtain ⟨b, first⟩ := reports'
      exact absurd first.shown (none_iff.mp reports j b first.found)
  | some i =>
    cases reported' with
    | none =>
      obtain ⟨a, first⟩ := reports
      exact absurd first.shown (none_iff.mpr reports' i a first.found)
    | some j => rfl

/-- Where a defect is reported, it is at the same depth in both searches. -/
theorem witness_depth_eq (finished : s.Finished net c m) (finished' : w.Finished other c m)
    {reported reported' : Option Nat} (reports : s.Reports defect reported)
    (reports' : w.Reports defect reported') :
    (reported.bind (s.witness? net)).map (·.depth) =
      (reported'.bind (w.witness? other)).map (·.depth) := by
  have both := reported_isSome_eq located reports reports'
  cases reported with
  | none =>
    obtain rfl : reported' = none := by simpa using both.symm
    rfl
  | some i =>
    obtain ⟨j, rfl⟩ := Option.isSome_iff_exists.mp both.symm
    obtain ⟨a, first⟩ := reports
    obtain ⟨b, first'⟩ := reports'
    have depths : a.depth = b.depth :=
      Nat.le_antisymm (first.depth_le located finished first'.found first'.shown)
        (first'.depth_le located.symm finished' first.found first.shown)
    simp [witness?, first.found, first'.found, depths]

end Findings

namespace Finished

variable (same : net.Renumbers other) (finished : s.Finished net c m)
  (finished' : w.Finished other c m)
include same finished finished'

theorem hitLimits_renumbered : w.hitLimits = s.hitLimits := by
  cases lossy : s.hitLimits with
  | false => exact finished.lossless_of_renumbers same finished' lossy
  | true =>
    apply Bool.eq_true_of_not_eq_false
    intro lossless'
    have lossless := finished'.lossless_of_renumbers same.symm finished lossless'
    simp [lossy] at lossless

/-- Without a loss, the findings agree in all but the witnesses, and the witnesses agree in
their depths. -/
theorem findings_renumbered (lossless : s.hitLimits = false) (k : Option Count) :
    let f := s.findings net k
    let f' := w.findings other k
    f' = { f with
      deadlockWitness := f'.deadlockWitness
      kWitness := f'.kWitness
      unsafeWitness := f'.unsafeWitness } ∧
    f.deadlockWitness.map (·.depth) = f'.deadlockWitness.map (·.depth) ∧
    f.kWitness.map (·.depth) = f'.kWitness.map (·.depth) ∧
    f.unsafeWitness.map (·.depth) = f'.unsafeWitness.map (·.depth) := by
  have limits := finished.hitLimits_renumbered same finished'
  have located := finished.located_perm same finished' lossless
  have most := maximumAt_eq_of_perm located
  have dead : (net.enabledTransitions · = []) = (other.enabledTransitions · = []) :=
    funext fun x => propext ⟨same.dead, same.symm.dead⟩
  have ends := finished.reports_deadlock?
  have ends' : w.Reports (net.enabledTransitions · = []) w.deadlock? :=
    dead ▸ finished'.reports_deadlock?
  have exceeding := fun threshold : Count => witness_depth_eq located finished finished'
    (s.reports_exceeding? threshold) (w.reports_exceeding? threshold)
  refine ⟨?_, witness_depth_eq located finished finished' ends ends', ?_, exceeding _⟩
  · have size : s.states.size = w.states.size := by simpa using located.length_eq
    have summary : Boundedness.summarize other = Boundedness.summarize net := by
      funext maxima k exhaustive
      simp only [Boundedness.summarize, same.places]
    simp only [findings, limits, ← most, ← size, ← depthReached_eq_of_perm located,
      ← reported_isSome_eq located ends ends', summary, same.places]
  · cases k with
    | none => rfl
    | some k => exact exceeding k

end Finished

end Search

namespace Net

open Search

/-- Declaring the transitions of a model in another order changes neither whether an
exploration meets its limits nor, if it does not, any finding but the markings and traces of
its witnesses. -/
theorem explore_transitions_reordered {model : Model} {net : Net}
    (compiled : ofModel model = .ok net) {transitions : List Transition}
    (shuffled : model.transitions.Perm transitions) {c : SearchConfig}
    (config : c.validate = .ok ()) {m : Marking} (size : m.size = net.places.length) :
    ∃ other f f', ofModel { model with transitions } = .ok other ∧
      net.explore c m = .ok f ∧ other.explore c m = .ok f' ∧ f'.hitLimits = f.hitLimits ∧
      (f.hitLimits = false →
        f' = { f with
          deadlockWitness := f'.deadlockWitness
          kWitness := f'.kWitness
          unsafeWitness := f'.unsafeWitness } ∧
        f.deadlockWitness.map (·.depth) = f'.deadlockWitness.map (·.depth) ∧
        f.kWitness.map (·.depth) = f'.kWitness.map (·.depth) ∧
        f.unsafeWitness.map (·.depth) = f'.unsafeWitness.map (·.depth)) := by
  have renumbers : model.Renumbers { model with transitions } := ⟨rfl, shuffled, rfl⟩
  obtain ⟨other, compiled', same⟩ := Renumbers.ofModel renumbers compiled
  obtain ⟨s, _, finished, explored⟩ :=
    search_finishes (wellFormed_of_ofModel compiled) config size
  obtain ⟨w, _, finished', explored'⟩ :=
    search_finishes (wellFormed_of_ofModel compiled') config (same.places ▸ size)
  exact ⟨other, _, _, compiled', explored, explored',
    finished.hitLimits_renumbered same finished',
    fun lossless => finished.findings_renumbered same finished' lossless c.k⟩

/-- One token that goes to either of two places and stays there. -/
def fork : Net where
  places := [{ id := "start", tokens := 1 }, { id := "left" }, { id := "right" }]
  transitions := [{ id := "goLeft" }, { id := "goRight" }]
  flows := #[⟨[⟨0, 1⟩], [⟨1, 1⟩]⟩, ⟨[⟨0, 1⟩], [⟨2, 1⟩]⟩]

def forkModel : Model where
  places := fork.places
  transitions := fork.transitions
  arcs := [⟨"a", "start", "goLeft", 1⟩, ⟨"b", "goLeft", "left", 1⟩, ⟨"c", "start", "goRight", 1⟩,
    ⟨"d", "goRight", "right", 1⟩]

theorem explore_fork :
    ∃ f, fork.explore { maxDepth := 1, maxStates := 3 } fork.initialMarking = .ok f ∧
      f.hitLimits = false ∧ f.deadlockWitness.map (·.depth) = some 1 := by
  have start : fork.enabledTransitions fork.initialMarking = [0, 1] := rfl
  have left : fork.enabledTransitions (.ofList [0, 1, 0]) = [] := rfl
  have right : fork.enabledTransitions (.ofList [0, 0, 1]) = [] := rfl
  have goLeft : fork.fireTransition fork.initialMarking 0 = .ok (.ofList [0, 1, 0]) := rfl
  have goRight : fork.fireTransition fork.initialMarking 1 = .ok (.ofList [0, 0, 1]) := rfl
  have apart : fork.initialMarking ≠ .ofList [0, 1, 0] := by decide
  have apart' : fork.initialMarking ≠ .ofList [0, 0, 1] := by decide
  have sides : Marking.ofList [0, 1, 0] ≠ .ofList [0, 0, 1] := by decide
  obtain ⟨s, ran, lossless, dead⟩ : ∃ s,
      Search.run fork { maxDepth := 1, maxStates := 3 } 3 0 (.start fork.initialMarking) =
        .ok s ∧ s.hitLimits = false ∧
        (s.deadlock?.bind (s.witness? fork)).map (·.depth) = some 1 := by
    simp [Search.run, Search.expand, Search.start, Search.discover, Search.follow, Search.note,
      start, left, right, goLeft, goRight, apart, apart', sides, bind, Except.bind, pure,
      Except.pure, Search.hitLimits, Search.deadlock?, Search.witness?, Event.isLoss,
      -Array.any_eq_false]
  exact ⟨_, explore_ok_iff.mpr ⟨s, search_ok_iff.mpr ⟨rfl, rfl, ran⟩, rfl⟩, lossless, dead⟩

/-- The two orders come to the two ends the other way round, and report one at the same depth. -/
theorem explore_transitions_reordered_fork :
    ∃ other f f',
      ofModel { forkModel with transitions := forkModel.transitions.reverse } = .ok other ∧
      fork.explore { maxDepth := 1, maxStates := 3 } fork.initialMarking = .ok f ∧
      other.explore { maxDepth := 1, maxStates := 3 } fork.initialMarking = .ok f' ∧
      f'.hitLimits = false ∧ f'.exploredStates = f.exploredStates ∧
      f'.deadlockWitness.map (·.depth) = some 1 := by
  have compiled : ofModel forkModel = .ok fork := rfl
  obtain ⟨f, explored, lossless, dead⟩ := explore_fork
  obtain ⟨other, _, f', compiled', same, explored', limits, kept⟩ :=
    explore_transitions_reordered compiled (List.reverse_perm _).symm
      (c := { maxDepth := 1, maxStates := 3 }) rfl (m := fork.initialMarking) rfl
  obtain rfl := Except.ok.inj (explored.symm.trans same)
  obtain ⟨equal, depth, _⟩ := kept lossless
  exact ⟨other, f, f', compiled', explored, explored', limits.trans lossless, by rw [equal],
    depth ▸ dead⟩

end Net

end TokenGame
