import TokenGame.Proofs.Search.Findings

/-! One search under two budgets. The searches do the same until the tighter limits
cut a successor; from then on the tighter search finds no new state, and the wider one
only adds to what both have found. So the states of the tighter search come first
among those of the wider one, and what its report has settled stays settled. -/
namespace TokenGame

/-- The same question under limits that are at least as wide. -/
structure SearchConfig.Within (c wide : SearchConfig) : Prop where
  k : wide.k = c.k
  depth : c.maxDepth ≤ wide.maxDepth
  states : c.maxStates ≤ wide.maxStates

/-- What one report says of a place stands in a later one. -/
structure PlaceVerdict.Kept (v later : PlaceVerdict) : Prop where
  place : later.place = v.place
  most : v.maxTokens ≤ later.maxTokens
  kBounded : v.kBounded = some .no → later.kBounded = some .no
  safe : v.safe = .no → later.safe = .no

/-- What one report says stands in a later one: numbers do not fall, refutations and
witnesses stay, and a report that met no limit is final. -/
structure Findings.Kept (f later : Findings) : Prop where
  exploredStates : f.exploredStates ≤ later.exploredStates
  depthReached : f.depthReached ≤ later.depthReached
  minimalKObserved : f.minimalKObserved ≤ later.minimalKObserved
  perPlaceMax : ∀ id, Option.Rel (· ≤ ·) (f.perPlaceMax.get? id) (later.perPlaceMax.get? id)
  isKBounded : f.isKBounded = some .no → later.isKBounded = some .no
  isSafe : f.isSafe = .no → later.isSafe = .no
  placeVerdicts : List.Forall₂ PlaceVerdict.Kept f.placeVerdicts later.placeVerdicts
  deadlocked : f.deadlocked = true → later.deadlocked = true
  deadlockWitness : ∀ w, f.deadlockWitness = some w → later.deadlockWitness = some w
  kWitness : ∀ w, f.kWitness = some w → later.kWitness = some w
  unsafeWitness : ∀ w, f.unsafeWitness = some w → later.unsafeWitness = some w
  final : f.hitLimits = false → later = f

namespace Search

variable {net : Net} {c wide : SearchConfig} {m : Marking} {index t : Nat} {origin : State}
  {followed : List Nat} {s s' w w' : Search}

/-- Some successor was dropped because of the limits. -/
def HasCut (s : Search) : Prop := ∃ i t, Event.cut i t ∈ s.events

/-- The states of `s` are the first ones of `w`. -/
def Starts (s w : Search) : Prop := ∀ i a, s.At i a → w.At i a

/-- How a search stands to one under wider limits that has expanded as many states. -/
inductive Behind (s : Search) : Search → Prop where
  | same : Behind s s
  | cut {w : Search} : s.HasCut → s.Starts w → Behind s w

theorem Behind.starts (behind : s.Behind w) : s.Starts w := by
  cases behind with
  | same => exact fun _ _ found => found
  | cut _ starts => exact starts

theorem Behind.note (behind : s.Behind w) (e : Event) : (s.note e).Behind (w.note e) := by
  cases behind with
  | same => exact .same
  | cut dropped starts =>
    obtain ⟨i, t, member⟩ := dropped
    exact .cut ⟨i, t, mem_events_note.mpr (.inl member)⟩ starts

/-! ### One step under both budgets -/

theorem Step.deterministic (left : Step net c index origin t s s')
    (right : Step net c index origin t s w') : s' = w' :=
  Except.ok.inj ((follow_ok_iff.mpr left).symm.trans (follow_ok_iff.mpr right))

/-- Wider limits change nothing in a step but a cut. -/
theorem Step.widen (within : c.Within wide) (way : Step net c index origin t s s') :
    s' = s.note (.cut index t) ∨ Step net wide index origin t s s' := by
  cases way with
  | overflow failed => exact .inr (.overflow failed)
  | old fired seen => exact .inr (.old fired seen)
  | cut => exact .inl rfl
  | new fired fresh shallow room =>
    exact .inr (.new fired fresh (Nat.lt_of_lt_of_le shallow within.depth)
      (Nat.lt_of_lt_of_le room within.states))

theorem Step.hasCut (way : Step net c index origin t s s') (dropped : s.HasCut) :
    s'.HasCut := by
  obtain ⟨i, u, member⟩ := dropped
  refine ⟨i, u, ?_⟩
  cases way with
  | overflow | old | cut => exact mem_events_note.mpr (.inl member)
  | new => exact mem_events_note.mpr (.inl (mem_events_discover.mpr (.inl member)))

/-- A search that has cut a successor finds no new state. -/
theorem Invariant.frozen (valid : Invariant net c m index followed s)
    (current : s.At index origin) (dropped : s.HasCut)
    (way : Step net c index origin t s s') : s'.states = s.states := by
  cases way with
  | overflow | old | cut => rfl
  | new _ _ shallow room =>
    obtain ⟨i, u, member⟩ := dropped
    exact absurd rfl (valid.no_cut current shallow room member i u)

theorem Behind.step (within : c.Within wide) (valid : Invariant net c m index followed s)
    (current : s.At index origin) (behind : s.Behind w)
    (left : Step net c index origin t s s') (right : Step net wide index origin t w w') :
    s'.Behind w' := by
  cases behind with
  | same =>
    rcases left.widen within with rfl | left
    · refine .cut ⟨index, t, mem_events_note.mpr (.inr rfl)⟩ ?_
      exact fun _ _ found => right.keeps found
    · obtain rfl := left.deterministic right
      exact .same
  | cut dropped starts =>
    refine .cut (left.hasCut dropped) fun i a found => right.keeps (starts i a ?_)
    rwa [At, valid.frozen current dropped left] at found

/-! ### Whole searches under both budgets -/

theorem Behind.follow_all (within : c.Within wide)
    (valid : Invariant net c m index followed s) (current : s.At index origin)
    (behind : s.Behind w) {ts : List Nat}
    (enabled : ∀ t ∈ ts, net.isEnabled origin.marking t = true)
    (left : ts.foldlM (follow net c index origin) s = .ok s')
    (right : ts.foldlM (follow net wide index origin) w = .ok w') : s'.Behind w' := by
  induction ts generalizing s w followed with
  | nil =>
    cases left
    cases right
    exact behind
  | cons t rest ih =>
    obtain ⟨s₁, first, left⟩ := foldlM_follow_cons.mp left
    obtain ⟨w₁, firstWide, right⟩ := foldlM_follow_cons.mp right
    obtain ⟨current₁, valid₁⟩ := valid.step current (enabled t (.head rest)) first
    exact ih valid₁ current₁ (behind.step within valid current first firstWide)
      (fun u member => enabled u (.tail t member)) left right

theorem Behind.expand (within : c.Within wide) (valid : Invariant net c m index [] s)
    (current : s.At index origin) (behind : s.Behind w)
    (left : s.expand net c index = .ok s') (right : w.expand net wide index = .ok w') :
    s'.Behind w' := by
  rw [expand_eq current] at left
  rw [expand_eq (behind.starts index origin current)] at right
  by_cases dead : net.enabledTransitions origin.marking = []
  · rw [if_pos dead] at left right
    cases left
    cases right
    exact behind.note _
  · rw [if_neg dead] at left right
    exact behind.follow_all within valid current (fun _ => Net.mem_enabledTransitions.mp) left right

theorem run_starts {rounds : Nat} (ran : run net c rounds index s = .ok s') : s.Starts s' :=
  run_preserves (fun _ way starts i a found => way.keeps (starts i a found))
    (fun _ starts => starts) ran fun _ _ found => found

/-- A search with nothing left to expand stays behind one that goes on. -/
theorem Behind.stop {rounds : Nat} (expanded : ¬ index < s.states.size) (behind : s.Behind w)
    (right : run net wide rounds index w = .ok w') : s.Behind w' := by
  cases behind with
  | same =>
    rw [run_done expanded] at right
    cases right
    exact .same
  | cut dropped starts =>
    exact .cut dropped fun i a found => run_starts right i a (starts i a found)

/-- Searches that run to their ends keep in step. -/
theorem Behind.run (wellFormed : net.WellFormed) (size : m.size = net.places.length)
    (within : c.Within wide) {rounds roundsWide : Nat}
    (enough : c.maxStates ≤ index + rounds) (enoughWide : wide.maxStates ≤ index + roundsWide)
    (valid : Invariant net c m index [] s) (behind : s.Behind w)
    (left : run net c rounds index s = .ok s')
    (right : run net wide roundsWide index w = .ok w') : s'.Behind w' := by
  have count := valid.count
  induction rounds generalizing index s w roundsWide with
  | zero =>
    cases left
    exact behind.stop (by omega) right
  | succ rounds ih =>
    by_cases waiting : index < s.states.size
    · have current : s.At index s.states[index] := Array.getElem?_eq_getElem waiting
      obtain ⟨s₁, expanded, left⟩ := (run_waiting waiting).mp left
      obtain ⟨_, same, _, valid₁⟩ := expand_invariant wellFormed size valid waiting
      obtain rfl := Except.ok.inj (expanded.symm.trans same)
      obtain ⟨k, rfl⟩ : ∃ k, roundsWide = k + 1 := by
        have := within.states
        exact Nat.exists_eq_succ_of_ne_zero (by omega)
      have waitingWide := (behind.starts _ _ current).lt
      obtain ⟨w₁, expandedWide, right⟩ := (run_waiting waitingWide).mp right
      exact ih (by omega) (by omega) valid₁
        (behind.expand within valid current expanded expandedWide) left right valid₁.count
    · rw [run_done waiting] at left
      cases left
      exact behind.stop waiting right

/-! ### What the reports have in common -/

namespace Starts

variable (starts : s.Starts w)
include starts

theorem states_prefix : s.states.toList <+: w.states.toList := by
  rw [List.prefix_iff_getElem?]
  intro i bound
  have found : s.At i s.states.toList[i] := by simp [At]
  simpa [At] using starts i _ found

theorem depthReached_le : s.depthReached ≤ w.depthReached :=
  depthReached_le_iff.mpr fun i a found =>
    depthReached_le_iff.mp (Nat.le_refl _) i a (starts i a found)

theorem maximumAt_le (place : Nat) : s.maximumAt place ≤ w.maximumAt place :=
  UInt64.le_iff_toNat_le.mpr <| maximumAt_le_iff.mpr fun i a found =>
    maximumAt_le_iff.mp (Nat.le_refl _) i a (starts i a found)

theorem minimalKObserved_le (net : Net) (k : Option Count) :
    (s.findings net k).minimalKObserved ≤ (w.findings net k).minimalKObserved :=
  UInt64.le_iff_toNat_le.mpr <| minimalKObserved_le_iff.mpr fun i a found =>
    minimalKObserved_le_iff.mp (Nat.le_refl _) i a (starts i a found)

theorem exceeding? {threshold : Count} {i : Nat} (reported : s.exceeding? threshold = some i) :
    w.exceeding? threshold = some i := by
  have listed : ∀ r : Search, r.exceeding? threshold =
      r.states.toList.findIdx? fun state => threshold < state.marking.maximum := fun r => by
    rw [Search.exceeding?, ← List.findIdx?_toArray, Array.toArray_toList]
  rw [listed] at reported ⊢
  exact starts.states_prefix.findIdx?_eq_some reported

theorem deadAt_eq {i : Nat} (bound : i < s.states.size) : w.deadAt net i = s.deadAt net i := by
  have found : s.At i s.states[i] := Array.getElem?_eq_getElem bound
  rw [deadAt, deadAt, found, starts i _ found]

theorem placeVerdicts_kept (k : Option Count) : List.Forall₂ PlaceVerdict.Kept
    (s.findings net k).placeVerdicts (w.findings net k).placeVerdicts := by
  rw [placeVerdicts_findings, placeVerdicts_findings, List.forall₂_iff_get]
  refine ⟨by simp, fun i left right => ?_⟩
  simp only [List.get_eq_getElem, List.getElem_mapIdx]
  have most := starts.maximumAt_le i
  constructor
  · rfl
  · exact most
  · cases k with
    | none => exact fun asked => asked
    | some k => simpa [Boundedness.ofPlace] using Verdict.forBound_no_of_le most
  · exact Verdict.forBound_no_of_le most

end Starts

namespace Finished

variable (finished : s.Finished net c m) (starts : s.Starts w)
include finished starts

theorem deadlock?_kept (finishedWide : w.Finished net wide m) {i : Nat}
    (reported : s.deadlock? = some i) : w.deadlock? = some i := by
  rw [finished.deadlock?_eq, List.find?_range_eq_some] at reported
  rw [finishedWide.deadlock?_eq, List.find?_range_eq_some]
  obtain ⟨dead, member, earlier⟩ := reported
  have bound := List.mem_range.mp member
  have found := starts i _ (Array.getElem?_eq_getElem bound)
  refine ⟨?_, List.mem_range.mpr found.lt, fun j before => ?_⟩
  · rwa [starts.deadAt_eq bound]
  · rw [starts.deadAt_eq (Nat.lt_trans before bound)]
    exact earlier j before

theorem walk_eq {steps i : Nat} {a : State} (found : s.At i a) (path : List Nat) :
    pathTo.walk w steps i path = pathTo.walk s steps i path := by
  induction steps generalizing i a path with
  | zero => rfl
  | succ steps ih =>
    simp only [pathTo.walk, found, starts i a found, Option.bind_some]
    cases i with
    | zero =>
      obtain rfl := At.det finished.start found
      rfl
    | succ i =>
      obtain ⟨j, t, b, parent, _, source, _⟩ := finished.parent i a found
      simp only [parent]
      exact ih source _

/-- The witness of a state is the same in both searches. -/
theorem witness_kept {reported later : Option Nat}
    (kept : ∀ i, reported = some i → later = some i) {v : Witness}
    (shown : reported.bind (s.witness? net) = some v) :
    later.bind (w.witness? net) = some v := by
  obtain ⟨i, here, shown⟩ := Option.bind_eq_some_iff.mp shown
  obtain ⟨a, found, rfl⟩ := Option.map_eq_some_iff.mp shown
  rw [kept i here, Option.bind_some, witness?, starts i a found, Option.map_some, pathTo,
    finished.walk_eq starts found]
  rfl

end Finished

end Search

namespace Net

open Search

variable {net : Net} {c wide : SearchConfig} {m : Marking} {s w : Search}

/-- Maps by place compare as the counts that they are made from. -/
theorem WellFormed.rel_ofList_places (wellFormed : net.WellFormed)
    {relation : Count → Count → Prop} {left right : Nat → Count}
    (related : ∀ i, relation (left i) (right i)) (id : String) : Option.Rel relation
      ((TokenMap.ofList (net.places.mapIdx fun i p => (p.id, left i))).get? id)
      ((TokenMap.ofList (net.places.mapIdx fun i p => (p.id, right i))).get? id) := by
  by_cases declared : ∃ i, ∃ bound : i < net.places.length, net.places[i].id = id
  · obtain ⟨i, bound, rfl⟩ := declared
    rw [wellFormed.get?_ofList_places left bound, wellFormed.get?_ofList_places right bound]
    exact .some (related i)
  · have absent : ∀ value : Nat → Count,
        (TokenMap.ofList (net.places.mapIdx fun i p => (p.id, value i))).get? id = none := by
      intro value
      apply TokenMap.get?_foldl_absent
      rintro e member rfl
      obtain ⟨i, bound, rfl⟩ := List.mem_mapIdx.mp member
      exact declared ⟨i, bound, rfl⟩
    rw [absent, absent]
    exact .none

theorem search_behind (wellFormed : net.WellFormed) (within : c.Within wide)
    (left : net.search c m = .ok s) (right : net.search wide m = .ok w) : s.Behind w := by
  obtain ⟨config, size, left⟩ := search_ok_iff.mp left
  obtain ⟨_, _, right⟩ := search_ok_iff.mp right
  have room := (SearchConfig.validate_ok_iff.mp config).2
  exact Behind.run wellFormed size within (Nat.le_add_left ..) (Nat.le_add_left ..)
    (start_invariant c m room) .same left right

/-- The report of a search stands under wider limits. -/
theorem findings_kept (wellFormed : net.WellFormed) (finished : s.Finished net c m)
    (finishedWide : w.Finished net wide m) (behind : s.Behind w) (k : Option Count) :
    (s.findings net k).Kept (w.findings net k) := by
  have starts := behind.starts
  have most := starts.minimalKObserved_le net k
  constructor
  case exploredStates => simpa [findings] using starts.states_prefix.length_le
  case depthReached => exact starts.depthReached_le
  case minimalKObserved => exact most
  case perPlaceMax => exact wellFormed.rel_ofList_places starts.maximumAt_le
  case isKBounded =>
    rw [isKBounded_findings, isKBounded_findings]
    cases k with
    | none => exact fun asked => asked
    | some k => simpa using Verdict.forBound_no_of_le most
  case isSafe =>
    rw [isSafe_findings, isSafe_findings]
    exact Verdict.forBound_no_of_le most
  case placeVerdicts => exact starts.placeVerdicts_kept k
  case deadlocked =>
    intro dead
    obtain ⟨i, reported⟩ := Option.isSome_iff_exists.mp dead
    exact Option.isSome_iff_exists.mpr
      ⟨i, finished.deadlock?_kept starts finishedWide reported⟩
  case deadlockWitness =>
    exact fun v => finished.witness_kept starts fun _ => finished.deadlock?_kept starts finishedWide
  case kWitness =>
    refine fun v => finished.witness_kept starts fun i reported => ?_
    obtain ⟨k, rfl, exceeded⟩ := Option.bind_eq_some_iff.mp reported
    exact starts.exceeding? exceeded
  case unsafeWitness => exact fun v => finished.witness_kept starts fun _ => starts.exceeding?
  case final =>
    intro lossless
    cases behind with
    | same => rfl
    | cut dropped =>
      obtain ⟨i, t, member⟩ := dropped
      have loss : s.hitLimits = true := hitLimits_iff.mpr ⟨_, member, rfl⟩
      exact absurd (loss.symm.trans lossless) (by simp)

/-- Wider limits only add: what was visited comes first, in the same order, and the
report stands; a report that met no limit does not change at all. -/
theorem explore_kept_by_wider_limits {model : Model} {net : Net}
    (compiled : ofModel model = .ok net) {c wide : SearchConfig} (config : c.validate = .ok ())
    (within : c.Within wide) (m : Marking) :
    (m.size = net.places.length → ∃ s w f later,
      net.search c m = .ok s ∧ net.search wide m = .ok w ∧
      net.explore c m = .ok f ∧ net.explore wide m = .ok later ∧
      s.states.toList <+: w.states.toList ∧ f.Kept later) ∧
    (m.size ≠ net.places.length →
      net.explore c m = .error (.foreignMarking net.places.length m.size) ∧
      net.explore wide m = .error (.foreignMarking net.places.length m.size)) := by
  have wellFormed := wellFormed_of_ofModel compiled
  have configWide : wide.validate = .ok () := by
    have positive := SearchConfig.validate_ok_iff.mp config
    have := within.depth
    have := within.states
    exact SearchConfig.validate_ok_iff.mpr (by omega)
  constructor
  · intro size
    obtain ⟨s, searched, finished, explored⟩ := search_finishes wellFormed config size
    obtain ⟨w, searchedWide, finishedWide, exploredWide⟩ :=
      search_finishes wellFormed configWide size
    have behind := search_behind wellFormed within searched searchedWide
    rw [within.k] at exploredWide
    exact ⟨s, w, _, _, searched, searchedWide, explored, exploredWide,
      behind.starts.states_prefix, findings_kept wellFormed finished finishedWide behind c.k⟩
  · intro foreign
    simp [explore, search_foreign config foreign, search_foreign configWide foreign, Except.map]

theorem explore_kept_by_wider_limits_transfer :
    ∃ s w f later,
      transfer.search { k := some 1, maxDepth := 1, maxStates := 2 } (.ofList [2, 0]) = .ok s ∧
      transfer.search { k := some 1, maxDepth := 3, maxStates := 8 } (.ofList [2, 0]) = .ok w ∧
      transfer.explore { k := some 1, maxDepth := 1, maxStates := 2 } (.ofList [2, 0]) = .ok f ∧
      transfer.explore { k := some 1, maxDepth := 3, maxStates := 8 } (.ofList [2, 0]) =
        .ok later ∧
      s.states.toList <+: w.states.toList ∧ f.Kept later := by
  have within : SearchConfig.Within { k := some 1, maxDepth := 1, maxStates := 2 }
      { k := some 1, maxDepth := 3, maxStates := 8 } := ⟨rfl, by decide, by decide⟩
  exact (explore_kept_by_wider_limits ofModel_transfer rfl within (.ofList [2, 0])).1 rfl

end Net

end TokenGame
