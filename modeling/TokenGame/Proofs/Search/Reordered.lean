import TokenGame.Proofs.Net.Reordered
import TokenGame.Proofs.Search.Findings

/-! Searches in nets whose places stand in different orders. The two searches take every
step alike: they number the same states in the same order, drop the same successors, and
find the same deadlocks, so their findings differ in the order of the verdicts alone. -/
namespace TokenGame

/-- An event without what depends on the order of the places: the counts of a marking,
and which of several places is the first to overflow. -/
def Event.outline : Event → Event
  | .state index _ depth => .state index (.ofList []) depth
  | .overflow source transition _ => .overflow source transition ""
  | e => e

@[simp] theorem Event.isLoss_outline (e : Event) : e.outline.isLoss = e.isLoss := by
  cases e <;> rfl

@[simp] theorem Event.deadlock?_outline (e : Event) : e.outline.deadlock? = e.deadlock? := by
  cases e <;> rfl

attribute [ext] Findings

structure State.Alike (net other : Net) (a b : State) : Prop where
  marking : Net.Alike net other a.marking b.marking
  depth : a.depth = b.depth
  parent : a.parent = b.parent

/-- How two searches stand that have taken the same steps. -/
structure Search.Alike (net other : Net) (s w : Search) : Prop where
  size : s.states.size = w.states.size
  states : ∀ i a b, s.At i a → w.At i b → a.Alike net other b
  known : ∀ x y, Net.Alike net other x y → s.known[x]? = w.known[y]?
  events : s.events.map Event.outline = w.events.map Event.outline

namespace Search.Alike

variable {net other : Net} {c : SearchConfig} {m n : Marking} {s s' w : Search}
  {a b : State} {index t : Nat}

theorem note (alike : Alike net other s w) {e d : Event} (same : e.outline = d.outline) :
    Alike net other (s.note e) (w.note d) :=
  ⟨alike.size, alike.states, alike.known, by simp [Search.note, alike.events, same]⟩

section Steps

variable (same : net.Reorders other)
include same

theorem discover (alike : Alike net other s w) (new : a.Alike net other b) :
    Alike net other (s.discover a) (w.discover b) where
  size := by simp [alike.size]
  states i x y left right := by
    have size := alike.size
    rcases discover_cases left with ⟨last, rfl⟩ | ⟨before, left⟩ <;>
      rcases discover_cases right with ⟨last', rfl⟩ | ⟨before', right⟩
    · exact new
    · omega
    · omega
    · exact alike.states i x y left right
  known x y markings := by
    rw [getElem?_known_discover, getElem?_known_discover, alike.known x y markings, alike.size]
    simp only [new.marking.eq_iff same markings]
  events := by
    simp [Search.discover, alike.events, alike.size, Event.outline, new.depth]

/-- What one search does with a transition the other does too. -/
theorem step (alike : Alike net other s w) (origin : a.Alike net other b)
    (way : Step net c index a t s s') :
    ∃ w', Step other c index b t w w' ∧ Alike net other s' w' := by
  cases way with
  | overflow failed =>
    obtain ⟨place, failed'⟩ := origin.marking.fireTransition_overflow same failed
    exact ⟨_, .overflow failed', alike.note rfl⟩
  | old fired seen =>
    obtain ⟨next, fired', markings⟩ := origin.marking.fireTransition_ok same fired
    exact ⟨_, .old fired' (alike.known _ _ markings ▸ seen), alike.note rfl⟩
  | cut fired fresh full =>
    obtain ⟨next, fired', markings⟩ := origin.marking.fireTransition_ok same fired
    refine ⟨_, .cut fired' (alike.known _ _ markings ▸ fresh) ?_, alike.note rfl⟩
    exact origin.depth ▸ alike.size ▸ full
  | new fired fresh shallow room =>
    obtain ⟨next, fired', markings⟩ := origin.marking.fireTransition_ok same fired
    have found : State.Alike net other ⟨_, a.depth + 1, some (index, t)⟩
        ⟨next, b.depth + 1, some (index, t)⟩ := ⟨markings, congrArg (· + 1) origin.depth, rfl⟩
    exact ⟨_, .new fired' (alike.known _ _ markings ▸ fresh) (origin.depth ▸ shallow)
      (alike.size ▸ room), (alike.discover same found).note (by rw [alike.size])⟩

theorem follow_all (alike : Alike net other s w) (origin : a.Alike net other b) {ts : List Nat}
    (done : ts.foldlM (follow net c index a) s = .ok s') :
    ∃ w', ts.foldlM (follow other c index b) w = .ok w' ∧ Alike net other s' w' := by
  induction ts generalizing s w with
  | nil =>
    cases done
    exact ⟨w, rfl, alike⟩
  | cons t rest ih =>
    obtain ⟨middle, way, later⟩ := foldlM_follow_cons.mp done
    obtain ⟨middle', way', kept⟩ := alike.step same origin way
    obtain ⟨w', later', ended⟩ := ih kept later
    exact ⟨w', foldlM_follow_cons.mpr ⟨middle', way', later'⟩, ended⟩

theorem expand (alike : Alike net other s w) (waiting : index < s.states.size)
    (done : s.expand net c index = .ok s') :
    ∃ w', w.expand other c index = .ok w' ∧ Alike net other s' w' := by
  have here : s.At index s.states[index] := Array.getElem?_eq_getElem waiting
  have there : w.At index _ := Array.getElem?_eq_getElem (alike.size ▸ waiting)
  have origin := alike.states index _ _ here there
  rw [expand_eq here] at done
  rw [expand_eq there, ← origin.marking.enabledTransitions_eq same]
  split at done
  · cases done
    exact ⟨_, if_pos ‹_›, alike.note rfl⟩
  · rw [if_neg ‹_›]
    exact alike.follow_all same origin done

theorem run {rounds : Nat} (alike : Alike net other s w)
    (done : Search.run net c rounds index s = .ok s') :
    ∃ w', Search.run other c rounds index w = .ok w' ∧ Alike net other s' w' := by
  induction rounds generalizing index s w with
  | zero =>
    cases done
    exact ⟨w, rfl, alike⟩
  | succ rounds ih =>
    by_cases waiting : index < s.states.size
    · obtain ⟨middle, expanded, later⟩ := (run_waiting waiting).mp done
      obtain ⟨middle', expanded', kept⟩ := alike.expand same waiting expanded
      obtain ⟨w', later', ended⟩ := ih kept later
      exact ⟨w', (run_waiting (alike.size ▸ waiting)).mpr ⟨middle', expanded', later'⟩, ended⟩
    · rw [run_done waiting] at done
      cases done
      exact ⟨w, run_done (alike.size ▸ waiting), alike⟩

theorem start (markings : Net.Alike net other m n) :
    Alike net other (.start m) (.start n) := by
  have empty : Alike net other ⟨#[], {}, #[]⟩ ⟨#[], {}, #[]⟩ :=
    ⟨rfl, by simp [At], by simp, rfl⟩
  exact empty.discover same ⟨markings, rfl, rfl⟩

end Steps

section Findings

variable (alike : Alike net other s w)
include alike

theorem at_cases (i : Nat) : (s.states[i]? = none ∧ w.states[i]? = none) ∨
    ∃ a b, s.At i a ∧ w.At i b ∧ a.Alike net other b := by
  by_cases inside : i < s.states.size
  · have here : s.At i s.states[i] := Array.getElem?_eq_getElem inside
    have there : w.At i _ := Array.getElem?_eq_getElem (alike.size ▸ inside)
    exact .inr ⟨_, _, here, there, alike.states i _ _ here there⟩
  · have beyond : ¬ i < w.states.size := alike.size ▸ inside
    exact .inl ⟨Array.getElem?_eq_none (Nat.not_lt.mp inside),
      Array.getElem?_eq_none (Nat.not_lt.mp beyond)⟩

theorem map_eq {α : Type} {left right : State → α}
    (agree : ∀ a b, a.Alike net other b → left a = right b) :
    s.states.toList.map left = w.states.toList.map right := by
  apply List.ext_getElem?
  intro i
  rcases alike.at_cases i with ⟨here, there⟩ | ⟨a, b, here, there, same⟩
  · simp [here, there]
  · simp [here, there, agree a b same]

theorem hitLimits_eq : s.hitLimits = w.hitLimits := by
  have outlined : ∀ r : Search, r.hitLimits = (r.events.map Event.outline).any (·.isLoss) :=
    fun r => by simp [hitLimits]
  rw [outlined, outlined, alike.events]

theorem deadlock?_eq : s.deadlock? = w.deadlock? := by
  have outlined : ∀ r : Search, r.deadlock? =
      (r.events.map Event.outline).findSome? (·.deadlock?) := fun r => by
    rw [Array.findSome?_map]
    simp only [Function.comp_def, Event.deadlock?_outline]
    rfl
  rw [outlined, outlined, alike.events]

theorem depthReached_eq : s.depthReached = w.depthReached := by
  have listed : ∀ r : Search, r.depthReached = (r.states.toList.map (·.depth)).foldl max 0 :=
    fun r => by rw [List.foldl_map, Array.foldl_toList, depthReached]
  rw [listed, listed, alike.map_eq fun _ _ same => same.depth]

theorem maximumAt_eq {i j : Nat} (positions : net.Matches other i j) :
    s.maximumAt i = w.maximumAt j := by
  have listed : ∀ (r : Search) (place : Nat), r.maximumAt place =
      (r.states.toList.map (·.marking.tokens place)).foldl max 0 :=
    fun r place => by rw [List.foldl_map, Array.foldl_toList, maximumAt]
  rw [listed, listed, alike.map_eq fun _ _ same => same.marking.tokens i j positions]

theorem exceeding?_eq (same : net.Reorders other) (threshold : Count) :
    s.exceeding? threshold = w.exceeding? threshold := by
  have listed : ∀ r : Search, r.exceeding? threshold =
      (r.states.toList.map (·.marking.maximum)).findIdx? (threshold < ·) := fun r => by
    rw [List.findIdx?_map, exceeding?, ← List.findIdx?_toArray, Array.toArray_toList]
    rfl
  rw [listed, listed, alike.map_eq fun _ _ states => states.marking.maximum_eq same]

theorem walk_eq (steps i : Nat) (path : List Nat) :
    pathTo.walk s steps i path = pathTo.walk w steps i path := by
  induction steps generalizing i path with
  | zero => rfl
  | succ steps ih =>
    rcases alike.at_cases i with ⟨here, there⟩ | ⟨a, b, here, there, same⟩
    · simp [pathTo.walk, here, there]
    · simp only [pathTo.walk, here, there, Option.bind_some, same.parent, ih]

theorem witness?_eq (same : net.Reorders other) (i : Nat) :
    s.witness? net i = w.witness? other i := by
  have names : net.transitionName = other.transitionName := by
    funext t
    rw [Net.transitionName, Net.transitionName, same.transitions]
  rcases alike.at_cases i with ⟨here, there⟩ | ⟨a, b, here, there, states⟩
  · simp [witness?, here, there]
  · simp [witness?, here, there, states.marking.markingToMap_eq same, states.depth, pathTo,
      alike.walk_eq, names]

/-- The verdicts on the places are those of the other search in the order of its places. -/
theorem placeVerdicts_eq (same : net.Reorders other) (k : Option Count) :
    ∃ verdict : Place → PlaceVerdict,
      (s.findings net k).placeVerdicts = net.places.map verdict ∧
      (w.findings other k).placeVerdicts = other.places.map verdict := by
  rw [placeVerdicts_findings, placeVerdicts_findings, alike.hitLimits_eq]
  exact same.mapIdx_eq_map _ fun i j positions => alike.maximumAt_eq positions

theorem minimalKObserved_eq (same : net.Reorders other) (k : Option Count) :
    (s.findings net k).minimalKObserved = (w.findings other k).minimalKObserved := by
  refine UInt64.toNat_inj.mp (eq_of_forall_ge_iff fun bound => ?_)
  rw [minimalKObserved_findings, minimalKObserved_findings, Count.toNat_maximum_le_iff,
    Count.toNat_maximum_le_iff]
  simp only [List.forall_mem_map, List.mem_range]
  exact same.forall_iff fun i j positions => by rw [alike.maximumAt_eq positions]

/-- All other findings are the same. -/
theorem findings_eq (same : net.Reorders other) (k : Option Count) :
    w.findings other k =
      { s.findings net k with placeVerdicts := (w.findings other k).placeVerdicts } := by
  have limits := alike.hitLimits_eq
  have most := alike.minimalKObserved_eq same k
  have shown : s.witness? net = w.witness? other := funext (alike.witness?_eq same)
  have exceeds : s.exceeding? = w.exceeding? := funext (alike.exceeding?_eq same)
  apply Findings.ext
  case deadlocked => exact congrArg Option.isSome alike.deadlock?_eq.symm
  case isKBounded => rw [isKBounded_findings, isKBounded_findings, most, limits]
  case isSafe => rw [isSafe_findings, isSafe_findings, most, limits]
  case bound =>
    have bounded : ∀ (net : Net) (r : Search), (r.findings net k).bound =
        if !r.hitLimits then some (r.findings net k).minimalKObserved else none := fun _ _ => rfl
    rw [bounded, bounded, most, limits]
  case perPlaceMax => exact (same.ofList_eq fun i j positions => alike.maximumAt_eq positions).symm
  case placeVerdicts => rfl
  case minimalKObserved => exact most.symm
  case exploredStates => exact alike.size.symm
  case depthReached => exact alike.depthReached_eq.symm
  case hitLimits => exact limits.symm
  case k => rfl
  case deadlockWitness => simp only [findings, alike.deadlock?_eq, shown]
  case kWitness => simp only [findings, exceeds, shown]
  case unsafeWitness => simp only [findings, exceeds, shown]

end Findings

end Search.Alike

/-- A search in one order of the places has a counterpart in the other. -/
theorem Net.Reorders.search {net other : Net} {c : SearchConfig} {m n : Marking} {s : Search}
    (same : net.Reorders other) (markings : Net.Alike net other m n)
    (searched : net.search c m = .ok s) :
    ∃ w, other.search c n = .ok w ∧ Search.Alike net other s w := by
  obtain ⟨config, _, ran⟩ := search_ok_iff.mp searched
  obtain ⟨w, ran', alike⟩ := (Search.Alike.start same markings).run same ran
  exact ⟨w, search_ok_iff.mpr ⟨config, markings.size', ran'⟩, alike⟩

end TokenGame
