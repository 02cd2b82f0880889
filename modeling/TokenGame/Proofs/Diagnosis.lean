import TokenGame.Net.Diagnosis
import TokenGame.Proofs.Net.Links
import TokenGame.Proofs.Net.Monotone
import TokenGame.Proofs.Net.Outcome
import TokenGame.Proofs.Search.BreadthFirst
import TokenGame.Simulation.Session

/-! What a diagnosis means for the token game. It looks at lists of links only, but the weights
of a compiled net are positive, so that a transition without inputs is one that nothing can
disable, one without outputs too is one that does nothing, and a place without links is one that
no firing changes. A net with a transition that nothing can disable has no deadlock. -/
namespace TokenGame

namespace Net

variable {model : Model} {net : Net} {m next : Marking} {t i : Nat}

/-! ### The lists -/

theorem WellFormed.transitionName_inj (wellFormed : net.WellFormed) {u : Nat}
    (left : t < net.transitions.length) (right : u < net.transitions.length)
    (same : net.transitionName t = net.transitionName u) : t = u := by
  have found := wellFormed.transitionIndex?_transitionName left
  rw [same, wellFormed.transitionIndex?_transitionName right] at found
  exact (Option.some.inj found).symm

theorem WellFormed.placeName_inj (wellFormed : net.WellFormed) {j : Nat}
    (left : i < net.places.length) (right : j < net.places.length)
    (same : net.placeName i = net.placeName j) : i = j := by
  have here := List.getElem?_eq_getElem left
  have there := List.getElem?_eq_getElem right
  rw [placeName_eq here, placeName_eq there] at same
  have found := wellFormed.placeIndex?_iff.mpr ⟨_, here, same⟩
  exact Option.some.inj (found.symm.trans (wellFormed.placeIndex?_iff.mpr ⟨_, there, rfl⟩))

theorem mem_transitionsWith {test : Flow → Bool} {id : String} :
    id ∈ net.transitionsWith test ↔
      ∃ t, t < net.transitions.length ∧ test (net.flow t) = true ∧ net.transitionName t = id := by
  simp only [transitionsWith, List.mem_map, List.mem_filter, List.mem_range, and_assoc]

/-- A transition is listed if its own flow passes the test. -/
theorem WellFormed.transitionName_mem (wellFormed : net.WellFormed) {test : Flow → Bool}
    (bound : t < net.transitions.length) :
    net.transitionName t ∈ net.transitionsWith test ↔ test (net.flow t) = true := by
  rw [mem_transitionsWith]
  constructor
  · rintro ⟨u, inside, passes, same⟩
    exact wellFormed.transitionName_inj inside bound same ▸ passes
  · exact fun passes => ⟨t, bound, passes, rfl⟩

theorem mem_isolatedPlaces {id : String} : id ∈ net.diagnose.isolatedPlaces ↔
    ∃ i, i < net.places.length ∧ net.isConnected i = false ∧ net.placeName i = id := by
  simp only [diagnose, List.mem_map, List.mem_filter, List.mem_range, and_assoc, Bool.not_eq_true']

theorem WellFormed.placeName_mem (wellFormed : net.WellFormed) (inside : i < net.places.length) :
    net.placeName i ∈ net.diagnose.isolatedPlaces ↔ net.isConnected i = false := by
  rw [mem_isolatedPlaces]
  constructor
  · rintro ⟨j, bound, apart, same⟩
    exact wellFormed.placeName_inj bound inside same ▸ apart
  · exact fun apart => ⟨i, inside, apart, rfl⟩

/-! ### Transitions without inputs -/

theorem isEnabled_of_inputs_nil (bound : t < net.transitions.length)
    (free : (net.flow t).inputs = []) (m : Marking) : net.isEnabled m t = true := by
  simp [isEnabled, bound, free]

/-- What needs no tokens has no inputs, since a link has a weight. -/
theorem inputs_nil_of_isEnabled_zero (compiled : ofModel model = .ok net)
    (enabled : net.isEnabled (.zero net.places.length) t = true) : (net.flow t).inputs = [] := by
  have bound := isEnabled_lt enabled
  simp only [isEnabled, Bool.and_eq_true, List.all_eq_true, decide_eq_true_eq] at enabled
  refine List.eq_nil_iff_forall_not_mem.mpr fun l member => ?_
  have positive := one_le_weight compiled bound .input member
  have held := enabled.2 l member
  rw [tokens_zero] at held
  exact absurd (UInt64.le_trans positive held) (by decide)

/-- A transition without links leaves every marking as it is. -/
theorem fireTransition_of_links_nil (bound : t < net.transitions.length)
    (size : m.size = net.places.length) (inputs : (net.flow t).inputs = [])
    (outputs : (net.flow t).outputs = []) : net.fireTransition m t = .ok m := by
  have enabled := isEnabled_of_inputs_nil bound inputs m
  have takes : takeInputs? m (net.flow t) = some m := by
    rw [takeInputs?, inputs]
    rfl
  have puts : net.putOutputs m (net.flow t) = .ok m := by
    rw [putOutputs, outputs]
    rfl
  simp [fireTransition, Nat.not_le.mpr bound, size, enabled, takes, puts]

/-- A transition that takes nothing can be fired where nothing is, and puts its weights there. -/
theorem WellFormed.fireTransition_zero (wellFormed : net.WellFormed)
    (bound : t < net.transitions.length) (free : (net.flow t).inputs = []) :
    ∃ next, net.fireTransition (.zero net.places.length) t = .ok next ∧
      ∀ place, next.tokens place = net.outputWeight place t := by
  have size : (Marking.zero net.places.length).size = net.places.length := by
    simp [Marking.zero, Marking.size]
  have counts : ∀ place, net.firedCount (.zero net.places.length) t place =
      (net.outputWeight place t).toNat := by
    intro place
    rw [firedCount, tokens_zero, UInt64.toNat_zero, Nat.zero_sub, Nat.zero_add]
  rcases wellFormed.fireTransition_enabled size (isEnabled_of_inputs_nil bound free _) with
    ⟨next, fired, _, same⟩ | ⟨_, l, _, _, _, full, _⟩
  · exact ⟨next, fired, fun place => UInt64.toNat_inj.mp ((same place).trans (counts place))⟩
  · rw [counts] at full
    exact absurd (Count.toNat_lt_limit _) (Nat.not_lt.mpr full)

/-- What changes no marking has no outputs: where nothing is, an output shows. -/
theorem outputs_nil_of_unchanging (compiled : ofModel model = .ok net)
    (bound : t < net.transitions.length) (free : (net.flow t).inputs = [])
    (unchanging : ∀ m next, net.fireTransition m t = .ok next → next = m) :
    (net.flow t).outputs = [] := by
  have wellFormed := wellFormed_of_ofModel compiled
  obtain ⟨next, fired, counts⟩ := wellFormed.fireTransition_zero bound free
  obtain rfl := unchanging _ next fired
  refine List.eq_nil_iff_forall_not_mem.mpr fun l member => ?_
  have positive := one_le_weight compiled bound .output member
  have shown := counts l.place
  rw [tokens_zero, outputWeight, Flow.outputWeight,
    (wellFormed.proper t).outputs.weightOf_mem member] at shown
  exact absurd (shown ▸ positive) (by decide)

/-! ### Places without links -/

theorem WellFormed.isConnected_iff (wellFormed : net.WellFormed) : net.isConnected i = true ↔
    ∃ t, t < net.transitions.length ∧ i ∈ (net.flow t).adjacent := by
  have here {t : Nat} (bound : t < net.flows.size) : net.flow t = net.flows[t] := by
    simp [flow, Array.getD_eq_getD_getElem?, bound]
  rw [isConnected, Array.any_eq_true, ← wellFormed.flows]
  constructor
  · rintro ⟨t, bound, linked⟩
    exact ⟨t, bound, by simpa [here bound] using linked⟩
  · rintro ⟨t, bound, linked⟩
    exact ⟨t, bound, by simpa [here bound] using linked⟩

theorem mem_adjacent_iff {f : Flow} :
    i ∈ f.adjacent ↔ ∃ side : Side, i ∈ (side.links f).map (·.place) := by
  rw [Flow.adjacent, List.map_append, List.mem_append]
  constructor
  · rintro (input | output)
    · exact ⟨.input, input⟩
    · exact ⟨.output, output⟩
  · rintro ⟨_ | _, linked⟩
    · exact .inl linked
    · exact .inr linked

/-- The other end of an arc at a place is a transition. -/
theorem joins_of_touches (compiled : ofModel model = .ok net) {a : Arc} (arc : a ∈ model.arcs)
    (inside : i < net.places.length) (touches : a.touches (net.placeName i) = true) :
    ∃ t side, t < net.transitions.length ∧ Side.joins side net t i a = true := by
  have accepted := exists_ofModel_iff.mp ⟨net, compiled⟩
  have apart := (List.nodup_append.mp accepted.nodes).2.2
  obtain ⟨_, _, places, transitions, _⟩ := ofModel_parts compiled
  have place : net.placeName i ∈ model.places.map (·.id) := by
    rw [placeName_eq (List.getElem?_eq_getElem inside), ← places]
    exact List.mem_map_of_mem (List.getElem_mem inside)
  have position : ∀ id ∈ model.transitions.map (·.id),
      ∃ t, t < net.transitions.length ∧ id = net.transitionName t := by
    intro id member
    rw [← transitions] at member
    obtain ⟨t, u, found, rfl⟩ := Model.mem_map_iff_getElem?.mp member
    exact ⟨t, (List.getElem?_eq_some_iff.mp found).1, (transitionName_eq found).symm⟩
  simp only [Arc.touches, Bool.or_eq_true, beq_iff_eq] at touches
  simp only [Side.joins, Bool.and_eq_true, beq_iff_eq]
  rcases (accepted.joins a arc).2 with ⟨src, dst⟩ | ⟨src, dst⟩
  · obtain ⟨t, bound, name⟩ := position _ dst
    refine ⟨t, .input, bound, ?_, name⟩
    exact touches.resolve_right fun same => apart _ place _ dst same.symm
  · obtain ⟨t, bound, name⟩ := position _ src
    refine ⟨t, .output, bound, ?_, name⟩
    exact touches.resolve_left fun same => apart _ place _ src same.symm

/-- The links of a net are to the places that arcs of its model touch. -/
theorem isConnected_iff_touched (compiled : ofModel model = .ok net)
    (inside : i < net.places.length) :
    net.isConnected i = true ↔ ∃ a ∈ model.arcs, a.touches (net.placeName i) = true := by
  have joined {t : Nat} (bound : t < net.transitions.length) (side : Side) :=
    (firstJoined_of_ofModel compiled bound side).joined i
  rw [(wellFormed_of_ofModel compiled).isConnected_iff]
  simp only [mem_adjacent_iff]
  constructor
  · rintro ⟨t, bound, side, linked⟩
    obtain ⟨_, a, arc, joins⟩ := (joined bound side).mp linked
    refine ⟨a, arc, ?_⟩
    simp only [Side.joins, Bool.and_eq_true] at joins
    cases side with
    | input => exact Bool.or_eq_true .. ▸ .inl joins.1
    | output => exact Bool.or_eq_true .. ▸ .inr joins.1
  · rintro ⟨a, arc, touches⟩
    obtain ⟨t, side, bound, joins⟩ := joins_of_touches compiled arc inside touches
    exact ⟨t, bound, side, (joined bound side).mpr ⟨inside, a, arc, joins⟩⟩

/-- No firing sequence changes a place without links. -/
theorem WellFormed.tokens_stages (wellFormed : net.WellFormed) (apart : net.isConnected i = false)
    {ts : List Nat} {ms : List Marking} (fired : net.stages m ts = .ok ms) :
    ∀ x ∈ ms, x.tokens i = m.tokens i := by
  induction ts generalizing m ms with
  | nil =>
    cases fired
    simp
  | cons t rest ih =>
    obtain ⟨next, later, first, others, rfl⟩ := stages_cons_ok.mp fired
    have unlinked : i ∉ (net.flow t).adjacent := by
      intro linked
      have bound := isEnabled_lt (fireTransition_ok first).2
      rw [wellFormed.isConnected_iff.mpr ⟨t, bound, linked⟩] at apart
      cases apart
    have same := wellFormed.fireTransition_frame first unlinked
    simp only [List.forall_mem_cons, true_and]
    intro x member
    rw [ih others x member, same]

/-! ### No deadlock -/

theorem enabledTransitions_ne_nil (bound : t < net.transitions.length)
    (free : (net.flow t).inputs = []) (m : Marking) : net.enabledTransitions m ≠ [] :=
  List.ne_nil_of_mem (mem_enabledTransitions.mpr (isEnabled_of_inputs_nil bound free m))

/-- An exploration finds no deadlock where every marking enables something. -/
theorem WellFormed.explore_alive (wellFormed : net.WellFormed)
    (alive : ∀ m, net.enabledTransitions m ≠ []) {c : SearchConfig} {f : Findings}
    (explored : net.explore c m = .ok f) : f.deadlocked = false ∧ f.deadlockWitness = none := by
  obtain ⟨s, searched, rfl⟩ := explore_ok_iff.mp explored
  have none : s.deadlock? = none := by
    rw [← Option.not_isSome_iff_eq_none, (wellFormed.finished searched).deadlock?_isSome_iff]
    rintro ⟨i, a, _, dead⟩
    exact alive a.marking dead
  constructor
  · simp only [Search.findings, none, Option.isSome_none]
  · simp only [Search.findings, none, Option.bind_none]

end Net

/-- What the lists of a diagnosis mean for a net and for the model that it comes from. -/
structure Diagnosis.Means (net : Net) (model : Model) (d : Diagnosis) : Prop where
  transitions : ∀ id, id ∈ d.isolatedTransitions ∨ id ∈ d.sourceTransitions →
    ∃ t, t < net.transitions.length ∧ net.transitionName t = id
  once : ∀ id, ¬ (id ∈ d.isolatedTransitions ∧ id ∈ d.sourceTransitions)
  /-- The listed transitions are those that are enabled without any token, and these are
  enabled everywhere. -/
  free : ∀ t, t < net.transitions.length →
    ((net.transitionName t ∈ d.isolatedTransitions ∨ net.transitionName t ∈ d.sourceTransitions) ↔
      net.isEnabled (.zero net.places.length) t = true) ∧
    (net.isEnabled (.zero net.places.length) t = true ↔ ∀ m, net.isEnabled m t = true)
  idle : ∀ t, t < net.transitions.length →
    (net.transitionName t ∈ d.isolatedTransitions ↔
      net.isEnabled (.zero net.places.length) t = true ∧
        ∀ m next, net.fire m (net.transitionName t) = .ok next → next = m) ∧
    (net.transitionName t ∈ d.isolatedTransitions →
      ∀ m, m.size = net.places.length → net.fire m (net.transitionName t) = .ok m)
  places : ∀ id ∈ d.isolatedPlaces, ∃ i, i < net.places.length ∧ net.placeName i = id
  untouched : ∀ i, i < net.places.length →
    (net.placeName i ∈ d.isolatedPlaces ↔
      ∀ a ∈ model.arcs, a.touches (net.placeName i) = false) ∧
    (net.placeName i ∈ d.isolatedPlaces →
      ∀ m ts ms, net.stages m ts = .ok ms → ∀ x ∈ ms, x.tokens i = m.tokens i)
  alive : d.isolatedTransitions ≠ [] ∨ d.sourceTransitions ≠ [] →
    (∀ c m f, net.explore c m = .ok f → f.deadlocked = false ∧ f.deadlockWitness = none) ∧
    ∀ s : Session, s.net = net → s.isDeadlocked = false
  /-- Only zero limits and foreign markings are not explored. -/
  explored : ∀ c m, 1 ≤ c.maxDepth → 1 ≤ c.maxStates → m.size = net.places.length →
    ∃ f, net.explore c m = .ok f

namespace Net

variable {model : Model} {net : Net} {t : Nat}

theorem WellFormed.mem_isolatedTransitions (wellFormed : net.WellFormed)
    (bound : t < net.transitions.length) :
    net.transitionName t ∈ net.diagnose.isolatedTransitions ↔
      (net.flow t).inputs = [] ∧ (net.flow t).outputs = [] := by
  rw [diagnose, wellFormed.transitionName_mem bound]
  simp

theorem WellFormed.mem_sourceTransitions (wellFormed : net.WellFormed)
    (bound : t < net.transitions.length) :
    net.transitionName t ∈ net.diagnose.sourceTransitions ↔
      (net.flow t).inputs = [] ∧ (net.flow t).outputs ≠ [] := by
  rw [diagnose, wellFormed.transitionName_mem bound]
  simp

/-- One of the two lists has a transition exactly if it has no inputs. -/
theorem WellFormed.listed_iff (wellFormed : net.WellFormed) (bound : t < net.transitions.length) :
    (net.transitionName t ∈ net.diagnose.isolatedTransitions ∨
      net.transitionName t ∈ net.diagnose.sourceTransitions) ↔ (net.flow t).inputs = [] := by
  rw [wellFormed.mem_isolatedTransitions bound, wellFormed.mem_sourceTransitions bound,
    ← and_or_left, and_iff_left_iff_imp]
  exact fun _ => Decidable.em _

theorem exists_transition_of_listed {id : String}
    (listed : id ∈ net.diagnose.isolatedTransitions ∨ id ∈ net.diagnose.sourceTransitions) :
    ∃ t, t < net.transitions.length ∧ net.transitionName t = id := by
  simp only [diagnose, mem_transitionsWith] at listed
  rcases listed with ⟨t, bound, _, name⟩ | ⟨t, bound, _, name⟩
  · exact ⟨t, bound, name⟩
  · exact ⟨t, bound, name⟩

theorem inputs_nil_iff (compiled : ofModel model = .ok net) (bound : t < net.transitions.length) :
    (net.flow t).inputs = [] ↔ net.isEnabled (.zero net.places.length) t = true :=
  ⟨fun free => isEnabled_of_inputs_nil bound free _, inputs_nil_of_isEnabled_zero compiled⟩

theorem isolated_iff (compiled : ofModel model = .ok net) (bound : t < net.transitions.length) :
    net.transitionName t ∈ net.diagnose.isolatedTransitions ↔
      net.isEnabled (.zero net.places.length) t = true ∧
        ∀ m next, net.fire m (net.transitionName t) = .ok next → next = m := by
  have wellFormed := wellFormed_of_ofModel compiled
  simp only [wellFormed.mem_isolatedTransitions bound, wellFormed.fire_transitionName bound,
    ← inputs_nil_iff compiled bound]
  refine and_congr_right fun free => ⟨fun outputs m next fired => ?_, ?_⟩
  · rw [fireTransition_of_links_nil bound (fireTransition_ok fired).1 free outputs] at fired
    exact (Except.ok.inj fired).symm
  · exact outputs_nil_of_unchanging compiled bound free

/-- Some listed transition is enabled wherever the game stands. -/
theorem WellFormed.alive_of_listed (wellFormed : net.WellFormed)
    (some : net.diagnose.isolatedTransitions ≠ [] ∨ net.diagnose.sourceTransitions ≠ [])
    (m : Marking) : net.enabledTransitions m ≠ [] := by
  have listed : ∃ id, id ∈ net.diagnose.isolatedTransitions ∨
      id ∈ net.diagnose.sourceTransitions := by
    rcases some with isolated | source
    · exact (List.exists_mem_of_ne_nil _ isolated).imp fun _ => .inl
    · exact (List.exists_mem_of_ne_nil _ source).imp fun _ => .inr
  obtain ⟨id, member⟩ := listed
  obtain ⟨t, bound, rfl⟩ := exists_transition_of_listed member
  exact enabledTransitions_ne_nil bound ((wellFormed.listed_iff bound).mp member) m

/-- The diagnosis of a compiled net says what holds of all its markings, firing sequences,
explorations and sessions. -/
theorem diagnose_means (compiled : ofModel model = .ok net) :
    net.diagnose.Means net model := by
  have wellFormed := wellFormed_of_ofModel compiled
  constructor
  · exact fun id => exists_transition_of_listed
  · rintro id ⟨isolated, source⟩
    obtain ⟨t, bound, rfl⟩ := exists_transition_of_listed (.inl isolated)
    exact ((wellFormed.mem_sourceTransitions bound).mp source).2
      ((wellFormed.mem_isolatedTransitions bound).mp isolated).2
  · intro t bound
    rw [wellFormed.listed_iff bound, ← inputs_nil_iff compiled bound]
    exact ⟨.rfl, isEnabled_of_inputs_nil bound,
      fun always => (inputs_nil_iff compiled bound).mpr (always _)⟩
  · intro t bound
    refine ⟨isolated_iff compiled bound, fun isolated m size => ?_⟩
    obtain ⟨inputs, outputs⟩ := (wellFormed.mem_isolatedTransitions bound).mp isolated
    rw [wellFormed.fire_transitionName bound]
    exact fireTransition_of_links_nil bound size inputs outputs
  · intro id isolated
    obtain ⟨i, inside, _, name⟩ := mem_isolatedPlaces.mp isolated
    exact ⟨i, inside, name⟩
  · intro i inside
    rw [wellFormed.placeName_mem inside]
    refine ⟨?_, fun apart m ts ms => wellFormed.tokens_stages apart⟩
    simp only [← Bool.not_eq_true, isConnected_iff_touched compiled inside, not_exists, not_and]
  · intro some
    have alive := wellFormed.alive_of_listed some
    refine ⟨fun c m f => wellFormed.explore_alive alive, ?_⟩
    rintro s rfl
    simpa [Session.isDeadlocked, isDeadlocked] using alive s.marking
  · intro c m depth states size
    obtain ⟨s, _, _, explored⟩ :=
      search_finishes wellFormed (SearchConfig.validate_ok_iff.mpr ⟨depth, states⟩) size
    exact ⟨_, explored⟩

/-- A transition that makes tokens, one that does nothing, and a place that nothing touches. -/
def spring : Model where
  places := [{ id := "pool" }, { id := "stone", tokens := 3 }]
  transitions := [{ id := "well" }, { id := "wait" }, { id := "drink" }]
  arcs := [⟨"a", "well", "pool", 2⟩, ⟨"b", "pool", "drink", 1⟩]

theorem diagnose_means_spring :
    ∃ net, ofModel spring = .ok net ∧ net.diagnose = ⟨["stone"], ["wait"], ["well"]⟩ ∧
      net.diagnose.Means net spring ∧
      ∃ f, net.explore { maxDepth := 1, maxStates := 1 } (.ofList [0, 3]) = .ok f ∧
        f.deadlocked = false := by
  have compiled : ofModel spring = .ok _ := rfl
  have means := diagnose_means compiled
  obtain ⟨f, explored⟩ := means.explored { maxDepth := 1, maxStates := 1 } (.ofList [0, 3])
    (by decide) (by decide) rfl
  have alive := (means.alive (.inl (by decide))).1 _ _ f explored
  exact ⟨_, compiled, by decide +kernel, means, f, explored, alive.1⟩

end Net

end TokenGame
