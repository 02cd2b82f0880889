import TokenGame.Net.Index
import TokenGame.Proofs.Net.Accepted
import TokenGame.Proofs.Service.Requests
import TokenGame.Service.Call

/-! The failures of the service. Each is the fault of a request: the net does not compile,
an id names nothing, a transition cannot fire, or the limits are out of bounds. Nothing
fails within, because whatever index a request leads to is in range. -/
namespace TokenGame

/-- What an id is looked up to is in range. -/
def Model.InRange (model : Model) : Prop :=
  (∀ id i, model.node? id = some (.place i) →
    i < model.places.length ∧ Net.checkPlace i = .ok i) ∧
  (∀ id t, model.node? id = some (.transition t) →
    t < model.transitions.length ∧ Net.checkTransition t = .ok t)

/-- What a net and a marking of it are asked for is there: no count and no flow is read
that has to be made up. -/
structure Net.InRange (net : Net) (m : Marking) : Prop where
  size : m.size = net.places.length
  places : ∀ i, i < net.places.length → checkPlace i = .ok i ∧ m.counts[i]? = some (m.tokens i)
  transitions : ∀ t, t < net.transitions.length →
    checkTransition t = .ok t ∧ net.flows[t]? = some (net.flow t)
  links : ∀ t l, l ∈ (net.flow t).inputs ++ (net.flow t).outputs → l.place < net.places.length

/-- What a search has noted is there: its markings are markings of the net, and its states
and transitions exist. -/
structure Search.InRange (net : Net) (s : Search) : Prop where
  markings : ∀ a ∈ s.states, a.marking.size = net.places.length
  parents : ∀ a ∈ s.states, ∀ i t, a.parent = some (i, t) →
    i < s.states.size ∧ t < net.transitions.length
  visits : ∀ v ∈ s.visits, v.index < s.states.size
  deadlocks : ∀ i ∈ s.deadlocks, i < s.states.size
  edges : ∀ i t j, .edge i t j ∈ s.events → j < s.states.size
  steps : ∀ i t, (i, t) ∈ s.steps → i < s.states.size ∧ t < net.transitions.length

theorem Model.transition_lt_of_node? {model : Model} {id : String} {t : Nat}
    (found : model.node? id = some (.transition t)) : t < model.transitions.length := by
  unfold node? at found
  split at found
  · simp at found
  · obtain ⟨u, here, same⟩ := Option.map_eq_some_iff.mp found
    cases same
    exact (List.findIdx?_eq_some_iff_getElem.mp here).1

namespace Net

variable {model : Model} {net : Net} {m : Marking}

/-- The arcs make a difference only in a model whose nodes can all be numbered. -/
theorem ofModel_inRange (model : Model) :
    (∀ arcs, ofModel { model with arcs } = ofModel model) ∨ model.InRange := by
  by_cases few : model.places.length < indexLimit ∧ model.transitions.length < indexLimit
  · refine .inr ⟨fun id i found => ?_, fun id t found => ?_⟩
    · have inside := Model.place_lt_of_node? found
      exact ⟨inside, if_pos (Nat.lt_trans inside few.1)⟩
    · have inside := Model.transition_lt_of_node? found
      exact ⟨inside, if_pos (Nat.lt_trans inside few.2)⟩
  · refine .inl fun arcs => ?_
    have many : indexLimit ≤ model.places.length ∨ indexLimit ≤ model.transitions.length := by
      omega
    have ids : { model with arcs }.nodeIds = model.nodeIds := rfl
    rw [ofModel_eq, ofModel_eq, ids]
    cases firstRepeat? [] model.nodeIds with
    | some id => rfl
    | none => rcases many with many | many <;> simp [many]

theorem inRange_of_ofModel (compiled : ofModel model = .ok net)
    (size : m.size = net.places.length) : net.InRange m := by
  have wellFormed := wellFormed_of_ofModel compiled
  have accepted := exists_ofModel_iff.mp ⟨net, compiled⟩
  obtain ⟨_, _, places, transitions, _⟩ := ofModel_parts compiled
  refine ⟨size, fun i inside => ⟨if_pos ?_, ?_⟩, fun t inside => ⟨if_pos ?_, ?_⟩,
    fun t l member => ?_⟩
  · exact Nat.lt_trans (places ▸ inside) accepted.places
  · exact Marking.getElem?_counts (size ▸ inside)
  · exact Nat.lt_trans (transitions ▸ inside) accepted.transitions
  · have bound : t < net.flows.size := wellFormed.flows ▸ inside
    simp [flow, Array.getD_eq_getD_getElem?, bound]
  · rcases List.mem_append.mp member with input | output
    · exact (wellFormed.proper t).inputs.inside l input
    · exact (wellFormed.proper t).outputs.inside l output

theorem WellFormed.fire_error (wellFormed : net.WellFormed) (size : m.size = net.places.length)
    {id : String} {cause : FireError} (failed : net.fire m id = .error cause) :
    (ServiceError.fire cause).kind ∈ [.unknownTransition, .notEnabled, .tokenOverflow] := by
  unfold fire at failed
  split at failed
  · obtain rfl := Except.error.inj failed
    simp [ServiceError.kind]
  · rename_i t found
    have bound := (List.findIdx?_eq_some_iff_getElem.mp found).1
    by_cases enabled : net.isEnabled m t = true
    · rcases wellFormed.fireTransition_enabled size enabled with
        ⟨next, fired, _⟩ | ⟨_, l, _, _, overflow, _⟩
      · simp [fired] at failed
      · obtain rfl := Except.error.inj (overflow.symm.trans failed)
        simp [ServiceError.kind]
    · obtain rfl := Except.error.inj
        ((fireTransition_disabled size bound enabled).symm.trans failed)
      simp [ServiceError.kind]

end Net

namespace Search

variable {net : Net} {m : Marking} {c : SearchConfig} {s : Search} {index : Nat}

theorem Invariant.inRange (valid : Invariant net c m index [] s) (wellFormed : net.WellFormed)
    (size : m.size = net.places.length) (expanded : index ≤ s.states.size) : s.InRange net := by
  constructor
  case markings =>
    intro a member
    obtain ⟨i, found⟩ := Array.mem_iff_getElem?.mp member
    exact valid.sized wellFormed size found
  case parents =>
    intro a member i t parent
    obtain ⟨j, found⟩ := Array.mem_iff_getElem?.mp member
    cases j with
    | zero =>
      obtain rfl := At.det valid.start found
      simp at parent
    | succ j =>
      obtain ⟨i', t', b, same, _, source, _, fired⟩ := valid.parent j a found
      obtain ⟨rfl, rfl⟩ := Prod.mk.inj (Option.some.inj (same.symm.trans parent))
      exact ⟨source.lt, Net.isEnabled_lt (Net.fireTransition_ok fired).2⟩
  case visits =>
    intro v member
    obtain ⟨i, a, found, rfl⟩ := valid.mem_visits.mp member
    exact found.lt
  case deadlocks =>
    intro i member
    rw [valid.ended] at member
    have before := List.mem_range.mp (List.mem_filter.mp member).1
    omega
  case edges =>
    intro i t j member
    obtain ⟨a, b, _, target, _⟩ := valid.holds _ member
    exact At.lt target
  case steps =>
    intro i t step
    rw [valid.trailed] at step
    obtain ⟨before, a, _, enabled⟩ := mem_trail.mp (by simpa using step)
    exact ⟨by omega, Net.isEnabled_lt enabled⟩

/-- Nothing fails and nothing is out of range after any number of rounds. -/
theorem run_inRange (wellFormed : net.WellFormed) (size : m.size = net.places.length)
    (valid : Invariant net c m index [] s) (expanded : index ≤ s.states.size) (rounds : Nat) :
    ∃ s', run net c rounds index s = .ok s' ∧ s'.InRange net := by
  induction rounds generalizing index s with
  | zero => exact ⟨s, rfl, valid.inRange wellFormed size expanded⟩
  | succ rounds ih =>
    by_cases waiting : index < s.states.size
    · obtain ⟨middle, done, bound, valid'⟩ := expand_invariant wellFormed size valid waiting
      obtain ⟨s', ran, inRange⟩ := ih valid' bound
      exact ⟨s', (run_waiting waiting).mpr ⟨middle, done, ran⟩, inRange⟩
    · exact ⟨s, run_done waiting, valid.inRange wellFormed size expanded⟩

end Search

namespace Service

/-- How the service fails under some settings: by the fault of a request, and never by an
index of its own that is out of range. -/
structure FailsByRequest (settings : ExploreSettings) : Prop where
  enabled : ∀ r e, Service.enabled r = .error e → e.kind ∈ [.invalidNet, .unknownPlace]
  state : ∀ r e, Service.state r = .error e → e.kind ∈ [.invalidNet, .unknownPlace]
  fire : ∀ r e, Service.fire r = .error e →
    e.kind ∈ [.invalidNet, .unknownPlace, .unknownTransition, .notEnabled, .tokenOverflow]
  bounds_ok : ∀ r, (∃ f, bounds settings r = .ok f) ↔
    (∃ net, Net.ofModel r.net = .ok net) ∧ Placed r.net r.marking ∧ r.Within settings
  bounds_error : ∀ r e, bounds settings r = .error e →
    (e.kind = .invalidNet ∧ ¬ ∃ net, Net.ofModel r.net = .ok net) ∨
    (e.kind = .unknownPlace ∧ (∃ net, Net.ofModel r.net = .ok net) ∧ ¬ Placed r.net r.marking) ∨
    (e.kind = .invalidConfig ∧ (∃ net, Net.ofModel r.net = .ok net) ∧ Placed r.net r.marking ∧
      ¬ r.Within settings)
  call : ∀ (call : Call) e, call.run settings = .error e → e.kind ≠ .internal ∧ e.status ≠ 500
  cap : ∀ r f, bounds settings r = .ok f → f.exploredStates ≤ settings.maxStatesCap
  defaults : ∀ config : Config, config.explore = settings → config.validate = .ok () →
    ∀ r e, r.maxDepth = none → r.maxStates = none → bounds settings r = .error e →
      e.kind ≠ .invalidConfig
  -- ids are looked up for arcs, so where arcs make no difference nothing is looked up
  lookups : ∀ model, (∀ arcs, Net.ofModel { model with arcs } = Net.ofModel model) ∨ model.InRange
  indices : ∀ model marking net m, compile model marking = .ok (net, m) → net.InRange m
  searches : ∀ model marking net m c, compile model marking = .ok (net, m) → c.validate = .ok () →
    ∀ rounds, ∃ s, Search.run net c rounds 0 (.start m) = .ok s ∧ s.InRange net

theorem map_eq_error_iff {α β : Type} {f : α → β} {x : Except ServiceError α} {e : ServiceError} :
    x.map f = .error e ↔ x = .error e := by
  cases x <;> simp [Except.map]

theorem enabled_error {r : NetRequest} {e : ServiceError} (failed : enabled r = .error e) :
    e.kind ∈ [.invalidNet, .unknownPlace] := by
  rcases compile_cases r.net r.marking with ⟨cause, _, same⟩ | ⟨_, id, _, _, same⟩ |
    ⟨_, _, _, _, same, _⟩
  all_goals simp only [enabled, same, Except.map, Except.error.injEq, reduceCtorEq] at failed
  all_goals simp [← failed, ServiceError.kind]

theorem state_error {r : NetRequest} {e : ServiceError} (failed : state r = .error e) :
    e.kind ∈ [.invalidNet, .unknownPlace] := enabled_error (map_eq_error_iff.mp failed)

theorem fire_error {r : FireRequest} {e : ServiceError} (failed : fire r = .error e) :
    e.kind ∈ [.invalidNet, .unknownPlace, .unknownTransition, .notEnabled, .tokenOverflow] := by
  rcases compile_cases r.net r.marking with ⟨cause, _, same⟩ | ⟨_, id, _, _, same⟩ |
    ⟨net, m, compiled, _, same, size⟩
  · simp only [fire, same, bind, Except.bind, Except.error.injEq] at failed
    simp [← failed, ServiceError.kind]
  · simp only [fire, same, bind, Except.bind, Except.error.injEq] at failed
    simp [← failed, ServiceError.kind]
  · rw [fire_eq same] at failed
    cases fired : net.fire m r.transitionId with
    | ok next => simp [fired] at failed
    | error cause =>
      simp only [fired, Except.error.injEq] at failed
      have kinds := (Net.wellFormed_of_ofModel compiled).fire_error size fired
      rw [failed] at kinds
      exact List.mem_cons_of_mem _ (List.mem_cons_of_mem _ kinds)

variable {settings : ExploreSettings} {r : BoundRequest}

theorem bounds_ok_iff : (∃ f, bounds settings r = .ok f) ↔
    (∃ net, Net.ofModel r.net = .ok net) ∧ Placed r.net r.marking ∧ r.Within settings := by
  rcases bounds_cases settings r with ⟨_, broken, failed⟩ | ⟨_, _, _, unplaced, failed⟩ |
    ⟨_, _, _, _, beyond, failed⟩ | ⟨_, _, _, compiled, placed, within, _, found⟩
  · simp [failed, broken]
  · simp [failed, unplaced]
  · simp [failed, beyond]
  · simp [found, (compile_ok compiled).1, placed, within]

theorem bounds_error_cases {e : ServiceError} (failed : bounds settings r = .error e) :
    (e.kind = .invalidNet ∧ ¬ ∃ net, Net.ofModel r.net = .ok net) ∨
    (e.kind = .unknownPlace ∧ (∃ net, Net.ofModel r.net = .ok net) ∧ ¬ Placed r.net r.marking) ∨
    (e.kind = .invalidConfig ∧ (∃ net, Net.ofModel r.net = .ok net) ∧ Placed r.net r.marking ∧
      ¬ r.Within settings) := by
  rcases bounds_cases settings r with ⟨_, broken, same⟩ | ⟨net, _, built, unplaced, same⟩ |
    ⟨net, _, built, placed, beyond, same⟩ | ⟨_, _, _, _, _, _, _, found⟩
  · obtain rfl := Except.error.inj (same.symm.trans failed)
    exact .inl ⟨rfl, by simp [broken]⟩
  · obtain rfl := Except.error.inj (same.symm.trans failed)
    exact .inr (.inl ⟨rfl, ⟨net, built⟩, unplaced⟩)
  · obtain rfl := Except.error.inj (same.symm.trans failed)
    exact .inr (.inr ⟨rfl, ⟨net, built⟩, placed, beyond⟩)
  · simp [found] at failed

theorem exploredStates_le {f : Findings} (found : bounds settings r = .ok f) :
    f.exploredStates ≤ settings.maxStatesCap := by
  rcases bounds_cases settings r with ⟨_, _, failed⟩ | ⟨_, _, _, _, failed⟩ |
    ⟨_, _, _, _, _, failed⟩ | ⟨net, m, s, compiled, _, within, searched, same⟩
  · simp [failed] at found
  · simp [failed] at found
  · simp [failed] at found
  · obtain rfl := Except.ok.inj (same.symm.trans found)
    have finished := (Net.wellFormed_of_ofModel (compile_ok compiled).1).finished searched
    exact Nat.le_trans finished.count within.2.2

/-- Settings that pass their own check let a request through that leaves out both limits. -/
theorem within_of_validate {config : Config} (valid : config.validate = .ok ())
    (depth : r.maxDepth = none) (states : r.maxStates = none) : r.Within config.explore := by
  unfold Config.validate at valid
  simp only [BoundRequest.Within, BoundRequest.config, ExploreSettings.resolve, depth, states,
    Option.getD_none]
  split at valid
  · simp at valid
  · split at valid
    · simp at valid
    · omega

theorem call_error {call : Call} {e : ServiceError} (failed : call.run settings = .error e) :
    e.kind ≠ .internal := by
  -- a call wraps answers only, so its error is that of the request
  cases call with
  | enabled r =>
    exact ne_of_mem_of_not_mem (enabled_error (map_eq_error_iff.mp failed)) (by decide)
  | fire r => exact ne_of_mem_of_not_mem (fire_error (map_eq_error_iff.mp failed)) (by decide)
  | state r => exact ne_of_mem_of_not_mem (state_error (map_eq_error_iff.mp failed)) (by decide)
  | bounds r =>
    rcases bounds_error_cases (map_eq_error_iff.mp failed) with ⟨kind, _⟩ | ⟨kind, _⟩ | ⟨kind, _⟩
    all_goals simp [kind]

theorem status_eq_500_iff {kind : ServiceError.Kind} : kind.status = 500 ↔ kind = .internal := by
  cases kind <;> decide

/-- Every failure of the service is the fault of the request. -/
theorem fails_only_by_request (settings : ExploreSettings) : FailsByRequest settings where
  enabled _ _ := enabled_error
  state _ _ := state_error
  fire _ _ := fire_error
  bounds_ok _ := bounds_ok_iff
  bounds_error _ _ := bounds_error_cases
  call _ _ failed :=
    ⟨call_error failed, fun status => call_error failed (status_eq_500_iff.mp status)⟩
  cap _ _ := exploredStates_le
  defaults config same valid r e depth states failed := by
    subst same
    have within := within_of_validate valid depth states
    rcases bounds_error_cases failed with ⟨kind, _⟩ | ⟨kind, _⟩ | ⟨_, _, _, beyond⟩
    · simp [kind]
    · simp [kind]
    · exact absurd within beyond
  lookups := Net.ofModel_inRange
  indices model marking net m compiled := by
    obtain ⟨built, size⟩ := compile_ok compiled
    exact Net.inRange_of_ofModel built size
  searches model marking net m c compiled config rounds := by
    obtain ⟨built, size⟩ := compile_ok compiled
    have room := (SearchConfig.validate_ok_iff.mp config).2
    exact Search.run_inRange (Net.wellFormed_of_ofModel built) size
      (Search.start_invariant c m room) (Nat.zero_le _) rounds

end Service

end TokenGame
