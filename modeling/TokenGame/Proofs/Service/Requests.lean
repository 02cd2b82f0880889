import TokenGame.Proofs.Net.TokensById
import TokenGame.Proofs.Search.BreadthFirst
import TokenGame.Service.Basic

/-! What becomes of a request. A request compiles to a net and a marking of that net, or
its model has a defect, or its marking names a place that there is not; a firing is the
net's own, and an exploration that its limits allow is carried through. -/
namespace TokenGame

/-- The limits of a search that the settings let through. -/
def BoundRequest.Within (settings : ExploreSettings) (r : BoundRequest) : Prop :=
  1 ≤ (r.config settings).maxDepth ∧ 1 ≤ (r.config settings).maxStates ∧
    (r.config settings).maxStates ≤ settings.maxStatesCap

instance (settings : ExploreSettings) (r : BoundRequest) : Decidable (r.Within settings) :=
  inferInstanceAs (Decidable (_ ∧ _ ∧ _))

theorem SearchConfig.validate_error {c : SearchConfig} {e : SearchError}
    (refused : c.validate = .error e) : ∃ reason, e = .invalidConfig reason := by
  unfold validate at refused
  split at refused
  · exact ⟨_, (Except.error.inj refused).symm⟩
  · split at refused
    · exact ⟨_, (Except.error.inj refused).symm⟩
    · simp at refused

namespace Service

variable {model : Model} {marking : Option TokenMap} {net : Net} {m : Marking}

/-- Every id in the marking of a request names a place, if the request has a marking. -/
def Placed (model : Model) (marking : Option TokenMap) : Prop :=
  ∀ map, marking = some map → ∀ id count, map.get? id = some count → ∃ p ∈ model.places, p.id = id

theorem compile_cases (model : Model) (marking : Option TokenMap) :
    (∃ cause, Net.ofModel model = .error cause ∧
      compile model marking = .error (.invalidNet cause)) ∨
    (∃ net id, Net.ofModel model = .ok net ∧ ¬ Placed model marking ∧
      compile model marking = .error (.marking (.unknownPlace id))) ∨
    (∃ net m, Net.ofModel model = .ok net ∧ Placed model marking ∧
      compile model marking = .ok (net, m) ∧ m.size = net.places.length) := by
  cases compiled : Net.ofModel model with
  | error cause => simp [compile, compiled]
  | ok net =>
    have wellFormed := Net.wellFormed_of_ofModel compiled
    obtain ⟨_, _, places, _⟩ := Net.ofModel_parts compiled
    right
    cases marking with
    | none => exact .inr ⟨net, net.initialMarking, rfl, nofun, by simp only [compile, compiled],
        Net.size_initialMarking net⟩
    | some map =>
      have placed : Placed model (some map) ↔ ∃ m, net.markingOfMap map = .ok m := by
        rw [wellFormed.markingOfMap_ok_iff map, places]
        exact ⟨fun all => all map rfl, fun all _ same => Option.some.inj same ▸ all⟩
      cases held : net.markingOfMap map with
      | error cause =>
        obtain ⟨id⟩ := cause
        refine .inl ⟨net, id, rfl, ?_, by simp only [compile, compiled, held]⟩
        simp [placed, held]
      | ok m =>
        refine .inr ⟨net, m, rfl, placed.mpr ⟨m, held⟩, by simp only [compile, compiled, held], ?_⟩
        exact (wellFormed.markingOfMap_tokens held).1

theorem compile_ok (compiled : compile model marking = .ok (net, m)) :
    Net.ofModel model = .ok net ∧ m.size = net.places.length := by
  rcases compile_cases model marking with ⟨_, _, failed⟩ | ⟨_, _, _, _, failed⟩ |
    ⟨net', m', built, _, same, size⟩
  · simp [failed] at compiled
  · simp [failed] at compiled
  · obtain ⟨rfl, rfl⟩ := Prod.mk.inj (Except.ok.inj (same.symm.trans compiled))
    exact ⟨built, size⟩

theorem fire_eq (compiled : compile model marking = .ok (net, m)) (id : String) :
    fire ⟨model, id, marking⟩ =
      match net.fire m id with
      | .error cause => .error (.fire cause)
      | .ok next => .ok ⟨net.markingToMap next, withTokens model (net.markingToMap next)⟩ := by
  simp only [fire, compiled, bind, Except.bind]
  cases net.fire m id <;> rfl

variable {settings : ExploreSettings} {r : BoundRequest}

theorem bounds_ok (compiled : compile r.net r.marking = .ok (net, m))
    (within : r.Within settings) {s : Search}
    (searched : net.search (r.config settings) m = .ok s) :
    bounds settings r = .ok (s.findings net r.k) := by
  have cap : ¬ settings.maxStatesCap < (r.config settings).maxStates := Nat.not_lt.mpr within.2.2
  simp only [bounds, compiled, checkCap, cap, if_false, Net.explore, searched, bind, Except.bind,
    Except.map]
  rfl

theorem bounds_beyond (compiled : compile r.net r.marking = .ok (net, m))
    (beyond : ¬ r.Within settings) :
    ∃ reason, bounds settings r = .error (.explore (.invalidConfig reason)) := by
  simp only [bounds, compiled, bind, Except.bind]
  by_cases tooMany : settings.maxStatesCap < (r.config settings).maxStates
  · simp only [checkCap, tooMany, if_true]
    exact ⟨_, rfl⟩
  · simp only [checkCap, tooMany, if_false]
    cases config : (r.config settings).validate with
    | ok u =>
      have limits := SearchConfig.validate_ok_iff.mp config
      exact absurd ⟨limits.1, limits.2, Nat.not_lt.mp tooMany⟩ beyond
    | error cause =>
      obtain ⟨reason, rfl⟩ := SearchConfig.validate_error config
      refine ⟨reason, ?_⟩
      simp only [Net.explore, Net.search, config, bind, Except.bind, Except.map]
      rfl

/-- The ways in which an exploration can end: three kinds of refusal, each of a request
that passes the checks before, and the findings of a search that was carried through. -/
theorem bounds_cases (settings : ExploreSettings) (r : BoundRequest) :
    (∃ cause, Net.ofModel r.net = .error cause ∧
      bounds settings r = .error (.invalidNet cause)) ∨
    (∃ net id, Net.ofModel r.net = .ok net ∧ ¬ Placed r.net r.marking ∧
      bounds settings r = .error (.marking (.unknownPlace id))) ∨
    (∃ net reason, Net.ofModel r.net = .ok net ∧ Placed r.net r.marking ∧ ¬ r.Within settings ∧
      bounds settings r = .error (.explore (.invalidConfig reason))) ∨
    (∃ net m s, compile r.net r.marking = .ok (net, m) ∧ Placed r.net r.marking ∧
      r.Within settings ∧ net.search (r.config settings) m = .ok s ∧
      bounds settings r = .ok (s.findings net r.k)) := by
  rcases compile_cases r.net r.marking with ⟨cause, broken, failed⟩ |
    ⟨net, id, built, unplaced, failed⟩ | ⟨net, m, built, placed, compiled, size⟩
  · exact .inl ⟨cause, broken, by simp only [bounds, failed, bind, Except.bind]⟩
  · exact .inr <| .inl ⟨net, id, built, unplaced, by simp only [bounds, failed, bind, Except.bind]⟩
  · by_cases within : r.Within settings
    · have config := SearchConfig.validate_ok_iff.mpr ⟨within.1, within.2.1⟩
      obtain ⟨s, searched, _⟩ :=
        Net.search_finishes (Net.wellFormed_of_ofModel built) config size
      exact .inr <| .inr <| .inr
        ⟨net, m, s, compiled, placed, within, searched, bounds_ok compiled within searched⟩
    · obtain ⟨reason, refused⟩ := bounds_beyond compiled within
      exact .inr <| .inr <| .inl ⟨net, reason, built, placed, within, refused⟩

end Service

end TokenGame
