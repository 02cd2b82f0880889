import TokenGame.Proofs.Search.Reordered
import TokenGame.Proofs.Service.Errors
import TokenGame.Proofs.Simulation.Exhaustive

/-! The order in which a request declares places and arcs. It decides which position a
place has and in which order weights are added up, and it shows nowhere but in the order
of the verdicts. -/
namespace TokenGame.Service

variable {model shuffled : Model} {marking : Option TokenMap} {net : Net} {m : Marking}

theorem exists_ofModel_reordered (same : model.Reorders shuffled) :
    (∃ net, Net.ofModel model = .ok net) ↔ ∃ net, Net.ofModel shuffled = .ok net := by
  rw [Net.exists_ofModel_iff, Net.exists_ofModel_iff]
  exact ⟨same.accepted, same.symm.accepted⟩

theorem placed_reordered (same : model.Reorders shuffled) (marking : Option TokenMap) :
    Placed model marking ↔ Placed shuffled marking := by
  simp only [Placed, same.places.mem_iff]

theorem compile_reordered (same : model.Reorders shuffled)
    (compiled : compile model marking = .ok (net, m)) :
    ∃ other n, compile shuffled marking = .ok (other, n) ∧ net.Reorders other ∧
      Net.Alike net other m n := by
  obtain ⟨built, _⟩ := compile_ok compiled
  obtain ⟨other, built', reorders⟩ := Net.Reorders.ofModel same built
  simp only [compile, built] at compiled
  simp only [compile, built']
  cases marking with
  | none =>
    cases compiled
    exact ⟨other, _, rfl, reorders, Net.alike_initialMarking net other⟩
  | some map =>
    cases placed : net.markingOfMap map with
    | error cause => simp [placed] at compiled
    | ok x =>
      simp only [placed, Except.ok.injEq, Prod.mk.injEq, true_and] at compiled
      obtain ⟨n, placed', alike⟩ := reorders.markingOfMap placed
      exact ⟨other, n, by simp only [placed'], reorders, compiled ▸ alike⟩

variable {settings : ExploreSettings} {r : BoundRequest}

/-- What is wrong with a request is wrong with it in every order. -/
theorem bounds_error_reordered (same : r.net.Reorders shuffled) {e : ServiceError}
    (failed : bounds settings r = .error e) :
    ∃ e', bounds settings { r with net := shuffled } = .error e' ∧ e'.kind = e.kind := by
  have compiles := exists_ofModel_reordered same
  have placed := placed_reordered same r.marking
  cases found : bounds settings { r with net := shuffled } with
  | ok f =>
    obtain ⟨built, inside, within⟩ := bounds_ok_iff.mp ⟨f, found⟩
    obtain ⟨_, answered⟩ := bounds_ok_iff.mpr ⟨compiles.mpr built, placed.mpr inside, within⟩
    simp [failed] at answered
  | error e' =>
    refine ⟨e', rfl, ?_⟩
    have limits : { r with net := shuffled }.Within settings ↔ r.Within settings := .rfl
    have faults := bounds_error_cases failed
    have faults' := bounds_error_cases found
    rw [← compiles, ← placed, limits] at faults'
    grind

theorem bounds_ok_reordered (shuffles : r.net.Reorders shuffled) {f : Findings}
    (found : bounds settings r = .ok f) :
    ∃ f', bounds settings { r with net := shuffled } = .ok f' ∧
      f' = { f with placeVerdicts := f'.placeVerdicts } ∧
      ∃ verdict : Place → PlaceVerdict, f.placeVerdicts = r.net.places.map verdict ∧
        f'.placeVerdicts = shuffled.places.map verdict := by
  rcases bounds_cases settings r with ⟨_, _, failed⟩ | ⟨_, _, _, _, failed⟩ |
    ⟨_, _, _, _, _, failed⟩ | ⟨net, m, s, compiled, _, within, searched, same⟩
  · simp [failed] at found
  · simp [failed] at found
  · simp [failed] at found
  · obtain rfl := Except.ok.inj (same.symm.trans found)
    obtain ⟨other, n, compiled', reorders, markings⟩ := compile_reordered shuffles compiled
    obtain ⟨_, _, declared, _⟩ := Net.ofModel_parts (compile_ok compiled).1
    obtain ⟨_, _, declared', _⟩ := Net.ofModel_parts (compile_ok compiled').1
    obtain ⟨w, searched', alike⟩ := reorders.search markings searched
    refine ⟨_, bounds_ok (r := { r with net := shuffled }) compiled' within searched',
      alike.findings_eq reorders r.k, ?_⟩
    rw [← declared, ← declared']
    exact alike.placeVerdicts_eq reorders r.k

/-- Declaring the places and the arcs of a net in another order changes neither whether an
exploration of it fails nor how, and it changes nothing in the findings but the order of the
verdicts, which is that of the places. -/
theorem bounds_reordered (settings : ExploreSettings) (r : BoundRequest) {places : List Place}
    {arcs : List Arc} (samePlaces : r.net.places.Perm places) (sameArcs : r.net.arcs.Perm arcs) :
    let shuffled : BoundRequest := { r with net := { r.net with places, arcs } }
    (∃ e e', bounds settings r = .error e ∧ bounds settings shuffled = .error e' ∧
      e'.kind = e.kind) ∨
    (∃ f f', bounds settings r = .ok f ∧ bounds settings shuffled = .ok f' ∧
      f' = { f with placeVerdicts := f'.placeVerdicts } ∧
      ∃ verdict : Place → PlaceVerdict, f.placeVerdicts = r.net.places.map verdict ∧
        f'.placeVerdicts = places.map verdict) := by
  intro shuffled
  have same : r.net.Reorders shuffled.net := ⟨samePlaces, rfl, sameArcs⟩
  cases found : bounds settings r with
  | error e =>
    obtain ⟨e', failed, kind⟩ := bounds_error_reordered same found
    exact .inl ⟨e, e', rfl, failed, kind⟩
  | ok f =>
    obtain ⟨f', answered, equal⟩ := bounds_ok_reordered same found
    exact .inr ⟨f, f', rfl, answered, equal⟩

/-- A search that its limits cut short after one state. -/
theorem bounds_reordered_cycle :
    let r : BoundRequest :=
      { net := ⟨Net.cycle.places, Net.cycle.transitions, Net.cycleArcs⟩, maxStates := some 1 }
    let places := r.net.places.reverse
    let arcs := r.net.arcs.reverse
    ∃ f f', bounds {} r = .ok f ∧ bounds {} { r with net := { r.net with places, arcs } } = .ok f' ∧
      f' = { f with placeVerdicts := f'.placeVerdicts } ∧
      f'.placeVerdicts = f.placeVerdicts.reverse := by
  intro r places arcs
  obtain ⟨_, answered⟩ : ∃ f, bounds {} r = .ok f :=
    bounds_ok_iff.mpr ⟨⟨_, Net.ofModel_cycle⟩, nofun, by decide⟩
  rcases bounds_reordered {} r (List.reverse_perm r.net.places).symm
    (List.reverse_perm r.net.arcs).symm with ⟨_, _, failed, _⟩ | ⟨f, f', found, found', same⟩
  · simp [answered] at failed
  · obtain ⟨equal, verdict, here, there⟩ := same
    exact ⟨f, f', found, found', equal, by rw [here, there, List.map_reverse]⟩

end TokenGame.Service
