import TokenGame.Proofs.Net.Accepted
import TokenGame.Proofs.Service.Requests
import TokenGame.Proofs.Simulation.Exhaustive

/-! Firing a list of transitions in several ways. A session keeps its state itself; a client
of the service carries it along, either in the net of the last answer or in its marking.
Whatever carries the state, the net does the same at every step: the markings on the way
are the same, and so is the failure that ends it. -/
namespace TokenGame

/-- What firing one transition after the other shows: an answer for each firing that
succeeds, and the failure that ended the course, if there was one. -/
structure Course (α ε : Type) where
  answers : List α
  failure : Option ε

namespace Course

variable {σ α β ε δ : Type}

/-- Fires ids one after the other, up to the first failure. An answer says what to go on
from. -/
def run (fire : σ → String → Except ε α) (resume : α → σ) : σ → List String → Course α ε
  | _, [] => ⟨[], none⟩
  | state, id :: rest =>
    match fire state id with
    | .error cause => ⟨[], some cause⟩
    | .ok answer =>
      let later := run fire resume (resume answer) rest
      ⟨answer :: later.answers, later.failure⟩

def map (f : α → β) (c : Course α ε) : Course β ε := { c with answers := c.answers.map f }

def mapFailure (f : ε → δ) (c : Course α ε) : Course α δ := { c with failure := c.failure.map f }

end Course

/-- The course of the net's own firing, from a marking. -/
def Net.course (net : Net) (m : Marking) (ids : List String) : Course Marking FireError :=
  .run net.fire id m ids

namespace Course

variable {σ α ε : Type} {net : Net} {fire : σ → String → Except ε α} {resume : α → σ}
  {shown : α → TokenMap} {wrap : FireError → ε}

/-- What keeps in step with the net at one firing does so along the whole course. -/
theorem run_follows (related : σ → Marking → Prop) (good : α → Prop)
    (fails : ∀ {s m id cause}, related s m → net.fire m id = .error cause →
      fire s id = .error (wrap cause))
    (fires : ∀ {s m id next}, related s m → net.fire m id = .ok next →
      ∃ a, fire s id = .ok a ∧ shown a = net.markingToMap next ∧ good a ∧
        related (resume a) next)
    {s : σ} {m : Marking} (start : related s m) (ids : List String) :
    (run fire resume s ids).map shown = ((net.course m ids).map net.markingToMap).mapFailure wrap ∧
      ∀ a ∈ (run fire resume s ids).answers, good a := by
  induction ids generalizing s m with
  | nil => exact ⟨rfl, nofun⟩
  | cons id rest ih =>
    cases step : net.fire m id with
    | error cause => simp [run, Net.course, map, mapFailure, step, fails start step]
    | ok next =>
      obtain ⟨a, fired, same, fine, kept⟩ := fires start step
      obtain ⟨later, all⟩ := ih kept
      simp only [map, mapFailure, Net.course, mk.injEq] at later
      refine ⟨?_, ?_⟩
      · simp [run, Net.course, map, mapFailure, step, fired, same, later]
      · simpa [run, fired, fine] using all

end Course

/-- A model that differs from another in the tokens of its places only. -/
structure Model.Retokened (m n : Model) : Prop where
  places : n.places.map ({ · with tokens := 0 }) = m.places.map ({ · with tokens := 0 })
  transitions : n.transitions = m.transitions
  arcs : n.arcs = m.arcs

namespace Model.Retokened

variable {m n : Model}

theorem refl (m : Model) : m.Retokened m := ⟨rfl, rfl, rfl⟩

theorem sameShape (same : m.Retokened n) : m.SameShape n := by
  refine ⟨?_, same.transitions, same.arcs⟩
  have ids := congrArg (List.map Place.id) same.places
  simpa [List.map_map, Function.comp_def] using ids

theorem withTokens (same : m.Retokened n) (tokens : TokenMap) :
    m.Retokened (Service.withTokens n tokens) := by
  refine ⟨?_, same.transitions, same.arcs⟩
  rw [← same.places]
  simp [Service.withTokens, Function.comp_def]

end Model.Retokened

namespace Net

variable {model current : Model} {net : Net} {m next : Marking}

theorem markingToMap_withPlaces {places : List Place}
    (ids : places.map (·.id) = net.places.map (·.id)) (m : Marking) :
    { net with places }.markingToMap m = net.markingToMap m := by
  have entries : ∀ ps : List Place, (ps.mapIdx fun i p => (p.id, m.tokens i)) =
      (ps.map (·.id)).mapIdx fun i id => (id, m.tokens i) := fun ps => by
    apply List.ext_getElem <;> simp
  rw [markingToMap, markingToMap, entries, entries, ids]

theorem ofModel_retokened (compiled : ofModel model = .ok net)
    (same : model.Retokened current) :
    ofModel current = .ok { net with places := current.places } := by
  rw [ofModel_sameShape same.sameShape, compiled]
  rfl

/-- A model that was given the tokens of a marking compiles, and starts in the marking. -/
theorem initialMarking_withTokens (compiled : ofModel model = .ok net)
    (same : model.Retokened current) (size : m.size = net.places.length) :
    let places := (Service.withTokens current (net.markingToMap m)).places
    ofModel (Service.withTokens current (net.markingToMap m)) = .ok { net with places } ∧
      { net with places }.initialMarking = m := by
  have wellFormed := wellFormed_of_ofModel compiled
  obtain ⟨_, _, declared, _⟩ := ofModel_parts compiled
  have ids : current.places.map (·.id) = net.places.map (·.id) := declared ▸ same.sameShape.places
  have length : current.places.length = net.places.length := by
    simpa using congrArg List.length ids
  refine ⟨ofModel_retokened compiled (same.withTokens _), ?_⟩
  apply Marking.ext_tokens
  · simp [Service.withTokens, length, size]
  · intro i inside
    have bound : i < current.places.length := by simpa [Service.withTokens] using inside
    have place : net.places[i]? = some net.places[i] := List.getElem?_eq_getElem (length ▸ bound)
    have key : current.places[i].id = net.places[i].id := by
      have here := congrArg (·[i]?) ids
      simpa [bound, length ▸ bound] using here
    rw [tokens_initialMarking (p := { current.places[i] with
      tokens := (net.markingToMap m).tokens current.places[i].id })]
    · rw [key, TokenMap.tokens, wellFormed.get?_markingToMap place]
      rfl
    · simp [Service.withTokens, bound]

end Net

namespace Session

/-- The tokens of every place where the session is. -/
def tokens (s : Session) : TokenMap := s.net.markingToMap s.marking

def course (s : Session) (ids : List String) : Course Session SessionError :=
  .run fire id s ids

/-- A session that is at a marking of its net takes the course of the net from there. -/
theorem Consistent.course_follows {s : Session} (consistent : s.Consistent) (ids : List String) :
    (s.course ids).map tokens =
      ((s.net.course s.marking ids).map s.net.markingToMap).mapFailure .fire := by
  refine (Course.run_follows
    (fun s' m => s'.Consistent ∧ s'.net = s.net ∧ s'.marking = m) (fun _ => True)
    ?_ ?_ ⟨consistent, rfl, rfl⟩ ids).1
  · rintro s' m id cause ⟨_, same, rfl⟩ failed
    rw [Session.fire, same, failed]
  · rintro s' m id next ⟨kept, same, rfl⟩ fired
    obtain ⟨s'', done, later, on, reached⟩ := kept.fire_ok (same ▸ fired)
    exact ⟨s'', done, by rw [tokens, on, same, reached], trivial, later, on.trans same,
      reached⟩

end Session

/-- An answer to a firing in some model: its net is the model with other tokens, compiles,
and starts in the answer's marking. -/
structure FireResponse.Carries (model : Model) (r : FireResponse) : Prop where
  retokened : model.Retokened r.net
  initial : ∃ net, Net.ofModel r.net = .ok net ∧ net.markingToMap net.initialMarking = r.marking

namespace Service

/-- Firing through the service, each time with the net of the last answer. -/
def courseByNet (model : Model) (ids : List String) : Course FireResponse ServiceError :=
  .run (fun net id => fire { net, transitionId := id }) (·.net) model ids

/-- Firing through the service, each time with the marking of the last answer. -/
def courseByMarking (model : Model) (ids : List String) : Course FireResponse ServiceError :=
  .run (fun marking id => fire { net := model, transitionId := id, marking })
    (fun r => some r.marking) none ids

variable {model current : Model} {net : Net} {m next : Marking} {marking : Option TokenMap}
  {id : String}

/-- A client holds a marking of a net in a request whose model differs from that of the
net in tokens only. -/
structure Holds (model : Model) (net : Net) (current : Model) (marking : Option TokenMap)
    (m : Marking) : Prop where
  retokened : model.Retokened current
  means : compile current marking = .ok ({ net with places := current.places }, m)

section

variable (compiled : Net.ofModel model = .ok net)
include compiled

theorem Holds.initial : Holds model net model none net.initialMarking := by
  have self : net = { net with places := model.places } :=
    Except.ok.inj (compiled.symm.trans (Net.ofModel_retokened compiled (.refl model)))
  refine ⟨.refl model, ?_⟩
  rw [← self]
  simp only [compile, compiled]

theorem Holds.ids (holds : Holds model net current marking m) :
    current.places.map (·.id) = net.places.map (·.id) := by
  obtain ⟨_, _, declared, _⟩ := Net.ofModel_parts compiled
  rw [declared]
  exact holds.retokened.sameShape.places

theorem Holds.fire_error (holds : Holds model net current marking m) {cause : FireError}
    (failed : net.fire m id = .error cause) :
    fire ⟨current, id, marking⟩ = .error (.fire cause) := by
  rw [fire_eq holds.means, Net.fire_withPlaces (holds.ids compiled), failed]

/-- A firing that the client asks for gives the marking that the net gives, both in the
answer's map and in its net. -/
theorem Holds.fire_ok (holds : Holds model net current marking m)
    (fired : net.fire m id = .ok next) :
    ∃ r, fire ⟨current, id, marking⟩ = .ok r ∧ r.marking = net.markingToMap next ∧
      r.Carries model ∧ Holds model net r.net none next ∧
      Holds model net current (some r.marking) next := by
  have wellFormed := Net.wellFormed_of_ofModel compiled
  obtain ⟨_, _, step⟩ := Net.fire_ok_iff.mp fired
  have size := (wellFormed.fireTransition_counts step).1
  have shown := Net.markingToMap_withPlaces (holds.ids compiled) next
  obtain ⟨again, start⟩ := Net.initialMarking_withTokens compiled holds.retokened size
  have same := holds.retokened.withTokens (net.markingToMap next)
  refine ⟨⟨net.markingToMap next, withTokens current (net.markingToMap next)⟩, ?_, rfl,
    ⟨same, _, again, ?_⟩, ⟨same, ?_⟩, ⟨holds.retokened, ?_⟩⟩
  · rw [fire_eq holds.means, Net.fire_withPlaces (holds.ids compiled), fired, ← shown]
  · rw [start]
    apply Net.markingToMap_withPlaces
    simpa [withTokens, Function.comp_def] using holds.ids compiled
  · simp only [compile, again, start]
  · have compiled' := Net.ofModel_retokened compiled holds.retokened
    have back := (Net.wellFormed_of_ofModel compiled').markingOfMap_markingToMap
      (size.trans (by simpa using (congrArg List.length (holds.ids compiled)).symm))
    rw [shown] at back
    simp only [compile, compiled', back]

theorem courseByNet_follows (ids : List String) :
    (courseByNet model ids).map (·.marking) =
        ((net.course net.initialMarking ids).map net.markingToMap).mapFailure .fire ∧
      ∀ r ∈ (courseByNet model ids).answers, r.Carries model := by
  refine Course.run_follows (fun current m => Holds model net current none m) _ ?_ ?_
    (.initial compiled) ids
  · intro current m id cause holds failed
    exact holds.fire_error compiled failed
  · intro current m id next holds fired
    obtain ⟨r, done, shown, carries, kept, _⟩ := holds.fire_ok compiled fired
    exact ⟨r, done, shown, carries, kept⟩

theorem courseByMarking_follows (ids : List String) :
    (courseByMarking model ids).map (·.marking) =
        ((net.course net.initialMarking ids).map net.markingToMap).mapFailure .fire ∧
      ∀ r ∈ (courseByMarking model ids).answers, r.Carries model := by
  refine Course.run_follows (fun marking m => Holds model net model marking m) _ ?_ ?_
    (.initial compiled) ids
  · intro marking m id cause holds failed
    exact holds.fire_error compiled failed
  · intro marking m id next holds fired
    obtain ⟨r, done, shown, carries, _, kept⟩ := holds.fire_ok compiled fired
    exact ⟨r, done, shown, carries, kept⟩

end

/-- For a model that compiles, a fresh session and a client that carries the state along in
the nets or in the markings of the answers all take the course of the net from its initial
marking, and every answer carries the marking that it shows. -/
theorem courses_agree (compiled : Net.ofModel model = .ok net) (random : Random) :
    ∃ fresh, Session.ofModel model random = .ok fresh ∧ ∀ ids,
      let course := (net.course net.initialMarking ids).map net.markingToMap
      (fresh.course ids).map (·.tokens) = course.mapFailure .fire ∧
      (courseByNet model ids).map (·.marking) = course.mapFailure .fire ∧
      (courseByMarking model ids).map (·.marking) = course.mapFailure .fire ∧
      ∀ r ∈ (courseByNet model ids).answers ++ (courseByMarking model ids).answers,
        r.Carries model := by
  obtain ⟨fresh, opened, consistent, rfl, initial⟩ := Session.Consistent.ofModel compiled random
  refine ⟨fresh, opened, fun ids => ?_⟩
  obtain ⟨byNet, carriesNet⟩ := courseByNet_follows compiled ids
  obtain ⟨byMarking, carriesMarking⟩ := courseByMarking_follows compiled ids
  refine ⟨initial ▸ consistent.course_follows ids, byNet, byMarking, fun r member => ?_⟩
  rcases List.mem_append.mp member with member | member
  · exact carriesNet r member
  · exact carriesMarking r member

theorem courses_agree_cycle :
    let model : Model := ⟨Net.cycle.places, Net.cycle.transitions, Net.cycleArcs⟩
    let course : Course TokenMap FireError :=
      ⟨[.ofList [("left", 0), ("right", 1)], .ofList [("left", 1), ("right", 0)]],
        some (.notEnabled "back")⟩
    ∃ fresh, Session.ofModel model (.ofSeed 7) = .ok fresh ∧
      (fresh.course ["go", "back", "back"]).map (·.tokens) = course.mapFailure .fire ∧
      (courseByNet model ["go", "back", "back"]).map (·.marking) = course.mapFailure .fire := by
  intro model course
  obtain ⟨fresh, opened, agree⟩ := courses_agree Net.ofModel_cycle (.ofSeed 7)
  obtain ⟨session, byNet, _⟩ := agree ["go", "back", "back"]
  have done : (Net.cycle.course Net.cycle.initialMarking ["go", "back", "back"]).map
      Net.cycle.markingToMap = course := rfl
  rw [done] at session byNet
  exact ⟨fresh, opened, session, byNet⟩

end Service

end TokenGame
