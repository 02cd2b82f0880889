import TokenGame.Proofs.Simulation.Run

/-! What a random step fires. The words of the generator give a position in the list of enabled
ids, the position gives an id, and the id is looked up again before it is fired: whatever the
words are, the way leads from an enabled transition back to the same one, so that only a full
place can stop it. -/
namespace TokenGame

namespace Session

variable {s : Session}

/-- A random step fires the enabled id at a position and records it, or a place is too full. -/
structure FiresAt (s : Session) (index : Nat) (id : String) : Prop where
  inside : index < s.enabled.length
  found : s.enabled[index]? = some id
  member : id ∈ s.enabled
  ends : (∃ next, s.net.fire s.marking id = .ok next ∧ s.stepRandom.1 = .ok (some id) ∧
      s.stepRandom.2.history.current? = some ⟨some id, next, s.clock⟩) ∨
    ∃ place, s.net.fire s.marking id = .error (.tokenOverflow place) ∧
      s.stepRandom.1 = .error (.fire (.tokenOverflow place))

/-- What a random step does, given the words of the generator from its position on. -/
structure FiresEnabled (s : Session) : Prop where
  idle : s.stepRandom.1 = .ok none ↔ s.net.enabledTransitions s.marking = []
  chosen : s.net.enabledTransitions s.marking ≠ [] → ∃ id, s.FiresAt
    (Random.draw (Random.word s.random.key) s.random.drawn s.enabled.length).1 id
  fails : ∀ cause, s.stepRandom.1 = .error cause → ∃ place, cause = .fire (.tokenOverflow place)

theorem enabled_eq_nil_iff : s.enabled = [] ↔ s.net.enabledTransitions s.marking = [] := by
  simp [enabled, Net.enabledIds]

namespace Consistent

variable (consistent : s.Consistent)
include consistent

/-- An enabled id is fired and recorded, or some place is too full for it. -/
theorem fire_enabled {id : String} (member : id ∈ s.enabled) :
    (∃ next s', s.net.fire s.marking id = .ok next ∧ s.fire id = .ok s' ∧
      s'.history.current? = some ⟨some id, next, s.clock⟩) ∨
    ∃ place, s.net.fire s.marking id = .error (.tokenOverflow place) ∧
      s.fire id = .error (.fire (.tokenOverflow place)) := by
  cases fires : s.net.fire s.marking id with
  | error cause =>
    have failed : s.fire id = .error (.fire cause) := by simp only [Session.fire, fires]
    obtain ⟨place, same⟩ := consistent.fire_error member failed
    obtain rfl := SessionError.fire.inj same
    exact .inr ⟨place, rfl, failed⟩
  | ok next =>
    obtain ⟨s', done, _⟩ := consistent.fire_ok fires
    obtain ⟨_, history, fires', appended, rfl⟩ := fire_ok_iff.mp done
    obtain rfl := Except.ok.inj (fires.symm.trans fires')
    exact .inl ⟨next, _, rfl, done, History.current?_append consistent.inside appended⟩

/-- The id at the position that is drawn is fired at the current marking. -/
theorem firesAt_drawn (some : s.enabled ≠ []) : ∃ id, s.FiresAt
    (Random.draw (Random.word s.random.key) s.random.drawn s.enabled.length).1 id := by
  have inside := Random.draw_lt (Random.word s.random.key) s.random.drawn
    (List.length_pos_iff.mpr some) consistent.few
  have chosen := choose_eq some
  rw [Random.below_eq_draw] at chosen
  generalize Random.draw (Random.word s.random.key) s.random.drawn s.enabled.length = drawn
    at chosen inside
  have found := List.getElem?_eq_getElem inside
  have member := List.getElem_mem inside
  simp only [found] at chosen
  refine ⟨s.enabled[drawn.1], inside, found, member, ?_⟩
  -- the draw leaves the marking and the history alone
  rcases (consistent.drawn ⟨s.random.key, drawn.2⟩).fire_enabled member with
    ⟨next, s', fires, done, current⟩ | ⟨place, fires, failed⟩
  · refine .inl ⟨next, fires, ?_⟩
    simp only [stepRandom, chosen, done, true_and]
    exact current
  · refine .inr ⟨place, fires, ?_⟩
    simp only [stepRandom, chosen, failed]

theorem firesEnabled : s.FiresEnabled := by
  by_cases none : s.enabled = []
  · have idle := stepRandom_of_enabled_nil none
    have dead := enabled_eq_nil_iff.mp none
    refine ⟨?_, fun some => absurd dead some, fun cause failed => ?_⟩
    · simp only [idle, dead]
    · rw [idle] at failed
      cases failed
  · have alive := mt enabled_eq_nil_iff.mpr none
    obtain ⟨id, fires⟩ := consistent.firesAt_drawn none
    refine ⟨?_, fun _ => ⟨id, fires⟩, fun cause failed => ?_⟩
    · rcases fires.ends with ⟨_, _, fired, _⟩ | ⟨_, _, failed⟩
      · simp [fired, alive]
      · simp [failed, alive]
    · rcases fires.ends with ⟨_, _, fired, _⟩ | ⟨place, _, full⟩
      · cases fired.symm.trans failed
      · exact ⟨place, (Except.error.inj (full.symm.trans failed)).symm⟩

end Consistent

/-- Random steps fire enabled transitions only. Any stream of words gives a position inside any
list that 32 bits can count, and a session that operations have led to, with a generator in any
state, fires the enabled id at this position or fails because a place is full; it does nothing
where nothing is enabled, and only there. -/
theorem stepRandom_fires_enabled {model : Model} {net : Net}
    (compiled : Net.ofModel model = .ok net) (random : Random) :
    (∀ (words : Nat → UInt32) (position n : Nat), 1 ≤ n → n < UInt32.size →
      (Random.draw words position n).1 < n) ∧
    ∃ fresh, Session.ofModel model random = .ok fresh ∧
      ∀ operations (generator : Random),
        { fresh.performAll operations with random := generator }.FiresEnabled := by
  obtain ⟨fresh, opened, consistent, _⟩ := Consistent.ofModel compiled random
  refine ⟨fun words position n positive few => ?_, fresh, opened, fun operations generator => ?_⟩
  · exact Random.draw_lt words position positive (Nat.le_of_lt few)
  · exact ((consistent.performAll operations).drawn generator).firesEnabled

/-- A session whose place is full, with a generator of its own. -/
def brimful : Session := { brim.performAll [.move (.run 1)] with random := .ofSeed 3 }

theorem stepRandom_brimful : brimful.net.enabledTransitions brimful.marking ≠ [] ∧
    brimful.stepRandom.1.isOk = false := by
  decide +kernel

/-- A draw in which the second word carries into the first, and a step that finds no room. -/
theorem stepRandom_fires_enabled_brim :
    (Random.draw (fun i => if i = 0 then 0x55555555 else 0xffffffff) 0 3 = (1, 2) ∧ 1 < 3) ∧
    Session.ofModel brim.model brim.random = .ok brim ∧
    ∃ id place, brimful.FiresAt
      (Random.draw (Random.word brimful.random.key) brimful.random.drawn
        brimful.enabled.length).1 id ∧
      brimful.stepRandom.1 = .error (.fire (.tokenOverflow place)) := by
  have compiled : Net.ofModel brim.model = .ok brim.net := rfl
  obtain ⟨below, fresh, opened, all⟩ := stepRandom_fires_enabled compiled brim.random
  obtain rfl : brim = fresh := Except.ok.inj opened
  obtain ⟨alive, fails⟩ := stepRandom_brimful
  have fires : brimful.FiresEnabled := all [.move (.run 1)] (.ofSeed 3)
  obtain ⟨id, drawn⟩ := fires.chosen alive
  refine ⟨⟨by decide, below (fun i => if i = 0 then 0x55555555 else 0xffffffff) 0 3 (by decide)
    (by decide)⟩, opened, id, ?_⟩
  cases ended : brimful.stepRandom.1 with
  | ok => cases ended ▸ fails
  | error cause =>
    obtain ⟨place, rfl⟩ := fires.fails cause ended
    exact ⟨place, drawn, rfl⟩

end Session

end TokenGame
