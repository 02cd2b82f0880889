import TokenGame.Proofs.Net.Arcs

/-! Which models describe a net. Acceptance depends on the sets of ids and on each arc by
itself, never on the order in which places and arcs are declared, and not at all on labels
and tokens; two models that differ in these alone compile to nets that do too. -/
namespace TokenGame

theorem firstRepeat?_eq_none_iff {earlier rest : List String} :
    firstRepeat? earlier rest = none ↔ rest.Nodup ∧ ∀ id ∈ rest, id ∉ earlier := by
  refine ⟨nodup_of_firstRepeat?, ?_⟩
  rintro ⟨distinct, fresh⟩
  induction rest generalizing earlier with
  | nil => rfl
  | cons id rest ih =>
    obtain ⟨once, distinct⟩ := List.nodup_cons.mp distinct
    have new : id ∉ earlier := fresh id (.head rest)
    rw [firstRepeat?, if_neg (by simpa using new)]
    refine ih distinct fun other member seen => ?_
    rcases List.mem_cons.mp seen with rfl | seen
    · exact once member
    · exact fresh other (.tail id member) seen

namespace Model

variable {m n : Model}

/-- An arc joins a place and a transition, in either direction. -/
def Joins (m : Model) (a : Arc) : Prop :=
  (a.src ∈ m.places.map (·.id) ∧ a.dst ∈ m.transitions.map (·.id)) ∨
    (a.src ∈ m.transitions.map (·.id) ∧ a.dst ∈ m.places.map (·.id))

/-- What a model needs in order to describe a net. -/
structure Accepted (m : Model) : Prop where
  nodes : m.nodeIds.Nodup
  places : m.places.length < indexLimit
  transitions : m.transitions.length < indexLimit
  arcs : (m.arcs.map (·.id)).Nodup
  joins : ∀ a ∈ m.arcs, a.weight ≠ 0 ∧ m.Joins a

theorem mem_map_iff_getElem? {α : Type} {key : α → String} {xs : List α} {id : String} :
    id ∈ xs.map key ↔ ∃ (i : Nat) (x : α), xs[i]? = some x ∧ key x = id := by
  rw [List.mem_map]
  constructor
  · rintro ⟨x, member, same⟩
    obtain ⟨i, found⟩ := List.mem_iff_getElem?.mp member
    exact ⟨i, x, found, same⟩
  · rintro ⟨i, x, found, same⟩
    exact ⟨x, List.mem_of_getElem? found, same⟩

theorem exists_place_iff (distinct : m.nodeIds.Nodup) {id : String} :
    (∃ i, m.node? id = some (.place i)) ↔ id ∈ m.places.map (·.id) := by
  simp only [node?_eq_place_iff distinct, mem_map_iff_getElem?]

theorem exists_transition_iff (distinct : m.nodeIds.Nodup) {id : String} :
    (∃ t, m.node? id = some (.transition t)) ↔ id ∈ m.transitions.map (·.id) := by
  simp only [node?_eq_transition_iff distinct, mem_map_iff_getElem?]

theorem exists_arcEffect_iff (distinct : m.nodeIds.Nodup) {earlier : List String} {a : Arc} :
    (∃ effect, m.arcEffect earlier a = .ok effect) ↔
      a.id ∉ earlier ∧ a.weight ≠ 0 ∧ m.Joins a := by
  simp only [arcEffect_ok_iff, Joins, ← exists_place_iff distinct,
    ← exists_transition_iff distinct]
  constructor
  · rintro ⟨effect, fresh, heavy, p, t, ⟨src, dst, _⟩ | ⟨src, dst, _⟩⟩
    · exact ⟨fresh, heavy, .inl ⟨⟨p, src⟩, ⟨t, dst⟩⟩⟩
    · exact ⟨fresh, heavy, .inr ⟨⟨t, src⟩, ⟨p, dst⟩⟩⟩
  · rintro ⟨fresh, heavy, ⟨⟨p, src⟩, ⟨t, dst⟩⟩ | ⟨⟨t, src⟩, ⟨p, dst⟩⟩⟩
    · exact ⟨.input p t, fresh, heavy, p, t, .inl ⟨src, dst, rfl⟩⟩
    · exact ⟨.output p t, fresh, heavy, p, t, .inr ⟨src, dst, rfl⟩⟩

theorem gather_cons_ok {earlier : List String} {a : Arc} {rest : List Arc}
    {flows final : Array Flow} : m.gather earlier (a :: rest) flows = .ok final ↔
      ∃ effect, m.arcEffect earlier a = .ok effect ∧
        m.gather (a.id :: earlier) rest (effect.apply flows a.weight) = .ok final := by
  simp only [gather, bind, Except.bind]
  cases m.arcEffect earlier a <;> simp

/-- Arcs are gathered if each of them is acceptable and no id repeats. -/
theorem exists_gather_iff (distinct : m.nodeIds.Nodup) (earlier : List String)
    (arcs : List Arc) (flows : Array Flow) :
    (∃ final, m.gather earlier arcs flows = .ok final) ↔
      (arcs.map (·.id)).Nodup ∧
        ∀ a ∈ arcs, a.id ∉ earlier ∧ a.weight ≠ 0 ∧ m.Joins a := by
  induction arcs generalizing earlier flows with
  | nil => simp [gather]
  | cons a rest ih =>
    simp only [gather_cons_ok, List.map_cons, List.nodup_cons, List.forall_mem_cons]
    constructor
    · rintro ⟨final, effect, accepted, later⟩
      obtain ⟨once, each⟩ := (ih _ _).mp ⟨final, later⟩
      refine ⟨⟨fun again => ?_, once⟩, (exists_arcEffect_iff distinct).mp ⟨effect, accepted⟩,
        fun b member => ?_⟩
      · obtain ⟨b, member, same⟩ := List.mem_map.mp again
        exact (each b member).1 (same ▸ .head earlier)
      · exact ⟨fun seen => (each b member).1 (.tail a.id seen), (each b member).2⟩
    · rintro ⟨⟨new, once⟩, first, each⟩
      obtain ⟨effect, accepted⟩ := (exists_arcEffect_iff distinct).mpr first
      have others : ∀ b ∈ rest, b.id ∉ a.id :: earlier ∧ b.weight ≠ 0 ∧ m.Joins b := by
        intro b member
        refine ⟨fun seen => ?_, (each b member).2⟩
        rcases List.mem_cons.mp seen with same | seen
        · exact new (List.mem_map.mpr ⟨b, member, same⟩)
        · exact (each b member).1 seen
      obtain ⟨final, later⟩ := (ih _ (effect.apply flows a.weight)).mpr ⟨once, others⟩
      exact ⟨final, effect, accepted, later⟩

/-- Models that declare the same ids and arcs, and may differ in the labels and tokens of
their places. -/
structure SameShape (m n : Model) : Prop where
  places : n.places.map (·.id) = m.places.map (·.id)
  transitions : n.transitions = m.transitions
  arcs : n.arcs = m.arcs

theorem SameShape.node?_eq (same : m.SameShape n) (id : String) : n.node? id = m.node? id := by
  have positions : ∀ places : List Place,
      places.findIdx? (·.id == id) = (places.map (·.id)).findIdx? (· == id) := fun places => by
    rw [List.findIdx?_map]
    rfl
  rw [node?, node?, positions, positions, same.places, same.transitions]

theorem SameShape.gather_eq (same : m.SameShape n) (earlier : List String) (arcs : List Arc)
    (flows : Array Flow) : n.gather earlier arcs flows = m.gather earlier arcs flows := by
  have effects : n.arcEffect = m.arcEffect := by
    funext earlier a
    simp only [arcEffect, same.node?_eq]
  induction arcs generalizing earlier flows with
  | nil => rfl
  | cons a rest ih => simp only [gather, effects, ih]

end Model

namespace Net

variable {model other : Model} {net : Net}

/-- Compilation, check by check. -/
theorem ofModel_eq (model : Model) : ofModel model =
    match firstRepeat? [] model.nodeIds with
    | some id => .error (.duplicateNode id)
    | none =>
      if indexLimit ≤ model.places.length then
        .error (.tooManyNodes .place model.places.length)
      else if indexLimit ≤ model.transitions.length then
        .error (.tooManyNodes .transition model.transitions.length)
      else (model.gather [] model.arcs (Array.replicate model.transitions.length {})).map
        fun flows => ⟨model.places, model.transitions, flows⟩ := by
  simp only [ofModel, bind, Except.bind, throw, throwThe, MonadExceptOf.throw, pure,
    Except.pure]
  cases firstRepeat? [] model.nodeIds with
  | some id => rfl
  | none =>
    simp only
    split
    · rfl
    split
    · rfl
    cases model.gather [] model.arcs (Array.replicate model.transitions.length {}) <;> rfl

/-- The accepted models are those that compile. -/
theorem exists_ofModel_iff : (∃ net, ofModel model = .ok net) ↔ model.Accepted := by
  rw [ofModel_eq]
  cases repeated : firstRepeat? [] model.nodeIds with
  | some id =>
    simp only [reduceCtorEq, exists_false, false_iff]
    intro accepted
    rw [firstRepeat?_eq_none_iff.mpr ⟨accepted.nodes, by simp⟩] at repeated
    cases repeated
  | none =>
    have distinct := (firstRepeat?_eq_none_iff.mp repeated).1
    by_cases places : indexLimit ≤ model.places.length
    · simp only [if_pos places, reduceCtorEq, exists_false, false_iff]
      exact fun accepted => absurd accepted.places (Nat.not_lt.mpr places)
    by_cases transitions : indexLimit ≤ model.transitions.length
    · simp only [if_neg places, if_pos transitions, reduceCtorEq, exists_false, false_iff]
      exact fun accepted => absurd accepted.transitions (Nat.not_lt.mpr transitions)
    have gathers := Model.exists_gather_iff distinct [] model.arcs
      (Array.replicate model.transitions.length {})
    simp only [List.not_mem_nil, not_false_eq_true, true_and] at gathers
    simp only [if_neg places, if_neg transitions]
    constructor
    · rintro ⟨net, compiled⟩
      cases gathered : model.gather [] model.arcs
          (Array.replicate model.transitions.length {}) with
      | error cause => simp [gathered, Except.map] at compiled
      | ok flows =>
        obtain ⟨arcs, joins⟩ := gathers.mp ⟨flows, gathered⟩
        exact ⟨distinct, Nat.not_le.mp places, Nat.not_le.mp transitions, arcs, joins⟩
    · intro accepted
      obtain ⟨flows, gathered⟩ := gathers.mpr ⟨accepted.arcs, accepted.joins⟩
      exact ⟨_, by rw [gathered]; rfl⟩

/-- A model of the same shape compiles alike, and keeps its own places. -/
theorem ofModel_sameShape (same : model.SameShape other) :
    ofModel other = (ofModel model).map fun net => { net with places := other.places } := by
  have ids : other.nodeIds = model.nodeIds := by
    rw [Model.nodeIds, Model.nodeIds, same.places, same.transitions]
  have length : other.places.length = model.places.length := by
    simpa using congrArg List.length same.places
  rw [ofModel_eq, ofModel_eq, ids, length, same.transitions, same.arcs]
  cases firstRepeat? [] model.nodeIds with
  | some id => rfl
  | none =>
    simp only
    split
    · rfl
    split
    · rfl
    rw [same.gather_eq]
    cases model.gather [] model.arcs (Array.replicate model.transitions.length {}) <;> rfl

/-- Firing knows places by their ids only. -/
theorem fire_withPlaces {places : List Place} (ids : places.map (·.id) = net.places.map (·.id))
    (m : Marking) (id : String) : { net with places }.fire m id = net.fire m id := by
  have length : places.length = net.places.length := by
    simpa using congrArg List.length ids
  have names : ∀ i, { net with places }.placeName i = net.placeName i := by
    intro i
    have here := congrArg (·[i]?) ids
    simp only [List.getElem?_map] at here
    unfold placeName
    cases left : places[i]? <;> cases right : net.places[i]? <;> simp_all
  have puts : ∀ taken f, { net with places }.putOutputs taken f = net.putOutputs taken f := by
    intro taken f
    simp only [putOutputs, names]
  have fires : ∀ t, { net with places }.fireTransition m t = net.fireTransition m t := by
    intro t
    simp only [fireTransition, length, puts]
    rfl
  simp only [fire, fires]
  rfl

end Net

end TokenGame
