import TokenGame.Proofs.Net.TokensById
import TokenGame.Proofs.Net.Accepted

/-! Which error a model is refused with. Nodes are looked at before arcs, each in
declaration order, and of an arc the first thing wrong is named; so the error tells which
item is the first that keeps the model from being a net. In a net that is accepted,
ids and positions determine each other. -/
namespace TokenGame

/-- The first repeated element is the one after the longest part without repeats. -/
theorem firstRepeat?_eq_some_iff {earlier rest : List String} {id : String} :
    firstRepeat? earlier rest = some id ↔ ∃ before after, rest = before ++ id :: after ∧
      before.Nodup ∧ (∀ other ∈ before, other ∉ earlier) ∧ (id ∈ earlier ∨ id ∈ before) := by
  induction rest generalizing earlier with
  | nil => simp [firstRepeat?]
  | cons first rest ih =>
    by_cases seen : first ∈ earlier
    · rw [firstRepeat?, if_pos (by simpa using seen)]
      constructor
      · rintro ⟨⟩
        exact ⟨[], rest, rfl, List.nodup_nil, by simp, .inl seen⟩
      · rintro ⟨before, after, parts, _, new, _⟩
        cases before with
        | nil =>
          obtain ⟨rfl, _⟩ := List.cons.inj parts
          rfl
        | cons other before =>
          obtain ⟨rfl, _⟩ := List.cons.inj parts
          exact absurd seen (new first (.head before))
    · rw [firstRepeat?, if_neg (by simpa using seen), ih]
      constructor
      · rintro ⟨before, after, rfl, distinct, new, again⟩
        refine ⟨first :: before, after, rfl, List.nodup_cons.mpr ⟨fun member => ?_, distinct⟩, ?_, ?_⟩
        · exact new first member (.head earlier)
        · simp only [List.forall_mem_cons]
          exact ⟨seen, fun other member old => new other member (.tail first old)⟩
        · grind
      · rintro ⟨before, after, parts, distinct, new, again⟩
        cases before with
        | nil =>
          obtain ⟨rfl, _⟩ := List.cons.inj parts
          exact absurd again (by simpa using seen)
        | cons other before =>
          obtain ⟨rfl, rfl⟩ := List.cons.inj parts
          obtain ⟨once, distinct⟩ := List.nodup_cons.mp distinct
          refine ⟨before, after, rfl, distinct, fun other member old => ?_, by grind⟩
          rcases List.mem_cons.mp old with rfl | old
          · exact once member
          · exact new other (.tail first member) old

namespace Model

variable {m : Model} {a : Arc} {earlier : List String} {cause : NetError}

/-- What is wrong with an arc that comes after arcs with the given ids. Each case rules out
those before it. -/
inductive ArcDefect (m : Model) (earlier : List String) (a : Arc) : NetError → Prop where
  | repeated : a.id ∈ earlier → ArcDefect m earlier a (.duplicateArc a.id)
  | source : a.id ∉ earlier → a.src ∉ m.nodeIds → ArcDefect m earlier a (.danglingArc a.id a.src)
  | target : a.id ∉ earlier → a.src ∈ m.nodeIds → a.dst ∉ m.nodeIds →
      ArcDefect m earlier a (.danglingArc a.id a.dst)
  | kinds : a.id ∉ earlier → a.src ∈ m.nodeIds → a.dst ∈ m.nodeIds → ¬ m.Joins a →
      ArcDefect m earlier a (.invalidArc a.id a.src a.dst)
  | weight : a.id ∉ earlier → m.Joins a → a.weight = 0 → ArcDefect m earlier a (.zeroWeight a.id)

theorem ArcDefect.congr {others : List String} (same : ∀ id, id ∈ earlier ↔ id ∈ others)
    (defect : m.ArcDefect earlier a cause) : m.ArcDefect others a cause := by
  cases defect with
  | repeated again => exact .repeated ((same _).mp again)
  | source fresh src => exact .source (fun again => fresh ((same _).mpr again)) src
  | target fresh src dst => exact .target (fun again => fresh ((same _).mpr again)) src dst
  | kinds fresh src dst apart => exact .kinds (fun again => fresh ((same _).mpr again)) src dst apart
  | weight fresh joins light => exact .weight (fun again => fresh ((same _).mpr again)) joins light

/-- The first defect of a model, and the error that names it. -/
inductive FirstDefect (m : Model) : NetError → Prop where
  /-- An id repeats one of those before it, which are distinct. -/
  | node {before after : List String} {id : String} : m.nodeIds = before ++ id :: after →
      before.Nodup → id ∈ before → FirstDefect m (.duplicateNode id)
  /-- The nodes are distinct, and the arcs before this one are as they should be. -/
  | arc {before after : List Arc} {a : Arc} {cause : NetError} : m.nodeIds.Nodup →
      m.arcs = before ++ a :: after → (before.map (·.id)).Nodup →
      (∀ b ∈ before, b.weight ≠ 0 ∧ m.Joins b) → m.ArcDefect (before.map (·.id)) a cause →
      FirstDefect m cause

theorem node?_eq_none_iff {id : String} : m.node? id = none ↔ id ∉ m.nodeIds := by
  rw [node?, nodeIds, List.mem_append]
  cases here : m.places.findIdx? (·.id == id) with
  | some i =>
    obtain ⟨bound, same, _⟩ := List.findIdx?_eq_some_iff_getElem.mp here
    have member : id ∈ m.places.map (·.id) :=
      List.mem_map.mpr ⟨m.places[i], List.getElem_mem bound, by simpa using same⟩
    simp [member]
  | none =>
    have absent : id ∉ m.places.map (·.id) := by simpa using here
    simp only [absent, false_or, Option.map_eq_none_iff]
    simp

theorem exists_node?_iff {id : String} : (∃ node, m.node? id = some node) ↔ id ∈ m.nodeIds := by
  rw [← Option.isSome_iff_exists, ← not_iff_not, ← node?_eq_none_iff]
  simp

theorem joins_of_node? (distinct : m.nodeIds.Nodup) {p t : Nat}
    (ends : (m.node? a.src = some (.place p) ∧ m.node? a.dst = some (.transition t)) ∨
      (m.node? a.src = some (.transition t) ∧ m.node? a.dst = some (.place p))) : m.Joins a := by
  rcases ends with ⟨src, dst⟩ | ⟨src, dst⟩
  · exact .inl ⟨(exists_place_iff distinct).mp ⟨p, src⟩, (exists_transition_iff distinct).mp ⟨t, dst⟩⟩
  · exact .inr ⟨(exists_transition_iff distinct).mp ⟨t, src⟩, (exists_place_iff distinct).mp ⟨p, dst⟩⟩

theorem node?_of_joins (distinct : m.nodeIds.Nodup) (joins : m.Joins a) : ∃ p t,
    (m.node? a.src = some (.place p) ∧ m.node? a.dst = some (.transition t)) ∨
      (m.node? a.src = some (.transition t) ∧ m.node? a.dst = some (.place p)) := by
  rcases joins with ⟨src, dst⟩ | ⟨src, dst⟩
  · obtain ⟨p, src⟩ := (exists_place_iff distinct).mpr src
    obtain ⟨t, dst⟩ := (exists_transition_iff distinct).mpr dst
    exact ⟨p, t, .inl ⟨src, dst⟩⟩
  · obtain ⟨t, src⟩ := (exists_transition_iff distinct).mpr src
    obtain ⟨p, dst⟩ := (exists_place_iff distinct).mpr dst
    exact ⟨p, t, .inr ⟨src, dst⟩⟩

/-- Two nodes of one kind are not joined. -/
theorem not_joins_of_node? (distinct : m.nodeIds.Nodup)
    (ends : (∃ p q, m.node? a.src = some (.place p) ∧ m.node? a.dst = some (.place q)) ∨
      ∃ t u, m.node? a.src = some (.transition t) ∧ m.node? a.dst = some (.transition u)) :
    ¬ m.Joins a := by
  intro joins
  obtain ⟨p, t, others⟩ := node?_of_joins distinct joins
  grind

/-- An arc is refused for the first thing that is wrong with it. -/
theorem arcEffect_error_iff (distinct : m.nodeIds.Nodup) :
    m.arcEffect earlier a = .error cause ↔ m.ArcDefect earlier a cause := by
  constructor
  · intro failed
    unfold arcEffect at failed
    split at failed
    · rename_i again
      cases failed
      exact .repeated (by simpa using again)
    rename_i fresh
    have fresh : a.id ∉ earlier := by simpa using fresh
    split at failed
    case h_1 src =>
      cases failed
      exact .source fresh (node?_eq_none_iff.mp src)
    case h_2 src dst =>
      cases failed
      exact .target fresh (exists_node?_iff.mp ⟨_, src⟩) (node?_eq_none_iff.mp dst)
    case h_3 src dst =>
      split at failed
      · cases failed
        exact .weight fresh (joins_of_node? distinct (.inl ⟨src, dst⟩)) ‹_›
      · cases failed
    case h_4 src dst =>
      split at failed
      · cases failed
        exact .weight fresh (joins_of_node? distinct (.inr ⟨src, dst⟩)) ‹_›
      · cases failed
    case h_5 src dst =>
      cases failed
      exact .kinds fresh (exists_node?_iff.mp ⟨_, src⟩) (exists_node?_iff.mp ⟨_, dst⟩)
        (not_joins_of_node? distinct (.inl ⟨_, _, src, dst⟩))
    case h_6 src dst =>
      cases failed
      exact .kinds fresh (exists_node?_iff.mp ⟨_, src⟩) (exists_node?_iff.mp ⟨_, dst⟩)
        (not_joins_of_node? distinct (.inr ⟨_, _, src, dst⟩))
  · intro defect
    cases defect with
    | repeated again => simp [arcEffect, again]
    | source fresh src => simp [arcEffect, fresh, node?_eq_none_iff.mpr src]
    | target fresh src dst =>
      obtain ⟨node, src⟩ := exists_node?_iff.mpr src
      simp [arcEffect, fresh, src, node?_eq_none_iff.mpr dst]
    | kinds fresh src dst apart =>
      obtain ⟨source, src⟩ := exists_node?_iff.mpr src
      obtain ⟨target, dst⟩ := exists_node?_iff.mpr dst
      cases source <;> cases target
      case place.transition p t => exact absurd (joins_of_node? distinct (.inl ⟨src, dst⟩)) apart
      case transition.place t p => exact absurd (joins_of_node? distinct (.inr ⟨src, dst⟩)) apart
      all_goals simp [arcEffect, fresh, src, dst]
    | weight fresh joins light =>
      obtain ⟨p, t, ⟨src, dst⟩ | ⟨src, dst⟩⟩ := node?_of_joins distinct joins
      all_goals simp [arcEffect, fresh, src, dst, light]

theorem gather_cons_error {rest : List Arc} {flows : Array Flow} :
    m.gather earlier (a :: rest) flows = .error cause ↔ m.arcEffect earlier a = .error cause ∨
      ∃ effect, m.arcEffect earlier a = .ok effect ∧
        m.gather (a.id :: earlier) rest (effect.apply flows a.weight) = .error cause := by
  simp only [gather, bind, Except.bind]
  cases m.arcEffect earlier a <;> simp

/-- Gathering stops at the first arc with a defect. -/
theorem gather_error_iff (distinct : m.nodeIds.Nodup) {arcs : List Arc} {flows : Array Flow} :
    m.gather earlier arcs flows = .error cause ↔ ∃ before a after, arcs = before ++ a :: after ∧
      (before.map (·.id)).Nodup ∧
      (∀ b ∈ before, b.id ∉ earlier ∧ b.weight ≠ 0 ∧ m.Joins b) ∧
      m.ArcDefect (before.map (·.id) ++ earlier) a cause := by
  induction arcs generalizing earlier flows with
  | nil => simp [gather]
  | cons first rest ih =>
    rw [gather_cons_error, arcEffect_error_iff distinct]
    constructor
    · rintro (defect | ⟨effect, accepted, later⟩)
      · exact ⟨[], first, rest, rfl, List.nodup_nil, by simp, defect⟩
      · have good := (exists_arcEffect_iff distinct).mp ⟨effect, accepted⟩
        obtain ⟨before, a, after, rfl, once, each, defect⟩ := ih.mp later
        refine ⟨first :: before, a, after, rfl, ?_, ?_, defect.congr (by simp; grind)⟩
        · refine List.nodup_cons.mpr ⟨fun again => ?_, once⟩
          obtain ⟨b, member, same⟩ := List.mem_map.mp again
          exact (each b member).1 (same ▸ .head earlier)
        · simp only [List.forall_mem_cons]
          exact ⟨good, fun b member =>
            ⟨fun old => (each b member).1 (.tail first.id old), (each b member).2⟩⟩
    · rintro ⟨before, a, after, parts, once, each, defect⟩
      cases before with
      | nil =>
        obtain ⟨rfl, rfl⟩ := List.cons.inj parts
        exact .inl defect
      | cons b before =>
        obtain ⟨rfl, rfl⟩ := List.cons.inj parts
        obtain ⟨good, each⟩ := List.forall_mem_cons.mp each
        obtain ⟨new, once⟩ := List.nodup_cons.mp once
        obtain ⟨effect, accepted⟩ := (exists_arcEffect_iff distinct).mpr good
        refine .inr ⟨effect, accepted, ih.mpr ⟨before, a, after, rfl, once, fun b member => ?_, ?_⟩⟩
        · refine ⟨fun old => ?_, (each b member).2⟩
          rcases List.mem_cons.mp old with same | old
          · exact new (List.mem_map.mpr ⟨b, member, same⟩)
          · exact (each b member).1 old
        · exact defect.congr (by simp; grind)

end Model

namespace Net

variable {model : Model} {net : Net}

/-- A model that is small enough is refused for its first defect. -/
theorem ofModel_error_iff (places : model.places.length < indexLimit)
    (transitions : model.transitions.length < indexLimit) {cause : NetError} :
    ofModel model = .error cause ↔ model.FirstDefect cause := by
  rw [ofModel_eq]
  cases repeated : firstRepeat? [] model.nodeIds with
  | some id =>
    obtain ⟨before, after, parts, distinct, _, again⟩ := firstRepeat?_eq_some_iff.mp repeated
    have again : id ∈ before := by simpa using again
    constructor
    · rintro ⟨⟩
      exact .node parts distinct again
    · rintro (⟨others, otherwise, other⟩ | ⟨distinct⟩)
      · have same : firstRepeat? [] model.nodeIds = some _ :=
          firstRepeat?_eq_some_iff.mpr ⟨_, _, others, otherwise, by simp, .inr other⟩
        rw [repeated] at same
        cases same
        rfl
      · rw [firstRepeat?_eq_none_iff.mpr ⟨distinct, by simp⟩] at repeated
        cases repeated
  | none =>
    have distinct := (firstRepeat?_eq_none_iff.mp repeated).1
    have failed : ∀ gathered : Except NetError (Array Flow),
        gathered.map (fun flows => (⟨model.places, model.transitions, flows⟩ : Net)) =
          .error cause ↔ gathered = .error cause := by
      rintro (_ | _) <;> simp [Except.map]
    simp only [if_neg (Nat.not_le.mpr places), if_neg (Nat.not_le.mpr transitions)]
    rw [failed, Model.gather_error_iff distinct]
    constructor
    · rintro ⟨before, a, after, parts, once, each, defect⟩
      exact .arc distinct parts once (fun b member => (each b member).2) (by simpa using defect)
    · rintro (⟨parts, _, again⟩ | ⟨_, parts, once, each, defect⟩)
      · rw [parts] at distinct
        exact absurd rfl ((List.nodup_append.mp distinct).2.2 _ again _ (.head _))
      · exact ⟨_, _, _, parts, once, fun b member => ⟨by simp, each b member⟩, by simpa using defect⟩

/-- A net knows the nodes of its model by their positions: an id and a position lead to each
other, and no id leads to nodes of both kinds. -/
structure Indexes (net : Net) (model : Model) : Prop where
  place : ∀ id i, net.placeIndex? id = some i ↔ ∃ p, net.places[i]? = some p ∧ p.id = id
  transition : ∀ id i,
    net.transitionIndex? id = some i ↔ ∃ t, net.transitions[i]? = some t ∧ t.id = id
  places : net.places = model.places
  transitions : net.transitions = model.transitions
  apart : ∀ id, net.placeIndex? id = none ∨ net.transitionIndex? id = none

theorem indexes_of_ofModel (compiled : ofModel model = .ok net) : net.Indexes model := by
  obtain ⟨_, _, places, transitions, _⟩ := ofModel_parts compiled
  have wellFormed := wellFormed_of_ofModel compiled
  obtain ⟨_, distinct, disjoint⟩ := List.nodup_append.mp wellFormed.ids
  have place : ∀ id i, net.placeIndex? id = some i ↔ ∃ p, net.places[i]? = some p ∧ p.id = id :=
    fun _ _ => wellFormed.placeIndex?_iff
  have transition : ∀ id i,
      net.transitionIndex? id = some i ↔ ∃ t, net.transitions[i]? = some t ∧ t.id = id :=
    fun _ _ => findIdx?_eq_some_iff_of_nodup distinct
  refine ⟨place, transition, places, transitions, fun id => ?_⟩
  cases left : net.placeIndex? id with
  | none => exact .inl rfl
  | some i =>
    cases right : net.transitionIndex? id with
    | none => exact .inr rfl
    | some j =>
      obtain ⟨p, found, name⟩ := (place id i).mp left
      obtain ⟨t, there, same⟩ := (transition id j).mp right
      exact absurd (name.trans same.symm) (disjoint p.id
        (List.mem_map.mpr ⟨p, List.mem_of_getElem? found, rfl⟩) t.id
        (List.mem_map.mpr ⟨t, List.mem_of_getElem? there, rfl⟩))

/-- A model whose nodes can be counted is accepted if and only if its ids are distinct and
every arc has a weight and joins a place and a transition. Otherwise the error is that of
its first defect, and the nodes of a net are those of its model by position. -/
theorem ofModel_accepts_or_names_defect (places : model.places.length < indexLimit)
    (transitions : model.transitions.length < indexLimit) :
    ((∃ net, ofModel model = .ok net) ↔ model.nodeIds.Nodup ∧ (model.arcs.map (·.id)).Nodup ∧
      ∀ a ∈ model.arcs, 1 ≤ a.weight ∧ model.Joins a) ∧
    (∀ cause, ofModel model = .error cause ↔ model.FirstDefect cause) ∧
    (∀ net, ofModel model = .ok net → net.Indexes model) := by
  have positive : ∀ weight : Count, 1 ≤ weight ↔ weight ≠ 0 := by
    intro weight
    rw [UInt64.le_iff_toNat_le, ne_eq, ← UInt64.toNat_inj]
    simp only [UInt64.toNat_one, UInt64.toNat_zero]
    omega
  refine ⟨?_, fun _ => ofModel_error_iff places transitions, fun _ => indexes_of_ofModel⟩
  simp only [exists_ofModel_iff, positive]
  exact ⟨fun accepted => ⟨accepted.nodes, accepted.arcs, accepted.joins⟩,
    fun ⟨nodes, arcs, joins⟩ => ⟨nodes, places, transitions, arcs, joins⟩⟩

/-- After one good arc comes one that starts nowhere and weighs nothing, and after it one that
joins a place to itself under an id that is taken. -/
def tangle : Model where
  places := [{ id := "p" }]
  transitions := [{ id := "t" }]
  arcs := [⟨"a", "p", "t", 1⟩, ⟨"b", "nowhere", "p", 0⟩, ⟨"a", "p", "p", 1⟩]

theorem ofModel_accepts_or_names_defect_tangle :
    ofModel tangle = .error (.danglingArc "b" "nowhere") ∧
      tangle.FirstDefect (.danglingArc "b" "nowhere") :=
  ⟨rfl, ((ofModel_accepts_or_names_defect (by decide) (by decide)).2.1 _).mp rfl⟩

end Net

end TokenGame
