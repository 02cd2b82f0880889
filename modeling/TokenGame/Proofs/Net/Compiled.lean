import TokenGame.Net.Basic

/-! What compilation promises of a net: all ids are distinct, and each side of a
flow links places of the net, each at most once. Later modules use these promises
and never open the compiler. -/
namespace TokenGame

namespace Link

/-- The links of one side of a flow, in a net with this many places. -/
structure Proper (places : Nat) (links : List Link) : Prop where
  distinct : (links.map (·.place)).Nodup
  inside : ∀ l ∈ links, l.place < places

theorem proper_nil (places : Nat) : Proper places [] := ⟨List.nodup_nil, by simp⟩

theorem Proper.tail {places : Nat} {l : Link} {rest : List Link}
    (proper : Proper places (l :: rest)) : Proper places rest :=
  ⟨(List.nodup_cons.mp proper.distinct).2, fun k member => proper.inside k (.tail l member)⟩

theorem Proper.apart {places : Nat} {l k : Link} {rest : List Link}
    (proper : Proper places (l :: rest)) (member : k ∈ rest) : l.place ≠ k.place := by
  intro same
  have absent := (List.nodup_cons.mp proper.distinct).1
  exact absent (List.mem_map.mpr ⟨k, member, same.symm⟩)

@[simp] theorem weightOf_nil (place : Nat) : weightOf [] place = 0 := rfl

theorem weightOf_cons (l : Link) (rest : List Link) (place : Nat) :
    weightOf (l :: rest) place = if l.place = place then l.weight else weightOf rest place := by
  by_cases here : l.place = place <;> simp [weightOf, here]

theorem weightOf_absent {links : List Link} {place : Nat}
    (absent : ∀ l ∈ links, l.place ≠ place) : weightOf links place = 0 := by
  induction links with
  | nil => rfl
  | cons l rest ih =>
    rw [weightOf_cons, if_neg (absent l (.head rest))]
    exact ih fun k member => absent k (.tail l member)

theorem Proper.weightOf_tail {places : Nat} {l : Link} {rest : List Link}
    (proper : Proper places (l :: rest)) : weightOf rest l.place = 0 :=
  weightOf_absent fun _ member same => proper.apart member same.symm

theorem Proper.weightOf_mem {places : Nat} {links : List Link} (proper : Proper places links)
    {l : Link} (member : l ∈ links) : weightOf links l.place = l.weight := by
  induction links with
  | nil => cases member
  | cons k rest ih =>
    rw [weightOf_cons]
    rcases List.mem_cons.mp member with rfl | member
    · simp
    · rw [if_neg (proper.apart member)]
      exact ih proper.tail member

theorem mem_places_merge {place : Nat} {weight : Count} {links : List Link} {l : Link}
    (member : l ∈ merge place weight links) :
    l.place = place ∨ ∃ k ∈ links, k.place = l.place := by
  induction links with
  | nil => simp_all [merge]
  | cons k rest ih =>
    unfold merge at member
    split at member
    · rcases List.mem_cons.mp member with rfl | member
      · exact .inl rfl
      · exact .inr ⟨l, .tail k member, rfl⟩
    · rcases List.mem_cons.mp member with rfl | member
      · exact .inr ⟨l, .head rest, rfl⟩
      · rcases ih member with here | ⟨j, old, same⟩
        · exact .inl here
        · exact .inr ⟨j, .tail k old, same⟩

/-- An arc to a place of the net keeps the links proper. -/
theorem Proper.merge {places place : Nat} {links : List Link} (proper : Proper places links)
    (weight : Count) (bound : place < places) : Proper places (Link.merge place weight links) := by
  constructor
  · induction links with
    | nil => simp [Link.merge]
    | cons l rest ih =>
      unfold Link.merge
      split
      · rename_i here
        subst here
        exact proper.distinct
      · rename_i away
        refine List.nodup_cons.mpr ⟨fun repeated => ?_, ih proper.tail⟩
        obtain ⟨k, member, same⟩ := List.mem_map.mp repeated
        rcases mem_places_merge member with new | ⟨j, old, place⟩
        · exact away (same.symm.trans new)
        · exact proper.apart old (same.symm.trans place.symm)
  · intro l member
    rcases mem_places_merge member with new | ⟨k, old, same⟩
    · rw [new]; exact bound
    · rw [← same]; exact proper.inside k old

end Link

/-- Both sides of a flow are proper. -/
structure Flow.Proper (places : Nat) (f : Flow) : Prop where
  inputs : Link.Proper places f.inputs
  outputs : Link.Proper places f.outputs

theorem Flow.proper_empty (places : Nat) : Flow.Proper places {} :=
  ⟨Link.proper_nil places, Link.proper_nil places⟩

namespace TokenMap

theorem get?_foldl_absent {entries : List TokenEntry} {id : String}
    (absent : ∀ e ∈ entries, e.1 ≠ id) (m : TokenMap) :
    (entries.foldl (fun m e => m.insert e.1 e.2) m).get? id = m.get? id := by
  induction entries generalizing m with
  | nil => rfl
  | cons e rest ih =>
    rw [List.foldl_cons, ih fun k member => absent k (.tail e member), get?_insert,
      if_neg (absent e (.head rest))]

/-- Entries with distinct ids are all kept. -/
theorem get?_ofList {entries : List TokenEntry} (distinct : (entries.map (·.1)).Nodup)
    {e : TokenEntry} (member : e ∈ entries) : (ofList entries).get? e.1 = some e.2 := by
  unfold ofList
  generalize empty = m
  induction entries generalizing m with
  | nil => cases member
  | cons d rest ih =>
    obtain ⟨fresh, distinct⟩ := List.nodup_cons.mp distinct
    rw [List.foldl_cons]
    rcases List.mem_cons.mp member with rfl | member
    · have absent : ∀ k ∈ rest, k.1 ≠ e.1 := fun k later same =>
        fresh (List.mem_map.mpr ⟨k, later, same⟩)
      rw [get?_foldl_absent absent]
      simp
    · exact ih distinct member _

end TokenMap

namespace Model

theorem place_lt_of_node? {m : Model} {id : String} {place : Nat}
    (found : m.node? id = some (.place place)) : place < m.places.length := by
  unfold node? at found
  split at found
  · rename_i index here
    cases found
    exact (List.findIdx?_eq_some_iff_getElem.mp here).1
  · simp at found

/-- An accepted arc joins a place of the model to a transition. -/
theorem arcEffect_place {m : Model} {earlier : List String} {a : Arc} {effect : ArcEffect}
    (accepted : m.arcEffect earlier a = .ok effect) :
    ∃ place transition, place < m.places.length ∧
      (effect = .input place transition ∨ effect = .output place transition) := by
  unfold arcEffect at accepted
  split at accepted
  · cases accepted
  · split at accepted
    case h_3 source target =>
      split at accepted
      · cases accepted
      · cases accepted
        exact ⟨_, _, place_lt_of_node? source, .inl rfl⟩
    case h_4 source target =>
      split at accepted
      · cases accepted
      · cases accepted
        exact ⟨_, _, place_lt_of_node? target, .inr rfl⟩
    all_goals cases accepted

theorem getD_modify (flows : Array Flow) (index other : Nat) (change : Flow → Flow) :
    (flows.modify index change).getD other {} = flows.getD other {} ∨
      (flows.modify index change).getD other {} = change (flows.getD other {}) := by
  simp only [Array.getD_eq_getD_getElem?, Array.getElem?_modify]
  by_cases here : index = other
  · cases flows[other]? <;> simp [here]
  · simp [here]

theorem ArcEffect.proper_apply {places : Nat} {flows : Array Flow}
    (proper : ∀ t, (flows.getD t {}).Proper places) (weight : Count) {effect : ArcEffect}
    {place transition : Nat} (bound : place < places)
    (shape : effect = .input place transition ∨ effect = .output place transition) (t : Nat) :
    ((effect.apply flows weight).getD t {}).Proper places := by
  rcases shape with rfl | rfl
  · rcases getD_modify flows transition t (·.addInput place weight) with same | changed
    · rw [apply, same]; exact proper t
    · rw [apply, changed]
      exact ⟨(proper t).inputs.merge weight bound, (proper t).outputs⟩
  · rcases getD_modify flows transition t (·.addOutput place weight) with same | changed
    · rw [apply, same]; exact proper t
    · rw [apply, changed]
      exact ⟨(proper t).inputs, (proper t).outputs.merge weight bound⟩

@[simp] theorem ArcEffect.size_apply (flows : Array Flow) (weight : Count) (effect : ArcEffect) :
    (effect.apply flows weight).size = flows.size := by
  cases effect <;> simp [apply]

/-- Gathering any list of accepted arcs keeps every flow proper. -/
theorem gather_proper {m : Model} {earlier : List String} {arcs : List Arc}
    {flows final : Array Flow} (proper : ∀ t, (flows.getD t {}).Proper m.places.length)
    (gathered : m.gather earlier arcs flows = .ok final) :
    final.size = flows.size ∧ ∀ t, (final.getD t {}).Proper m.places.length := by
  induction arcs generalizing earlier flows with
  | nil =>
    cases gathered
    exact ⟨rfl, proper⟩
  | cons a rest ih =>
    cases accepted : m.arcEffect earlier a with
    | error cause => simp [gather, accepted, bind, Except.bind] at gathered
    | ok effect =>
      simp only [gather, accepted, bind, Except.bind] at gathered
      obtain ⟨place, transition, bound, shape⟩ := arcEffect_place accepted
      have next := ih (ArcEffect.proper_apply proper a.weight bound shape) gathered
      exact ⟨by rw [next.1, ArcEffect.size_apply], next.2⟩

end Model

theorem nodup_of_firstRepeat? {earlier rest : List String}
    (none : firstRepeat? earlier rest = none) : rest.Nodup ∧ ∀ id ∈ rest, id ∉ earlier := by
  induction rest generalizing earlier with
  | nil => simp
  | cons id rest ih =>
    unfold firstRepeat? at none
    split at none
    · cases none
    · rename_i fresh
      obtain ⟨distinct, apart⟩ := ih none
      have new : id ∉ earlier := by simpa using fresh
      refine ⟨List.nodup_cons.mpr ⟨fun again => ?_, distinct⟩, ?_⟩
      · exact apart id again (.head earlier)
      · intro other member
        rcases List.mem_cons.mp member with rfl | member
        · exact new
        · exact fun seen => apart other member (.tail id seen)

namespace Net

/-- The promises that compilation makes. -/
structure WellFormed (net : Net) : Prop where
  ids : (net.places.map (·.id) ++ net.transitions.map (·.id)).Nodup
  flows : net.flows.size = net.transitions.length
  proper : ∀ t, (net.flow t).Proper net.places.length

theorem ofModel_parts {model : Model} {net : Net} (compiled : ofModel model = .ok net) :
    firstRepeat? [] model.nodeIds = none ∧ net.transitions.length < indexLimit ∧
      net.places = model.places ∧ net.transitions = model.transitions ∧
      model.gather [] model.arcs (Array.replicate model.transitions.length {}) =
        .ok net.flows := by
  simp only [ofModel, bind, Except.bind, throw, throwThe, MonadExceptOf.throw, pure,
    Except.pure] at compiled
  cases repeated : firstRepeat? [] model.nodeIds with
  | some id => simp [repeated] at compiled
  | none =>
    simp only [repeated] at compiled
    split at compiled
    · cases compiled
    split at compiled
    · cases compiled
    rename_i few
    split at compiled
    · cases compiled
    rename_i gathered
    cases compiled
    exact ⟨rfl, Nat.not_le.mp few, rfl, rfl, gathered⟩

/-- Every compiled net keeps the promises. -/
theorem wellFormed_of_ofModel {model : Model} {net : Net} (compiled : ofModel model = .ok net) :
    net.WellFormed := by
  obtain ⟨distinct, _, places, transitions, gathered⟩ := ofModel_parts compiled
  have empty : ∀ t, ((Array.replicate model.transitions.length ({} : Flow)).getD t {}).Proper
      model.places.length := by
    intro t
    rw [Array.getD_eq_getD_getElem?, Array.getElem?_replicate]
    split <;> exact Flow.proper_empty _
  obtain ⟨size, proper⟩ := Model.gather_proper empty gathered
  constructor
  · rw [places, transitions]
    exact (nodup_of_firstRepeat? distinct).1
  · rw [size, transitions, Array.size_replicate]
  · intro t
    rw [places]
    exact proper t

variable {net : Net}

/-- The id of a transition finds it again. -/
theorem WellFormed.transitionIndex?_transitionName (wellFormed : net.WellFormed)
    {transition : Nat} (bound : transition < net.transitions.length) :
    net.transitionIndex? (net.transitionName transition) = some transition := by
  have distinct := (List.nodup_append.mp wellFormed.ids).2.1
  have name : net.transitionName transition = net.transitions[transition].id := by
    simp [transitionName, bound]
  rw [transitionIndex?, name, List.findIdx?_eq_some_iff_getElem]
  refine ⟨bound, by simp, fun earlier before => ?_⟩
  have apart := List.pairwise_iff_getElem.mp distinct earlier transition
    (by simpa using Nat.lt_trans before bound) (by simpa using bound) before
  simpa using apart

/-- Entries given for the places by position are found by id. -/
theorem WellFormed.get?_ofList_places (wellFormed : net.WellFormed) (value : Nat → Count)
    {index : Nat} (bound : index < net.places.length) :
    (TokenMap.ofList (net.places.mapIdx fun i p => (p.id, value i))).get? net.places[index].id =
      some (value index) := by
  have distinct := (List.nodup_append.mp wellFormed.ids).1
  have keys : (net.places.mapIdx fun i p => (p.id, value i)).map (·.1) =
      net.places.map (·.id) := by
    apply List.ext_getElem <;> simp
  exact TokenMap.get?_ofList (e := (net.places[index].id, value index)) (keys ▸ distinct)
    (List.mem_mapIdx.mpr ⟨index, bound, rfl⟩)

/-- A sample net: one transition moves tokens from one place to another. -/
def transfer : Net where
  places := [{ id := "full", tokens := 1 }, { id := "empty" }]
  transitions := [{ id := "move" }]
  flows := #[⟨[⟨0, 1⟩], [⟨1, 1⟩]⟩]

theorem ofModel_transfer :
    ofModel ⟨transfer.places, transfer.transitions, [⟨"a", "full", "move", 1⟩,
      ⟨"b", "move", "empty", 1⟩]⟩ = .ok transfer := rfl

end Net

end TokenGame
