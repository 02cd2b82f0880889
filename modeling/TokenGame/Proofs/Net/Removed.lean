import TokenGame.Proofs.Net.Links

/-! What removing a node leaves of a net. The nodes behind it move up by one, and its arcs go with
it, so the net is compiled from other positions and fewer arcs. By their ids the other transitions
do what they did; without a place they do on the other places what they did with it. -/
namespace TokenGame

theorem filter_ne_eq_eraseIdx {α : Type} {key : α → String} {xs : List α}
    (distinct : (xs.map key).Nodup) {k : Nat} {x : α} (found : xs[k]? = some x) :
    xs.filter (key · != key x) = xs.eraseIdx k := by
  induction xs generalizing k with
  | nil => simp at found
  | cons y rest ih =>
    obtain ⟨fresh, distinct⟩ := List.nodup_cons.mp distinct
    cases k with
    | zero =>
      obtain rfl : y = x := by simpa using found
      have others : rest.filter (key · != key y) = rest := by
        rw [List.filter_eq_self]
        intro z member
        have apart : key z ≠ key y := fun same => fresh (List.mem_map.mpr ⟨z, member, same⟩)
        simpa using apart
      simpa using others
    | succ k =>
      have later : rest[k]? = some x := by simpa using found
      have apart : key y ≠ key x := fun same =>
        fresh (List.mem_map.mpr ⟨x, List.mem_of_getElem? later, same.symm⟩)
      rw [List.filter_cons_of_pos (by simpa using apart), ih distinct later,
        List.eraseIdx_cons_succ]

/-- Arcs at other nodes do not count for the weight between two. -/
theorem Arc.total_filter_touches {arcs : List Arc} {src dst id : String} (left : src ≠ id)
    (right : dst ≠ id) :
    Arc.total (arcs.filter fun a => !a.touches id) src dst = Arc.total arcs src dst := by
  unfold total
  rw [List.filter_filter]
  congr 2
  apply List.filter_congr
  intro a _
  by_cases joins : a.src = src ∧ a.dst = dst
  · simp [touches, joins, left, right]
  · simp [joins]

/-! ### The model -/

namespace Model

variable {m n : Model} {id : String}

/-- What is left of a model: nodes and arcs may be missing, but no arc names a node that is. -/
structure Shrinks (m n : Model) : Prop where
  places : (n.places.map (·.id)).Sublist (m.places.map (·.id))
  transitions : (n.transitions.map (·.id)).Sublist (m.transitions.map (·.id))
  arcs : n.arcs.Sublist m.arcs
  ends : ∀ a ∈ n.arcs, ∀ id, a.touches id = true →
    (id ∈ m.places.map (·.id) → id ∈ n.places.map (·.id)) ∧
    (id ∈ m.transitions.map (·.id) → id ∈ n.transitions.map (·.id))

/-- What is left of an accepted model is accepted. -/
theorem Shrinks.accepted (left : m.Shrinks n) (accepted : m.Accepted) : n.Accepted where
  nodes := accepted.nodes.sublist (left.places.append left.transitions)
  places := by
    have fewer := left.places.length_le
    rw [List.length_map, List.length_map] at fewer
    exact Nat.lt_of_le_of_lt fewer accepted.places
  transitions := by
    have fewer := left.transitions.length_le
    rw [List.length_map, List.length_map] at fewer
    exact Nat.lt_of_le_of_lt fewer accepted.transitions
  arcs := accepted.arcs.sublist (left.arcs.map _)
  joins a member := by
    obtain ⟨heavy, joins⟩ := accepted.joins a (left.arcs.subset member)
    have src := left.ends a member a.src (by simp [Arc.touches])
    have dst := left.ends a member a.dst (by simp [Arc.touches])
    refine ⟨heavy, ?_⟩
    rcases joins with ⟨place, transition⟩ | ⟨transition, place⟩
    · exact .inl ⟨src.1 place, dst.2 transition⟩
    · exact .inr ⟨src.2 transition, dst.1 place⟩

theorem hasNode_iff : m.hasNode id = true ↔ id ∈ m.nodeIds := by
  simp [hasNode, nodeIds]

theorem removeNode_of_mem (member : id ∈ m.nodeIds) : m.removeNode id =
    ⟨m.places.filter (·.id != id), m.transitions.filter (·.id != id),
      m.arcs.filter fun a => !a.touches id⟩ := by
  rw [removeNode, if_pos (hasNode_iff.mpr member)]

theorem removeNode_of_not_mem (absent : id ∉ m.nodeIds) : m.removeNode id = m := by
  rw [removeNode, if_neg (mt hasNode_iff.mp absent)]

theorem mem_map_filter_ne {α : Type} {key : α → String} {xs : List α} {x : String} (apart : x ≠ id)
    (member : x ∈ xs.map key) : x ∈ (xs.filter (key · != id)).map key := by
  obtain ⟨y, listed, rfl⟩ := List.mem_map.mp member
  exact List.mem_map_of_mem (List.mem_filter.mpr ⟨listed, by simpa using apart⟩)

theorem shrinks_removeNode (m : Model) (id : String) : m.Shrinks (m.removeNode id) := by
  by_cases member : id ∈ m.nodeIds
  · rw [removeNode_of_mem member]
    refine ⟨List.filter_sublist.map _, List.filter_sublist.map _, List.filter_sublist, ?_⟩
    intro a kept x touches
    have apart : x ≠ id := by
      rintro rfl
      simp [touches] at kept
    exact ⟨mem_map_filter_ne apart, mem_map_filter_ne apart⟩
  · rw [removeNode_of_not_mem member]
    exact ⟨.refl _, .refl _, .refl _, fun _ _ _ _ => ⟨fun h => h, fun h => h⟩⟩

theorem shrinks_removeArc (m : Model) (id : String) : m.Shrinks (m.removeArc id) :=
  ⟨.refl _, .refl _, List.filter_sublist, fun _ _ _ _ => ⟨fun h => h, fun h => h⟩⟩

theorem map_id_replace (id : String) (tokens : Count) (places : List Place) :
    (setTokens.replace id tokens places).map (·.id) = places.map (·.id) := by
  induction places with
  | nil => rfl
  | cons p rest ih =>
    unfold setTokens.replace
    split
    · rfl
    · rw [List.map_cons, List.map_cons, ih]

theorem shrinks_setTokens (m : Model) (id : String) (tokens : Count) :
    m.Shrinks (m.setTokens id tokens) := by
  have ids : (m.setTokens id tokens).places.map (·.id) = m.places.map (·.id) :=
    map_id_replace id tokens m.places
  exact ⟨ids ▸ .refl _, .refl _, .refl _, fun _ _ _ _ => ⟨fun h => ids ▸ h, fun h => h⟩⟩

variable (distinct : m.nodeIds.Nodup)
include distinct

/-- Removing a transition leaves the places as they are. -/
theorem removeNode_transition (member : id ∈ m.transitions.map (·.id)) : m.removeNode id =
    ⟨m.places, m.transitions.filter (·.id != id), m.arcs.filter fun a => !a.touches id⟩ := by
  have apart := (List.nodup_append.mp distinct).2.2
  have places : m.places.filter (·.id != id) = m.places := by
    rw [List.filter_eq_self]
    intro p place
    simpa using apart p.id (List.mem_map_of_mem place) id member
  rw [removeNode_of_mem (List.mem_append_right _ member), places]

/-- Removing a place leaves the transitions as they are. -/
theorem removeNode_place {k : Nat} {p : Place} (found : m.places[k]? = some p) : m.removeNode p.id =
    ⟨m.places.eraseIdx k, m.transitions, m.arcs.filter fun a => !a.touches p.id⟩ := by
  obtain ⟨places, _, apart⟩ := List.nodup_append.mp distinct
  have member : p.id ∈ m.places.map (·.id) := List.mem_map_of_mem (List.mem_of_getElem? found)
  have transitions : m.transitions.filter (·.id != p.id) = m.transitions := by
    rw [List.filter_eq_self]
    intro u transition
    simpa using (apart p.id member u.id (List.mem_map_of_mem transition)).symm
  rw [removeNode_of_mem (List.mem_append_left _ member), transitions,
    filter_ne_eq_eraseIdx places found]

/-- An accepted arc has a transition at one end only. -/
theorem Joins.one_transition {a : Arc} (joins : m.Joins a) {x : String}
    (left : id ∈ m.transitions.map (·.id)) (right : x ∈ m.transitions.map (·.id)) (apart : x ≠ id)
    (touches : a.touches id = true) : a.src ≠ x ∧ a.dst ≠ x := by
  have disjoint := (List.nodup_append.mp distinct).2.2
  simp only [Arc.touches, Bool.or_eq_true, beq_iff_eq] at touches
  rcases joins with ⟨place, _⟩ | ⟨_, place⟩
  · have here : a.dst = id := touches.resolve_left (disjoint _ place _ left)
    exact ⟨disjoint _ place _ right, fun same => apart (same.symm.trans here)⟩
  · have here : a.src = id := touches.resolve_right (disjoint _ place _ left)
    exact ⟨fun same => apart (same.symm.trans here), disjoint _ place _ right⟩

/-- The arcs of one transition do not count for the flow of another. -/
theorem foldl_joinFlow_filter {arcs : List Arc} (joins : ∀ a ∈ arcs, m.Joins a) {x : String}
    (left : id ∈ m.transitions.map (·.id)) (right : x ∈ m.transitions.map (·.id)) (apart : x ≠ id)
    (f : Flow) : (arcs.filter fun a => !a.touches id).foldl (joinFlow m.places x) f =
      arcs.foldl (joinFlow m.places x) f := by
  rw [List.foldl_filter]
  apply List.foldl_ext
  intro f a member
  by_cases touches : a.touches id = true
  · obtain ⟨src, dst⟩ := (joins a member).one_transition distinct left right apart touches
    simp [touches, joinFlow, src, dst]
  · simp [touches]

end Model

/-! ### A net without one of its transitions -/

namespace Net

variable {model : Model} {net other : Net} {m next : Marking} {t : Nat} {id x : String}

theorem WellFormed.transitionIndex?_iff (wellFormed : net.WellFormed) :
    net.transitionIndex? id = some t ↔ ∃ u, net.transitions[t]? = some u ∧ u.id = id :=
  findIdx?_eq_some_iff_of_nodup (List.nodup_append.mp wellFormed.ids).2.1

theorem transitionIndex?_eq_none_iff :
    net.transitionIndex? id = none ↔ id ∉ net.transitions.map (·.id) := by
  simp [transitionIndex?]

/-- Whether a transition is enabled, by its id. -/
def enablesId (net : Net) (m : Marking) (id : String) : Bool :=
  (net.transitionIndex? id).any (net.isEnabled m)

theorem WellFormed.enablesId_transitionName (wellFormed : net.WellFormed)
    (bound : t < net.transitions.length) :
    net.enablesId m (net.transitionName t) = net.isEnabled m t := by
  rw [enablesId, wellFormed.transitionIndex?_transitionName bound, Option.any_some]

/-- The enabled ids are those of the transitions that are enabled, in their order. -/
theorem WellFormed.enabledIds_eq (wellFormed : net.WellFormed) (m : Marking) :
    net.enabledIds m = (net.transitions.map (·.id)).filter (net.enablesId m) := by
  have names : net.transitions.map (·.id) =
      (List.range net.transitions.length).map net.transitionName := by
    apply List.ext_getElem (by simp)
    intro t left right
    have bound : t < net.transitions.length := by simpa using left
    simp [transitionName, bound]
  rw [names, List.filter_map, enabledIds, enabledTransitions]
  congr 1
  apply List.filter_congr
  intro t member
  exact (wellFormed.enablesId_transitionName (List.mem_range.mp member)).symm

theorem WellFormed.mem_enabledIds_iff (wellFormed : net.WellFormed) :
    id ∈ net.enabledIds m ↔ ∃ t, net.transitionIndex? id = some t ∧ net.isEnabled m t = true := by
  rw [wellFormed.enabledIds_eq, List.mem_filter, enablesId, Option.any_eq_true]
  refine and_iff_right_of_imp ?_
  rintro ⟨t, found, _⟩
  obtain ⟨u, here, rfl⟩ := wellFormed.transitionIndex?_iff.mp found
  exact List.mem_map_of_mem (List.mem_of_getElem? here)

/-- A net that is another without the transition with an id. -/
structure WithoutTransition (net other : Net) (id : String) : Prop where
  wellFormed : net.WellFormed
  wellFormed' : other.WellFormed
  places : other.places = net.places
  transitions : other.transitions = net.transitions.filter (·.id != id)
  flows : ∀ t u, net.Corresponds other t u → net.flow t = other.flow u

theorem WithoutTransition.ofModel (compiled : ofModel model = .ok net)
    (member : id ∈ net.transitions.map (·.id))
    (compiled' : Net.ofModel (model.removeNode id) = .ok other) :
    net.WithoutTransition other id := by
  have accepted := exists_ofModel_iff.mp ⟨net, compiled⟩
  obtain ⟨_, _, places, transitions, _⟩ := ofModel_parts compiled
  obtain ⟨_, _, places', transitions', _⟩ := ofModel_parts compiled'
  rw [transitions] at member
  have removed := Model.removeNode_transition accepted.nodes member
  rw [removed] at places' transitions'
  refine ⟨wellFormed_of_ofModel compiled, wellFormed_of_ofModel compiled',
    places'.trans places.symm, by rw [transitions', transitions], ?_⟩
  rintro t u ⟨v, here, there⟩
  have kept : v ∈ model.transitions ∧ v.id ≠ id := by
    have listed := List.mem_of_getElem? there
    rw [transitions'] at listed
    simpa using List.mem_filter.mp listed
  rw [flow_of_arcs compiled here, flow_of_arcs compiled' there, removed,
    Model.foldl_joinFlow_filter accepted.nodes (fun a arc => (accepted.joins a arc).2) member
      (List.mem_map_of_mem kept.1) kept.2]

namespace WithoutTransition

variable (removed : net.WithoutTransition other id)
include removed

/-- Another id names the same transition in both nets, or none in either. -/
theorem index_cases (apart : x ≠ id) :
    (net.transitionIndex? x = none ∧ other.transitionIndex? x = none) ∨
    ∃ t u, net.transitionIndex? x = some t ∧ other.transitionIndex? x = some u ∧
      net.Corresponds other t u := by
  by_cases member : x ∈ net.transitions.map (·.id)
  · obtain ⟨v, listed, rfl⟩ := List.mem_map.mp member
    have kept : v ∈ other.transitions := by
      rw [removed.transitions]
      exact List.mem_filter.mpr ⟨listed, by simpa using apart⟩
    obtain ⟨t, here⟩ := List.mem_iff_getElem?.mp listed
    obtain ⟨u, there⟩ := List.mem_iff_getElem?.mp kept
    exact .inr ⟨t, u, removed.wellFormed.transitionIndex?_iff.mpr ⟨v, here, rfl⟩,
      removed.wellFormed'.transitionIndex?_iff.mpr ⟨v, there, rfl⟩, v, here, there⟩
  · have absent : x ∉ other.transitions.map (·.id) := by
      rw [removed.transitions]
      exact fun kept => member ((List.filter_sublist.map _).subset kept)
    exact .inl ⟨transitionIndex?_eq_none_iff.mpr member, transitionIndex?_eq_none_iff.mpr absent⟩

theorem enablesId_eq (apart : x ≠ id) : other.enablesId m x = net.enablesId m x := by
  rcases removed.index_cases apart with ⟨absent, absent'⟩ | ⟨t, u, found, found', positions⟩
  · simp only [enablesId, absent, absent', Option.any_none]
  · rw [enablesId, enablesId, found, found', Option.any_some, Option.any_some,
      isEnabled_eq_of_flow positions (removed.flows t u positions)]

/-- The transition that is gone is no longer enabled, and nothing else is different. -/
theorem enabledIds_eq (m : Marking) : other.enabledIds m = (net.enabledIds m).filter (· != id) := by
  have ids : other.transitions.map (·.id) = (net.transitions.map (·.id)).filter (· != id) := by
    rw [removed.transitions, List.filter_map]
    rfl
  rw [removed.wellFormed'.enabledIds_eq, removed.wellFormed.enabledIds_eq, ids, List.filter_filter,
    List.filter_filter]
  apply List.filter_congr
  intro x _
  by_cases apart : x = id
  · simp [apart]
  · rw [removed.enablesId_eq apart, Bool.and_comm]

theorem fire_eq (apart : x ≠ id) : other.fire m x = net.fire m x := by
  rcases removed.index_cases apart with ⟨absent, absent'⟩ | ⟨t, u, found, found', positions⟩
  · simp only [fire, absent, absent']
  · simp only [fire, found, found']
    exact (fireTransition_eq_of_flow removed.places positions (removed.flows t u positions)).symm

end WithoutTransition

end Net

/-! ### A net without one of its places -/

/-- The position that something had before the one at `k` was dropped. -/
def skip (k j : Nat) : Nat := if j < k then j else j + 1

theorem skip_ne (k j : Nat) : skip k j ≠ k := by
  unfold skip
  split <;> omega

theorem exists_skip {k i : Nat} (apart : i ≠ k) : ∃ j, skip k j = i := by
  by_cases before : i < k
  · exact ⟨i, if_pos before⟩
  · refine ⟨i - 1, ?_⟩
    unfold skip
    split <;> omega

theorem getElem?_eraseIdx_skip {α : Type} (xs : List α) (k j : Nat) :
    (xs.eraseIdx k)[j]? = xs[skip k j]? := by
  rw [List.getElem?_eraseIdx, skip]
  split <;> rfl

namespace Marking

/-- A marking without the count at a position. -/
def without (m : Marking) (k : Nat) : Marking := .ofList (m.toList.eraseIdx k)

theorem tokens_eq_toList (m : Marking) (place : Nat) :
    m.tokens place = (m.toList[place]?).getD 0 := by
  rw [tokens, Array.getD_eq_getD_getElem?, toList, Array.getElem?_toList]

theorem tokens_without (m : Marking) (k j : Nat) :
    (m.without k).tokens j = m.tokens (skip k j) := by
  rw [tokens_eq_toList, tokens_eq_toList, ← getElem?_eraseIdx_skip]
  rfl

theorem size_without {m : Marking} {k : Nat} (inside : k < m.size) :
    (m.without k).size = m.size - 1 := by
  have listed : k < m.toList.length := inside
  rw [without, size, ofList, List.size_toArray, List.length_eraseIdx_of_lt listed]
  rfl

end Marking

namespace Net

variable {model : Model} {net other : Net} {m next : Marking} {t k : Nat} {id x : String}

theorem WellFormed.weights_beyond (wellFormed : net.WellFormed) {place : Nat}
    (beyond : ¬ place < net.places.length) :
    net.inputWeight place t = 0 ∧ net.outputWeight place t = 0 :=
  ⟨(wellFormed.proper t).inputs.weightOf_beyond beyond,
    (wellFormed.proper t).outputs.weightOf_beyond beyond⟩

/-- A net that is another without the place at a position. -/
structure WithoutPlace (net other : Net) (k : Nat) : Prop where
  wellFormed : net.WellFormed
  wellFormed' : other.WellFormed
  inside : k < net.places.length
  places : other.places = net.places.eraseIdx k
  transitions : other.transitions = net.transitions
  weights : ∀ j t, t < net.transitions.length →
    other.inputWeight j t = net.inputWeight (skip k j) t ∧
    other.outputWeight j t = net.outputWeight (skip k j) t

/-- The arcs that go with a place are not those of the other places. -/
theorem weights_of_untouched {rest : Model} {p : Place} (compiled : ofModel model = .ok net)
    (compiled' : ofModel rest = .ok other) (found : net.places[k]? = some p)
    (places : other.places = net.places.eraseIdx k)
    (transitions : other.transitions = net.transitions)
    (arcs : rest.arcs = model.arcs.filter fun a => !a.touches p.id) (j : Nat)
    (bound : t < net.transitions.length) :
    other.inputWeight j t = net.inputWeight (skip k j) t ∧
    other.outputWeight j t = net.outputWeight (skip k j) t := by
  have wellFormed := wellFormed_of_ofModel compiled
  have wellFormed' := wellFormed_of_ofModel compiled'
  have moved : other.places[j]? = net.places[skip k j]? := by rw [places, getElem?_eraseIdx_skip]
  cases there : other.places[j]? with
  | none =>
    have beyond : ¬ j < other.places.length := Nat.not_lt.mpr (List.getElem?_eq_none_iff.mp there)
    have beyond' : ¬ skip k j < net.places.length :=
      Nat.not_lt.mpr (List.getElem?_eq_none_iff.mp (moved.symm.trans there))
    simp only [wellFormed.weights_beyond beyond', wellFormed'.weights_beyond beyond, and_self]
  | some q =>
    have here : net.places[skip k j]? = some q := moved.symm.trans there
    have transition : net.transitions[t]? = some net.transitions[t] :=
      List.getElem?_eq_getElem bound
    have apart := (List.nodup_append.mp wellFormed.ids).2.2
    have member : p.id ∈ net.places.map (·.id) := List.mem_map_of_mem (List.mem_of_getElem? found)
    have otherPlace : q.id ≠ p.id := fun same =>
      skip_ne k j <| Option.some.inj <| (wellFormed.placeIndex?_iff.mpr ⟨q, here, same⟩).symm.trans
        (wellFormed.placeIndex?_iff.mpr ⟨p, found, rfl⟩)
    have otherNode : net.transitions[t].id ≠ p.id :=
      (apart _ member _ (List.mem_map_of_mem (List.getElem_mem bound))).symm
    -- neither end is the place that is gone, so the arcs between them are all kept
    obtain ⟨takes, puts⟩ := weights_of_arcs compiled here transition
    obtain ⟨takes', puts'⟩ := weights_of_arcs compiled' there
      ((congrArg (·[t]?) transitions).trans transition)
    rw [arcs, Arc.total_filter_touches otherPlace otherNode] at takes'
    rw [arcs, Arc.total_filter_touches otherNode otherPlace] at puts'
    exact ⟨UInt64.toNat_inj.mp (takes'.trans takes.symm),
      UInt64.toNat_inj.mp (puts'.trans puts.symm)⟩

theorem WithoutPlace.ofModel (compiled : ofModel model = .ok net)
    (found : net.placeIndex? id = some k)
    (compiled' : Net.ofModel (model.removeNode id) = .ok other) : net.WithoutPlace other k := by
  have wellFormed := wellFormed_of_ofModel compiled
  obtain ⟨p, here, rfl⟩ := wellFormed.placeIndex?_iff.mp found
  obtain ⟨_, _, places, transitions, _⟩ := ofModel_parts compiled
  obtain ⟨_, _, places', transitions', _⟩ := ofModel_parts compiled'
  have distinct := (exists_ofModel_iff.mp ⟨net, compiled⟩).nodes
  have removed := Model.removeNode_place distinct (places ▸ here)
  have dropped : other.places = net.places.eraseIdx k := by rw [places', removed, places]
  have kept : other.transitions = net.transitions := by rw [transitions', removed, transitions]
  exact ⟨wellFormed, wellFormed_of_ofModel compiled', (List.getElem?_eq_some_iff.mp here).1,
    dropped, kept, fun j _ =>
      weights_of_untouched compiled compiled' here dropped kept (by rw [removed]) j⟩

namespace WithoutPlace

variable (removed : net.WithoutPlace other k)
include removed

/-- A transition was enabled if it is now and the place had what it takes. -/
theorem isEnabled_iff : net.isEnabled m t = true ↔
    net.inputWeight k t ≤ m.tokens k ∧ other.isEnabled (m.without k) t = true := by
  rw [removed.wellFormed.isEnabled_iff, removed.wellFormed'.isEnabled_iff, removed.transitions]
  constructor
  · rintro ⟨bound, enough⟩
    refine ⟨enough k, bound, fun j => ?_⟩
    rw [(removed.weights j t bound).1, Marking.tokens_without]
    exact enough (skip k j)
  · rintro ⟨here, bound, enough⟩
    refine ⟨bound, fun i => ?_⟩
    by_cases apart : i = k
    · exact apart ▸ here
    · obtain ⟨j, rfl⟩ := exists_skip apart
      rw [← (removed.weights j t bound).1, ← Marking.tokens_without]
      exact enough j

theorem firedCount_eq (bound : t < net.transitions.length) (j : Nat) :
    other.firedCount (m.without k) t j = net.firedCount m t (skip k j) := by
  obtain ⟨takes, puts⟩ := removed.weights j t bound
  rw [firedCount, firedCount, takes, puts, Marking.tokens_without]

theorem size_without (size : m.size = net.places.length) :
    (m.without k).size = other.places.length := by
  rw [Marking.size_without (size ▸ removed.inside), removed.places,
    List.length_eraseIdx_of_lt removed.inside, size]

theorem fireTransition_without (fired : net.fireTransition m t = .ok next) :
    other.fireTransition (m.without k) t = .ok (next.without k) := by
  obtain ⟨size, enabled⟩ := fireTransition_ok fired
  obtain ⟨nextSize, counts⟩ := removed.wellFormed.fireTransition_counts fired
  have left : ∀ j, other.firedCount (m.without k) t j = ((next.without k).tokens j).toNat := by
    intro j
    rw [removed.firedCount_eq (isEnabled_lt enabled), Marking.tokens_without, counts]
  rcases removed.wellFormed'.fireTransition_enabled (removed.size_without size)
    (removed.isEnabled_iff.mp enabled).2 with
    ⟨next', done, nextSize', counts'⟩ | ⟨_, l, _, _, _, full, _⟩
  · have same : next' = next.without k := by
      apply Marking.ext_tokens
      · rw [nextSize', removed.size_without size, removed.size_without nextSize]
      · exact fun j _ => UInt64.toNat_inj.mp ((counts' j).trans (left j))
    rw [done, same]
  · -- a place that is too full now was too full before
    rw [left] at full
    exact absurd (Count.toNat_lt_limit _) (Nat.not_lt.mpr full)

theorem transitionIndex?_eq (x : String) : other.transitionIndex? x = net.transitionIndex? x := by
  rw [transitionIndex?, transitionIndex?, removed.transitions]

theorem mem_enabledIds (enabled : x ∈ net.enabledIds m) : x ∈ other.enabledIds (m.without k) := by
  obtain ⟨t, found, enabled⟩ := removed.wellFormed.mem_enabledIds_iff.mp enabled
  exact removed.wellFormed'.mem_enabledIds_iff.mpr
    ⟨t, removed.transitionIndex?_eq x ▸ found, (removed.isEnabled_iff.mp enabled).2⟩

theorem fire_without (fired : net.fire m x = .ok next) :
    other.fire (m.without k) x = .ok (next.without k) := by
  obtain ⟨t, found, fired⟩ := fire_ok_iff.mp fired
  exact fire_ok_iff.mpr
    ⟨t, removed.transitionIndex?_eq x ▸ found, removed.fireTransition_without fired⟩

end WithoutPlace

end Net

end TokenGame
