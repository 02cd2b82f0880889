import TokenGame.Proofs.Net.Renumbered
import TokenGame.Proofs.Net.Reordered

/-! What a compiled net lists for a transition. Arcs come in any order, those of one
transition between those of others, and each is merged into the links of its direction. In the
end a side of a flow lists the places that arcs join to the transition, each once and in the
order in which arcs first join them, and the weights are those of the arcs. So the order of
the arcs shows in the order of the links and nowhere else. -/
namespace TokenGame

namespace Link

variable {places : Nat} {links others : List Link}

/-- A place that is linked already keeps its position, and a new one goes to the end. -/
theorem places_merge (place : Nat) (weight : Count) (links : List Link) :
    (merge place weight links).map (·.place) =
      if place ∈ links.map (·.place) then links.map (·.place)
      else links.map (·.place) ++ [place] := by
  induction links with
  | nil => rfl
  | cons l rest ih =>
    unfold merge
    by_cases here : l.place = place
    · simp [here]
    · rw [if_neg here, List.map_cons, ih, List.map_cons]
      by_cases later : place ∈ rest.map (·.place)
      · rw [if_pos later, if_pos (.tail l.place later)]
      · rw [if_neg later, if_neg (by simpa [Ne.symm here] using later), List.cons_append]

theorem Proper.weightOf_beyond (proper : Proper places links) {place : Nat}
    (beyond : ¬ place < places) : weightOf links place = 0 :=
  weightOf_absent fun l member same => beyond (same ▸ proper.inside l member)

/-- With distinct places and positive weights, the weights say which links there are. -/
theorem Proper.mem_iff (proper : Proper places links) (heavy : ∀ l ∈ links, 1 ≤ l.weight)
    {l : Link} : l ∈ links ↔ 1 ≤ l.weight ∧ weightOf links l.place = l.weight := by
  constructor
  · exact fun member => ⟨heavy l member, proper.weightOf_mem member⟩
  · rintro ⟨positive, weight⟩
    by_cases linked : ∃ k ∈ links, k.place = l.place
    · obtain ⟨k, member, same⟩ := linked
      have equal : k = l := by
        rw [← same, proper.weightOf_mem member] at weight
        cases k; cases l
        exact Link.mk.injEq .. ▸ ⟨same, weight⟩
      exact equal ▸ member
    · have absent := weightOf_absent fun k member same => linked ⟨k, member, same⟩
      rw [← weight, absent] at positive
      exact absurd positive (by decide)

theorem Proper.perm (proper : Proper places links) (proper' : Proper places others)
    (heavy : ∀ l ∈ links, 1 ≤ l.weight) (heavy' : ∀ l ∈ others, 1 ≤ l.weight)
    (same : ∀ place, place < places → weightOf links place = weightOf others place) :
    links.Perm others := by
  have same : ∀ place, weightOf links place = weightOf others place := by
    intro place
    by_cases inside : place < places
    · exact same place inside
    · rw [proper.weightOf_beyond inside, proper'.weightOf_beyond inside]
  rw [List.perm_ext_iff_of_nodup (.of_map _ proper.distinct) (.of_map _ proper'.distinct)]
  intro l
  rw [proper.mem_iff heavy, proper'.mem_iff heavy', same]

end Link

theorem Model.Joins.ends {m : Model} {a : Arc} (joins : m.Joins a) (distinct : m.nodeIds.Nodup) :
    a.src ≠ a.dst := by
  have apart := (List.nodup_append.mp distinct).2.2
  rcases joins with ⟨src, dst⟩ | ⟨src, dst⟩
  · exact apart _ src _ dst
  · exact (apart _ dst _ src).symm

/-! ### The two directions of arcs -/

/-- The direction of an arc, as its transition sees it. -/
inductive Side where
  | input
  | output
  deriving DecidableEq, Repr

namespace Side

/-- The links of a flow in this direction. -/
def links (f : Flow) : Side → List Link
  | .input => f.inputs
  | .output => f.outputs

/-- The end at the place, of an arc in this direction. -/
def placeEnd (a : Arc) : Side → String
  | .input => a.src
  | .output => a.dst

/-- The end at the transition, of an arc in this direction. -/
def transitionEnd (a : Arc) : Side → String
  | .input => a.dst
  | .output => a.src

/-- Whether an arc joins a place and a transition in this direction. -/
def joins (side : Side) (net : Net) (t place : Nat) (a : Arc) : Bool :=
  side.placeEnd a == net.placeName place && side.transitionEnd a == net.transitionName t

section Joining

variable (side : Side) {m : Model} {id : String} {f : Flow} {a : Arc}

/-- An arc in this direction at another transition, or in the other direction. -/
theorem links_joinFlow_of_ne (away : side.transitionEnd a ≠ id) :
    side.links (Model.joinFlow m.places id f a) = side.links f := by
  unfold Model.joinFlow
  cases side with
  | input =>
    have away : a.dst ≠ id := away
    rw [if_neg away]
    cases m.places.findIdx? (·.id == a.dst) <;> by_cases out : a.src = id <;>
      simp [out, links, Flow.addOutput]
  | output =>
    have away : a.src ≠ id := away
    cases m.places.findIdx? (·.id == a.src) <;> by_cases into : a.dst = id <;>
      simp [into, away, links, Flow.addInput]

theorem links_joinFlow_of_eq (here : side.transitionEnd a = id) (ends : a.src ≠ a.dst) {p : Nat}
    (found : m.places.findIdx? (·.id == side.placeEnd a) = some p) :
    side.links (Model.joinFlow m.places id f a) = Link.merge p a.weight (side.links f) := by
  unfold Model.joinFlow
  cases side with
  | input =>
    have into : a.dst = id := here
    have found : m.places.findIdx? (·.id == a.src) = some p := found
    simp [into, found, links, Flow.addInput]
  | output =>
    have out : a.src = id := here
    have into : a.dst ≠ id := fun same => ends (out.trans same.symm)
    have found : m.places.findIdx? (·.id == a.dst) = some p := found
    simp [into, out, found, links, Flow.addOutput]

/-- An accepted arc has a place at the other end. -/
theorem placeEnd_mem (distinct : m.nodeIds.Nodup) (joins : m.Joins a)
    (here : side.transitionEnd a ∈ m.transitions.map (·.id)) :
    side.placeEnd a ∈ m.places.map (·.id) := by
  have apart := (List.nodup_append.mp distinct).2.2
  cases side with
  | input => exact joins.elim And.left fun other => absurd rfl (apart _ other.2 _ here)
  | output => exact joins.elim (fun other => absurd rfl (apart _ other.1 _ here)) And.right

end Joining

end Side

/-! ### The order of the links -/

/-- The places below `n` that arcs join, in the order in which they first do. -/
structure FirstJoined (n : Nat) (joins : Nat → Arc → Bool) (arcs : List Arc)
    (places : List Nat) : Prop where
  joined : ∀ i, i ∈ places ↔ i < n ∧ ∃ a ∈ arcs, joins i a = true
  ordered : places.Pairwise fun i j => arcs.findIdx (joins i) < arcs.findIdx (joins j)

namespace FirstJoined

variable {n : Nat} {joins : Nat → Arc → Bool} {arcs : List Arc} {places : List Nat} {a : Arc}

theorem nil (n : Nat) (joins : Nat → Arc → Bool) : FirstJoined n joins [] [] :=
  ⟨by simp, .nil⟩

variable (first : FirstJoined n joins arcs places)
include first

theorem findIdx_lt {i : Nat} (listed : i ∈ places) : arcs.findIdx (joins i) < arcs.length :=
  List.findIdx_lt_length.mpr ((first.joined i).mp listed).2

/-- A later arc does not change where a listed place was first joined. -/
theorem ordered_concat (a : Arc) : places.Pairwise fun i j =>
    (arcs ++ [a]).findIdx (joins i) < (arcs ++ [a]).findIdx (joins j) := by
  refine first.ordered.imp_of_mem fun {i j} left right before => ?_
  rwa [List.findIdx_append, List.findIdx_append, if_pos (first.findIdx_lt left),
    if_pos (first.findIdx_lt right)]

/-- An arc that joins no place. -/
theorem skip (apart : ∀ i, i < n → joins i a = false) : FirstJoined n joins (arcs ++ [a]) places where
  joined i := by
    rw [first.joined]
    refine and_congr_right fun inside => ?_
    simp [apart i inside]
  ordered := first.ordered_concat a

/-- An arc that joins one place, which is listed at the end if it is new. -/
theorem join {p : Nat} (only : ∀ i, i < n → (joins i a = true ↔ i = p)) (inside : p < n) :
    FirstJoined n joins (arcs ++ [a]) (if p ∈ places then places else places ++ [p]) := by
  have joined : ∀ i, (i < n ∧ ∃ b ∈ arcs ++ [a], joins i b = true) ↔ i ∈ places ∨ i = p := by
    intro i
    rw [first.joined]
    by_cases bound : i < n
    · simp [bound, or_and_right, exists_or, only i bound]
    · have other : i ≠ p := fun same => bound (same ▸ inside)
      simp [bound, other]
  split
  · rename_i old
    refine ⟨fun i => ?_, first.ordered_concat a⟩
    rw [joined]
    exact ⟨.inl, fun either => either.elim id fun same => same ▸ old⟩
  · rename_i new
    refine ⟨fun i => by rw [joined]; simp, List.pairwise_append.mpr ⟨first.ordered_concat a,
      List.pairwise_singleton .., fun i listed j last => ?_⟩⟩
    obtain rfl := List.mem_singleton.mp last
    -- no arc before this one joins the new place
    have late : ¬ arcs.findIdx (joins j) < arcs.length := fun early =>
      new ((first.joined j).mpr ⟨inside, List.findIdx_lt_length.mp early⟩)
    rw [List.findIdx_append, List.findIdx_append, if_pos (first.findIdx_lt listed), if_neg late]
    exact Nat.lt_of_lt_of_le (first.findIdx_lt listed) (Nat.le_add_left ..)

end FirstJoined

theorem Arc.total_pos {arcs : List Arc} {a : Arc} (member : a ∈ arcs) (heavy : a.weight ≠ 0) :
    0 < Arc.total arcs a.src a.dst := by
  induction arcs with
  | nil => cases member
  | cons b rest ih =>
    rw [total_cons]
    rcases List.mem_cons.mp member with rfl | later
    · have positive : a.weight.toNat ≠ 0 := fun zero => heavy (UInt64.toNat_inj.mp zero)
      rw [if_pos ⟨rfl, rfl⟩]
      omega
    · exact Nat.add_pos_right _ (ih later)

namespace Net

variable {model : Model} {net : Net} {t : Nat}

/-- What one side of a flow lists: places of the net, each once, that arcs of the model join to
the transition in this direction, in the order in which arcs first join them. -/
structure ListsArcs (net : Net) (model : Model) (t : Nat) (side : Side) : Prop where
  distinct : ((side.links (net.flow t)).map (·.place)).Nodup
  inside : ∀ l ∈ side.links (net.flow t), l.place < net.places.length ∧ 1 ≤ l.weight
  first : FirstJoined net.places.length (side.joins net t) model.arcs
    ((side.links (net.flow t)).map (·.place))

theorem placeName_eq {i : Nat} {p : Place} (found : net.places[i]? = some p) :
    net.placeName i = p.id := by
  rw [placeName, found]

theorem transitionName_eq {u : Transition} (found : net.transitions[t]? = some u) :
    net.transitionName t = u.id := by
  rw [transitionName, found]

/-- An accepted arc at a transition joins it to one place. -/
theorem joins_one (compiled : ofModel model = .ok net) (side : Side) {a : Arc}
    (joins : model.Joins a) (bound : t < net.transitions.length)
    (here : side.transitionEnd a = net.transitionName t) :
    ∃ p, p < net.places.length ∧ net.placeIndex? (side.placeEnd a) = some p ∧
      ∀ i, i < net.places.length → (side.joins net t i a = true ↔ i = p) := by
  have wellFormed := wellFormed_of_ofModel compiled
  obtain ⟨_, _, places, transitions, _⟩ := ofModel_parts compiled
  have transition : net.transitions[t]? = some net.transitions[t] := List.getElem?_eq_getElem bound
  have declared : side.transitionEnd a ∈ model.transitions.map (·.id) := by
    rw [here, transitionName_eq transition, ← transitions]
    exact List.mem_map_of_mem (List.getElem_mem bound)
  have place := side.placeEnd_mem (exists_ofModel_iff.mp ⟨net, compiled⟩).nodes joins declared
  rw [← places, Model.mem_map_iff_getElem?] at place
  obtain ⟨p, q, found, name⟩ := place
  have index := wellFormed.placeIndex?_iff.mpr ⟨q, found, name⟩
  refine ⟨p, (List.getElem?_eq_some_iff.mp found).1, index, fun i inside => ?_⟩
  have here' : net.places[i]? = some net.places[i] := List.getElem?_eq_getElem inside
  simp only [Side.joins, here, beq_self_eq_true, Bool.and_true, beq_iff_eq]
  constructor
  · intro same
    have index' := wellFormed.placeIndex?_iff.mpr
      ⟨net.places[i], here', ((placeName_eq here').symm.trans same.symm)⟩
    exact Option.some.inj (index'.symm.trans index)
  · rintro rfl
    rw [placeName_eq found, name]

/-- The links of a side are in the order in which the arcs of the model first join their places. -/
theorem firstJoined_of_ofModel (compiled : ofModel model = .ok net)
    (bound : t < net.transitions.length) (side : Side) :
    FirstJoined net.places.length (side.joins net t) model.arcs
      ((side.links (net.flow t)).map (·.place)) := by
  have accepted := exists_ofModel_iff.mp ⟨net, compiled⟩
  obtain ⟨_, _, places, _⟩ := ofModel_parts compiled
  have transition : net.transitions[t]? = some net.transitions[t] := List.getElem?_eq_getElem bound
  rw [flow_of_arcs compiled transition, ← transitionName_eq transition]
  have each : ∀ a ∈ model.arcs, model.Joins a := fun a member => (accepted.joins a member).2
  generalize model.arcs = arcs at each
  -- arc by arc, since the last arc is the one that is merged last
  induction arcs using List.reverseRecOn with
  | nil => cases side <;> exact .nil ..
  | append_singleton arcs a ih =>
    rw [List.forall_mem_append, List.forall_mem_singleton] at each
    have first := ih each.1
    rw [List.foldl_append, List.foldl_cons, List.foldl_nil]
    by_cases here : side.transitionEnd a = net.transitionName t
    · obtain ⟨p, inside, index, only⟩ := joins_one compiled side each.2 bound here
      rw [placeIndex?, places] at index
      rw [side.links_joinFlow_of_eq here (each.2.ends accepted.nodes) index, Link.places_merge]
      exact first.join only inside
    · rw [side.links_joinFlow_of_ne here]
      exact first.skip fun i _ => by simp [Side.joins, here]

theorem weights_by_arcs (compiled : ofModel model = .ok net) {i : Nat}
    (inside : i < net.places.length) (bound : t < net.transitions.length) :
    (net.inputWeight i t).toNat = min (Count.limit - 1) (takenByArcs model net t i) ∧
      (net.outputWeight i t).toNat = min (Count.limit - 1) (putByArcs model net t i) := by
  have place : net.places[i]? = some net.places[i] := List.getElem?_eq_getElem inside
  have transition : net.transitions[t]? = some net.transitions[t] := List.getElem?_eq_getElem bound
  rw [takenByArcs, putByArcs, placeName_eq place, transitionName_eq transition]
  exact weights_of_arcs compiled place transition

theorem WellFormed.proper_links (wellFormed : net.WellFormed) (t : Nat) (side : Side) :
    Link.Proper net.places.length (side.links (net.flow t)) := by
  cases side with
  | input => exact (wellFormed.proper t).inputs
  | output => exact (wellFormed.proper t).outputs

/-- The weight of a link is the sum over the arcs that run beside a given one. -/
theorem toNat_weightOf_links (compiled : ofModel model = .ok net) {i : Nat}
    (inside : i < net.places.length) (bound : t < net.transitions.length) (side : Side) {a : Arc}
    (joins : side.joins net t i a = true) :
    (Link.weightOf (side.links (net.flow t)) i).toNat =
      min (Count.limit - 1) (Arc.total model.arcs a.src a.dst) := by
  have weights := weights_by_arcs compiled inside bound
  simp only [Side.joins, Bool.and_eq_true, beq_iff_eq] at joins
  cases side with
  | input =>
    obtain ⟨src, dst⟩ : a.src = _ ∧ a.dst = _ := joins
    rw [src, dst]
    exact weights.1
  | output =>
    obtain ⟨dst, src⟩ : a.dst = _ ∧ a.src = _ := joins
    rw [src, dst]
    exact weights.2

theorem one_le_weight (compiled : ofModel model = .ok net) (bound : t < net.transitions.length)
    (side : Side) {l : Link} (member : l ∈ side.links (net.flow t)) : 1 ≤ l.weight := by
  have proper := (wellFormed_of_ofModel compiled).proper_links t side
  obtain ⟨inside, a, arc, joins⟩ :=
    ((firstJoined_of_ofModel compiled bound side).joined l.place).mp (List.mem_map_of_mem member)
  have positive := Arc.total_pos arc ((exists_ofModel_iff.mp ⟨net, compiled⟩).joins a arc).1
  have limit : 1 < Count.limit := by decide
  rw [← proper.weightOf_mem member, UInt64.le_iff_toNat_le,
    toNat_weightOf_links compiled inside bound side joins, UInt64.toNat_one]
  omega

/-- A model compiles with its arcs in any order, to the same weights. -/
theorem ofModel_arcs_perm (compiled : ofModel model = .ok net) {arcs : List Arc}
    (shuffled : model.arcs.Perm arcs) :
    ∃ other, ofModel { model with arcs } = .ok other ∧ other.places = net.places ∧
      other.transitions = net.transitions ∧
      ∀ i t, i < net.places.length → t < net.transitions.length →
        other.inputWeight i t = net.inputWeight i t ∧
          other.outputWeight i t = net.outputWeight i t := by
  have reordered : model.Reorders { model with arcs } := ⟨.refl model.places, rfl, shuffled⟩
  obtain ⟨other, compiled', same⟩ := Reorders.ofModel reordered compiled
  have places : other.places = net.places :=
    (ofModel_parts compiled').2.2.1.trans (ofModel_parts compiled).2.2.1.symm
  refine ⟨other, compiled', places, same.transitions, fun i t inside bound => ?_⟩
  have here : net.places[i]? = some net.places[i] := List.getElem?_eq_getElem inside
  have position : net.Matches other i i := ⟨_, here, (congrArg (·[i]?) places).trans here⟩
  obtain ⟨takes, puts⟩ := same.weights i i t position bound
  exact ⟨takes.symm, puts.symm⟩

/-- Compilation gives each transition the weights of the arcs, as far as counts go, and lists of
links in the order of the arcs. Another order of the arcs changes the order of the links only. -/
theorem flows_list_arcs (compiled : ofModel model = .ok net) :
    (∀ i t, i < net.places.length → t < net.transitions.length →
      (net.inputWeight i t).toNat = min (Count.limit - 1) (takenByArcs model net t i) ∧
      (net.outputWeight i t).toNat = min (Count.limit - 1) (putByArcs model net t i)) ∧
    (∀ t, t < net.transitions.length → ∀ side, net.ListsArcs model t side) ∧
    ∀ arcs, model.arcs.Perm arcs → ∃ other, ofModel { model with arcs } = .ok other ∧
      other.places = net.places ∧ other.transitions = net.transitions ∧
      (∀ i t, i < net.places.length → t < net.transitions.length →
        other.inputWeight i t = net.inputWeight i t ∧
          other.outputWeight i t = net.outputWeight i t) ∧
      ∀ t, t < net.transitions.length → ∀ side : Side,
        (side.links (net.flow t)).Perm (side.links (other.flow t)) := by
  have wellFormed := wellFormed_of_ofModel compiled
  refine ⟨fun i t inside bound => weights_by_arcs compiled inside bound, ?_, ?_⟩
  · intro t bound side
    have proper := wellFormed.proper_links t side
    refine ⟨proper.distinct, fun l member => ⟨proper.inside l member, ?_⟩, ?_⟩
    · exact one_le_weight compiled bound side member
    · exact firstJoined_of_ofModel compiled bound side
  · intro arcs shuffled
    obtain ⟨other, compiled', places, transitions, weights⟩ := ofModel_arcs_perm compiled shuffled
    refine ⟨other, compiled', places, transitions, weights, fun t bound side => ?_⟩
    have proper' := (wellFormed_of_ofModel compiled').proper_links t side
    rw [places] at proper'
    refine (wellFormed.proper_links t side).perm proper'
      (fun l member => one_le_weight compiled bound side member)
      (fun l member => one_le_weight compiled' (transitions ▸ bound) side member)
      fun i inside => ?_
    obtain ⟨takes, puts⟩ := weights i t inside bound
    cases side with
    | input => exact takes.symm
    | output => exact puts.symm

/-- Two transitions whose arcs alternate; two of the arcs are parallel and carry more together
than a count can say. -/
def braid : Model where
  places := [{ id := "left" }, { id := "right" }]
  transitions := [{ id := "over" }, { id := "under" }]
  arcs := [⟨"a", "left", "under", 3⟩, ⟨"b", "right", "over", 9223372036854775808⟩,
    ⟨"c", "over", "left", 1⟩, ⟨"d", "left", "over", 2⟩,
    ⟨"e", "right", "over", 9223372036854775808⟩]

/-- The places of "over" are listed as its own arcs name them, also where an arc of the other
transition names one of them before. -/
theorem flows_list_arcs_braid :
    ∃ net, ofModel braid = .ok net ∧ net.ListsArcs braid 0 .input ∧
      (net.flow 0).inputs = [⟨1, 18446744073709551615⟩, ⟨0, 2⟩] ∧
      ∃ other, ofModel { braid with arcs := braid.arcs.reverse } = .ok other ∧
        other.inputWeight 1 0 = 18446744073709551615 ∧
        [⟨1, 18446744073709551615⟩, ⟨0, 2⟩].Perm (other.flow 0).inputs := by
  have compiled : ofModel braid = .ok _ := rfl
  obtain ⟨_, lists, shuffled⟩ := flows_list_arcs compiled
  obtain ⟨other, compiled', _, _, weights, links⟩ := shuffled _ (List.reverse_perm _).symm
  exact ⟨_, compiled, lists 0 (by decide) .input, rfl, other, compiled',
    (weights 1 0 (by decide) (by decide)).1, links 0 (by decide) .input⟩

end Net

end TokenGame
