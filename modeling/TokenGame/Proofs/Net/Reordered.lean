import Mathlib.Data.List.Perm.Basic
import TokenGame.Proofs.Maximum
import TokenGame.Proofs.Net.Accepted
import TokenGame.Proofs.Net.TokensById

/-! Nets whose models declare the same places and arcs in different orders. A place is at
one position in the one net and at another in the other; where the positions match, the
weights are equal, and markings that agree at matching positions enable the same
transitions and fire to markings that agree again. -/
namespace TokenGame

/-- A model that declares the places and the arcs of another in some other order. -/
structure Model.Reorders (m n : Model) : Prop where
  places : m.places.Perm n.places
  transitions : n.transitions = m.transitions
  arcs : m.arcs.Perm n.arcs

theorem Arc.total_perm {arcs others : List Arc} (shuffled : arcs.Perm others) (src dst : String) :
    total arcs src dst = total others src dst := by
  unfold total
  exact ((shuffled.filter _).map _).sum_nat

namespace Model.Reorders

variable {m n : Model}

theorem symm (same : m.Reorders n) : n.Reorders m :=
  ⟨same.places.symm, same.transitions.symm, same.arcs.symm⟩

theorem accepted (same : m.Reorders n) (accepted : m.Accepted) : n.Accepted where
  nodes := by
    have ids : m.nodeIds.Perm n.nodeIds := by
      unfold nodeIds
      rw [same.transitions]
      exact (same.places.map _).append_right _
    exact ids.nodup_iff.mp accepted.nodes
  places := same.places.length_eq ▸ accepted.places
  transitions := same.transitions ▸ accepted.transitions
  arcs := (same.arcs.map _).nodup_iff.mp accepted.arcs
  joins a member := by
    obtain ⟨heavy, joins⟩ := accepted.joins a (same.arcs.mem_iff.mpr member)
    refine ⟨heavy, ?_⟩
    simpa only [Joins, same.transitions, (same.places.map (·.id)).mem_iff] using joins

end Model.Reorders

namespace Net

/-- Two positions of the same place. -/
def Matches (net other : Net) (i j : Nat) : Prop :=
  ∃ p, net.places[i]? = some p ∧ other.places[j]? = some p

/-- A net that is another with its places at other positions. -/
structure Reorders (net other : Net) : Prop where
  wellFormed : net.WellFormed
  wellFormed' : other.WellFormed
  places : net.places.Perm other.places
  transitions : other.transitions = net.transitions
  weights : ∀ i j t, net.Matches other i j → t < net.transitions.length →
    net.inputWeight i t = other.inputWeight j t ∧ net.outputWeight i t = other.outputWeight j t

/-- Markings that agree on every place. -/
structure Alike (net other : Net) (m n : Marking) : Prop where
  size : m.size = net.places.length
  size' : n.size = other.places.length
  tokens : ∀ i j, net.Matches other i j → m.tokens i = n.tokens j

variable {model shuffled : Model} {net other : Net} {m n x y : Marking} {t : Nat}

theorem Matches.symm {i j : Nat} (same : net.Matches other i j) : other.Matches net j i := by
  obtain ⟨p, left, right⟩ := same
  exact ⟨p, right, left⟩

theorem Alike.symm (alike : Alike net other m n) : Alike other net n m :=
  ⟨alike.size', alike.size, fun j i same => (alike.tokens i j same.symm).symm⟩

namespace Reorders

theorem symm (same : net.Reorders other) : other.Reorders net where
  wellFormed := same.wellFormed'
  wellFormed' := same.wellFormed
  places := same.places.symm
  transitions := same.transitions.symm
  weights j i t positions bound := by
    obtain ⟨takes, puts⟩ := same.weights i j t positions.symm (same.transitions ▸ bound)
    exact ⟨takes.symm, puts.symm⟩

variable (same : net.Reorders other)
include same

theorem exists_match {i : Nat} (inside : i < net.places.length) : ∃ j, net.Matches other i j := by
  have member := same.places.mem_iff.mp (List.getElem_mem inside)
  obtain ⟨j, found⟩ := List.mem_iff_getElem?.mp member
  exact ⟨j, net.places[i], List.getElem?_eq_getElem inside, found⟩

/-- What holds at all positions of the one net holds at all positions of the other. -/
theorem forall_iff {left right : Nat → Prop}
    (agree : ∀ i j, net.Matches other i j → (left i ↔ right j)) :
    (∀ i, i < net.places.length → left i) ↔ ∀ j, j < other.places.length → right j := by
  constructor
  · intro all j inside
    obtain ⟨i, p, here, found⟩ := same.symm.exists_match inside
    exact (agree i j ⟨p, found, here⟩).mp (all i (List.getElem?_eq_some_iff.mp found).1)
  · intro all i inside
    obtain ⟨j, p, here, found⟩ := same.exists_match inside
    exact (agree i j ⟨p, here, found⟩).mpr (all j (List.getElem?_eq_some_iff.mp found).1)

/-- A list with an entry for each place, by position, lists the same entries by place. -/
theorem mapIdx_eq_map {α β : Type} {left right : Nat → α} (entry : Place → α → β)
    (agree : ∀ i j, net.Matches other i j → left i = right j) :
    ∃ value : Place → β, (net.places.mapIdx fun i p => entry p (left i)) = net.places.map value ∧
      (other.places.mapIdx fun j p => entry p (right j)) = other.places.map value := by
  have distinct : net.places.Nodup := .of_map _ (List.nodup_append.mp same.wellFormed.ids).1
  refine ⟨fun p => entry p (left (net.places.idxOf p)), ?_, ?_⟩
  · apply List.ext_getElem (by simp)
    intro i inside _
    simp [distinct.idxOf_getElem]
  · apply List.ext_getElem (by simp)
    intro j inside _
    have here : j < other.places.length := by simpa using inside
    have member : other.places[j] ∈ net.places :=
      same.places.mem_iff.mpr (List.getElem_mem here)
    have found := List.getElem?_idxOf member
    simp [agree _ j ⟨_, found, List.getElem?_eq_getElem here⟩]

/-- A map filled place by place does not depend on the order of the places. -/
theorem ofList_eq {left right : Nat → Count}
    (agree : ∀ i j, net.Matches other i j → left i = right j) :
    TokenMap.ofList (net.places.mapIdx fun i p => (p.id, left i)) =
      TokenMap.ofList (other.places.mapIdx fun j p => (p.id, right j)) := by
  obtain ⟨value, here, there⟩ := same.mapIdx_eq_map (fun p count => (p.id, count)) agree
  refine TokenMap.ofList_eq_of_perm (same.wellFormed.keys_nodup_ofPlaces left) ?_
  rw [here, there]
  exact same.places.map value

end Reorders

namespace Alike

variable (same : net.Reorders other) (alike : Alike net other m n)
include same alike

theorem unique (alike' : Alike net other m y) : n = y := by
  refine Marking.ext_tokens (alike.size'.trans alike'.size'.symm) fun j inside => ?_
  obtain ⟨i, positions⟩ := same.symm.exists_match (alike.size' ▸ inside)
  rw [← alike.tokens i j positions.symm, alike'.tokens i j positions.symm]

theorem eq_iff (alike' : Alike net other x y) : m = x ↔ n = y := by
  constructor
  · rintro rfl
    exact alike.unique same alike'
  · rintro rfl
    exact alike.symm.unique same.symm alike'.symm

theorem maximum_eq : m.maximum = n.maximum := by
  refine UInt64.toNat_inj.mp (eq_of_forall_ge_iff fun bound => ?_)
  rw [Marking.toNat_maximum_le_iff, Marking.toNat_maximum_le_iff, alike.size, alike.size']
  exact same.forall_iff fun i j positions => by rw [alike.tokens i j positions]

theorem markingToMap_eq : net.markingToMap m = other.markingToMap n := same.ofList_eq alike.tokens

theorem isEnabled_eq (t : Nat) : net.isEnabled m t = other.isEnabled n t := by
  by_cases bound : t < net.transitions.length
  · rw [Bool.eq_iff_iff, (same.wellFormed.firingRule alike.size bound).enabled,
      (same.wellFormed'.firingRule alike.size' (same.transitions ▸ bound)).enabled]
    refine same.forall_iff fun i j positions => ?_
    rw [(same.weights i j t positions bound).1, alike.tokens i j positions]
  · have beyond : ¬ t < other.transitions.length := same.transitions ▸ bound
    simp [isEnabled, bound, beyond]

theorem enabledTransitions_eq : net.enabledTransitions m = other.enabledTransitions n := by
  rw [enabledTransitions, enabledTransitions, same.transitions, funext (alike.isEnabled_eq same)]

/-- The count that a firing leaves is the same at matching positions. -/
theorem firedCount_eq (bound : t < net.transitions.length) {i j : Nat}
    (positions : net.Matches other i j) : net.firedCount m t i = other.firedCount n t j := by
  obtain ⟨takes, puts⟩ := same.weights i j t positions bound
  rw [firedCount, firedCount, takes, puts, alike.tokens i j positions]

theorem fireTransition_ok (fired : net.fireTransition m t = .ok x) :
    ∃ y, other.fireTransition n t = .ok y ∧ Alike net other x y := by
  have enabled := (Net.fireTransition_ok fired).2
  have bound := isEnabled_lt enabled
  obtain ⟨size, counts⟩ := same.wellFormed.fireTransition_counts fired
  cases fired' : other.fireTransition n t with
  | error cause =>
    obtain ⟨j, inside, _, full⟩ := same.wellFormed'.fireTransition_overflow alike.size'
      (alike.isEnabled_eq same t ▸ enabled) fired'
    obtain ⟨i, positions⟩ := same.symm.exists_match inside
    rw [← alike.firedCount_eq same bound positions.symm, ← counts] at full
    exact absurd (Count.toNat_lt_limit _) (Nat.not_lt.mpr full)
  | ok y =>
    obtain ⟨size', counts'⟩ := same.wellFormed'.fireTransition_counts fired'
    refine ⟨y, rfl, size, size', fun i j positions => UInt64.toNat_inj.mp ?_⟩
    rw [counts, counts', alike.firedCount_eq same bound positions]

theorem fireTransition_overflow {place : String}
    (failed : net.fireTransition m t = .error (.tokenOverflow place)) :
    ∃ place', other.fireTransition n t = .error (.tokenOverflow place') := by
  have enabled := isEnabled_of_overflow failed
  cases fired' : other.fireTransition n t with
  | error cause =>
    obtain ⟨j, _, rfl, _⟩ := same.wellFormed'.fireTransition_overflow alike.size'
      (alike.isEnabled_eq same t ▸ enabled) fired'
    exact ⟨_, rfl⟩
  | ok y =>
    obtain ⟨x, fired, _⟩ := alike.symm.fireTransition_ok same.symm fired'
    simp [fired] at failed

end Alike

/-- A model compiles in every order, and the places of the nets are the same. -/
theorem Reorders.ofModel (same : model.Reorders shuffled) (compiled : ofModel model = .ok net) :
    ∃ other, Net.ofModel shuffled = .ok other ∧ net.Reorders other := by
  obtain ⟨other, compiled'⟩ :=
    exists_ofModel_iff.mpr (same.accepted (exists_ofModel_iff.mp ⟨net, compiled⟩))
  obtain ⟨_, _, places, transitions, _⟩ := ofModel_parts compiled
  obtain ⟨_, _, places', transitions', _⟩ := ofModel_parts compiled'
  have sameTransitions : other.transitions = net.transitions := by
    rw [transitions, transitions', same.transitions]
  refine ⟨other, compiled', wellFormed_of_ofModel compiled, wellFormed_of_ofModel compiled',
    places ▸ places' ▸ same.places, sameTransitions, ?_⟩
  rintro i j t ⟨p, here, there⟩ bound
  have transition : net.transitions[t]? = some net.transitions[t] := List.getElem?_eq_getElem bound
  obtain ⟨takes, puts⟩ := weights_of_arcs compiled here transition
  obtain ⟨takes', puts'⟩ := weights_of_arcs compiled' there
    ((congrArg (·[t]?) sameTransitions).trans transition)
  simp only [Arc.total_perm same.arcs] at takes puts
  exact ⟨UInt64.toNat_inj.mp (takes.trans takes'.symm), UInt64.toNat_inj.mp (puts.trans puts'.symm)⟩

theorem alike_initialMarking (net other : Net) :
    Alike net other net.initialMarking other.initialMarking := by
  refine ⟨size_initialMarking net, size_initialMarking other, ?_⟩
  rintro i j ⟨p, here, there⟩
  rw [tokens_initialMarking here, tokens_initialMarking there]

theorem Reorders.markingOfMap (same : net.Reorders other) {map : TokenMap}
    (placed : net.markingOfMap map = .ok m) :
    ∃ n, other.markingOfMap map = .ok n ∧ Alike net other m n := by
  have known := (same.wellFormed.markingOfMap_ok_iff map).mp ⟨m, placed⟩
  obtain ⟨n, placed'⟩ := (same.wellFormed'.markingOfMap_ok_iff map).mpr fun id count found => by
    obtain ⟨p, member, named⟩ := known id count found
    exact ⟨p, same.places.mem_iff.mp member, named⟩
  obtain ⟨size, counts⟩ := same.wellFormed.markingOfMap_tokens placed
  obtain ⟨size', counts'⟩ := same.wellFormed'.markingOfMap_tokens placed'
  refine ⟨n, placed', size, size', ?_⟩
  rintro i j ⟨p, here, there⟩
  rw [counts i p here, counts' j p there]

end Net

end TokenGame
