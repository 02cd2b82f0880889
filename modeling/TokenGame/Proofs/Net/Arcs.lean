import Mathlib.Algebra.GroupWithZero.Nat
import TokenGame.Proofs.Net.Unbounded

/-! The firing rule over the arcs of the model. Compilation merges the arcs between a
place and a transition into one weight, which is their exact sum as long as the sum is a
count and the largest count beyond that. So the rule that a net follows is the rule that
its arcs state, except for arcs that together carry more than any place can hold. -/
namespace TokenGame

/-- The weights of all arcs from one node to another, added up exactly. -/
def Arc.total (arcs : List Arc) (src dst : String) : Nat :=
  ((arcs.filter fun a => a.src == src && a.dst == dst).map (·.weight.toNat)).sum

theorem Arc.total_cons (a : Arc) (rest : List Arc) (src dst : String) :
    Arc.total (a :: rest) src dst =
      (if a.src = src ∧ a.dst = dst then a.weight.toNat else 0) + Arc.total rest src dst := by
  by_cases joins : a.src = src ∧ a.dst = dst
  · simp [total, joins]
  · simp [total, joins]

/-- With distinct ids, the position that an id is found at is the position that it has. -/
theorem findIdx?_eq_some_iff_of_nodup {α : Type} {key : α → String} {xs : List α}
    (distinct : (xs.map key).Nodup) {id : String} {i : Nat} :
    xs.findIdx? (key · == id) = some i ↔ ∃ x, xs[i]? = some x ∧ key x = id := by
  rw [List.findIdx?_eq_some_iff_getElem]
  constructor
  · rintro ⟨bound, here, _⟩
    exact ⟨xs[i], List.getElem?_eq_getElem bound, by simpa using here⟩
  · rintro ⟨x, found, rfl⟩
    obtain ⟨bound, rfl⟩ := List.getElem?_eq_some_iff.mp found
    refine ⟨bound, by simp, fun j before => ?_⟩
    have apart := List.pairwise_iff_getElem.mp distinct j i
      (by simpa using Nat.lt_trans before bound) (by simpa using bound) before
    simpa using apart

@[simp] theorem Count.min_toNat (c : Count) : min (limit - 1) c.toNat = c.toNat := by
  have := toNat_lt_limit c
  omega

namespace Flow

variable (f : Flow) (place : Nat) (weight : Count) (other : Nat)

theorem toNat_inputWeight_addInput : ((f.addInput place weight).inputWeight other).toNat =
    min (Count.limit - 1) ((f.inputWeight other).toNat +
      if place = other then weight.toNat else 0) := by
  rw [inputWeight, addInput, Link.weightOf_merge]
  split <;> simp [inputWeight]

theorem toNat_outputWeight_addOutput : ((f.addOutput place weight).outputWeight other).toNat =
    min (Count.limit - 1) ((f.outputWeight other).toNat +
      if place = other then weight.toNat else 0) := by
  rw [outputWeight, addOutput, Link.weightOf_merge]
  split <;> simp [outputWeight]

@[simp] theorem outputWeight_addInput :
    (f.addInput place weight).outputWeight other = f.outputWeight other := rfl

@[simp] theorem inputWeight_addOutput :
    (f.addOutput place weight).inputWeight other = f.inputWeight other := rfl

end Flow

namespace Model

variable {m : Model}

theorem node?_eq_place_iff (distinct : m.nodeIds.Nodup) {id : String} {i : Nat} :
    m.node? id = some (.place i) ↔ ∃ p, m.places[i]? = some p ∧ p.id = id := by
  have places := (List.nodup_append.mp distinct).1
  rw [← findIdx?_eq_some_iff_of_nodup places, node?]
  cases m.places.findIdx? (·.id == id) with
  | some j => simp
  | none => simp

theorem node?_eq_transition_iff (distinct : m.nodeIds.Nodup) {id : String} {t : Nat} :
    m.node? id = some (.transition t) ↔ ∃ u, m.transitions[t]? = some u ∧ u.id = id := by
  obtain ⟨_, transitions, apart⟩ := List.nodup_append.mp distinct
  rw [← findIdx?_eq_some_iff_of_nodup transitions, node?]
  cases here : m.places.findIdx? (·.id == id) with
  | none => simp
  | some j =>
    -- the id names a place, so it names no transition
    obtain ⟨bound, same, _⟩ := List.findIdx?_eq_some_iff_getElem.mp here
    simp only [Option.some.injEq, reduceCtorEq, false_iff]
    intro other
    obtain ⟨inside, again, _⟩ := List.findIdx?_eq_some_iff_getElem.mp other
    refine apart id ?_ id ?_ rfl
    · exact List.mem_map.mpr ⟨m.places[j], List.getElem_mem bound, by simpa using same⟩
    · exact List.mem_map.mpr ⟨m.transitions[t], List.getElem_mem inside, by simpa using again⟩

/-- The two kinds of arcs that are accepted. -/
theorem arcEffect_ok_iff {earlier : List String} {a : Arc} {effect : ArcEffect} :
    m.arcEffect earlier a = .ok effect ↔ a.id ∉ earlier ∧ a.weight ≠ 0 ∧ ∃ p t,
      (m.node? a.src = some (.place p) ∧ m.node? a.dst = some (.transition t) ∧
        effect = .input p t) ∨
      (m.node? a.src = some (.transition t) ∧ m.node? a.dst = some (.place p) ∧
        effect = .output p t) := by
  unfold arcEffect
  by_cases repeated : a.id ∈ earlier
  · simp [repeated]
  · cases src : m.node? a.src with
    | none => simp [repeated]
    | some source =>
      cases dst : m.node? a.dst with
      | none => simp [repeated]
      | some target =>
        by_cases light : a.weight = 0
        · cases source <;> cases target <;> simp [repeated, light]
        · cases source <;> cases target <;> simp [repeated, light, eq_comm]

theorem getD_modify_of_lt {flows : Array Flow} {t : Nat} (inside : t < flows.size) (index : Nat)
    (change : Flow → Flow) : (flows.modify index change).getD t {} =
      if index = t then change (flows.getD t {}) else flows.getD t {} := by
  have found : flows[t]? = some flows[t] := Array.getElem?_eq_getElem inside
  rw [Array.getD_eq_getD_getElem?, Array.getD_eq_getD_getElem?, Array.getElem?_modify, found]
  split <;> rfl

/-- An arc gives its weight to the one flow and the one place that it joins. -/
theorem weights_apply (distinct : m.nodeIds.Nodup) {earlier : List String} {a : Arc}
    {effect : ArcEffect} (accepted : m.arcEffect earlier a = .ok effect) {flows : Array Flow}
    {i t : Nat} {p : Place} {u : Transition} (place : m.places[i]? = some p)
    (transition : m.transitions[t]? = some u) (inside : t < flows.size) :
    (((effect.apply flows a.weight).getD t {}).inputWeight i).toNat =
        min (Count.limit - 1) (((flows.getD t {}).inputWeight i).toNat +
          if a.src = p.id ∧ a.dst = u.id then a.weight.toNat else 0) ∧
    (((effect.apply flows a.weight).getD t {}).outputWeight i).toNat =
        min (Count.limit - 1) (((flows.getD t {}).outputWeight i).toNat +
          if a.src = u.id ∧ a.dst = p.id then a.weight.toNat else 0) := by
  have isPlace : ∀ id, id = p.id ↔ m.node? id = some (.place i) := fun id => by
    simp [node?_eq_place_iff distinct, place, eq_comm]
  have isTransition : ∀ id, id = u.id ↔ m.node? id = some (.transition t) := fun id => by
    simp [node?_eq_transition_iff distinct, transition, eq_comm]
  obtain ⟨_, _, q, v, kind⟩ := arcEffect_ok_iff.mp accepted
  simp only [isPlace, isTransition]
  rcases kind with ⟨src, dst, rfl⟩ | ⟨src, dst, rfl⟩
  · rw [ArcEffect.apply, getD_modify_of_lt inside, src, dst]
    by_cases here : v = t <;> simp [here, Flow.toNat_inputWeight_addInput]
  · rw [ArcEffect.apply, getD_modify_of_lt inside, src, dst]
    by_cases here : v = t <;> simp [here, Flow.toNat_outputWeight_addOutput]

/-- Gathering arcs adds their weights, as far as counts go. -/
theorem gather_weights (distinct : m.nodeIds.Nodup) {i t : Nat} {p : Place} {u : Transition}
    (place : m.places[i]? = some p) (transition : m.transitions[t]? = some u)
    {earlier : List String} {arcs : List Arc} {flows final : Array Flow}
    (inside : t < flows.size) (gathered : m.gather earlier arcs flows = .ok final) :
    ((final.getD t {}).inputWeight i).toNat = min (Count.limit - 1)
        (((flows.getD t {}).inputWeight i).toNat + Arc.total arcs p.id u.id) ∧
    ((final.getD t {}).outputWeight i).toNat = min (Count.limit - 1)
        (((flows.getD t {}).outputWeight i).toNat + Arc.total arcs u.id p.id) := by
  induction arcs generalizing earlier flows with
  | nil =>
    obtain rfl : flows = final := Except.ok.inj gathered
    have taken := Count.toNat_lt_limit ((flows.getD t {}).inputWeight i)
    have put := Count.toNat_lt_limit ((flows.getD t {}).outputWeight i)
    simp only [Arc.total, List.filter_nil, List.map_nil, List.sum_nil]
    omega
  | cons a rest ih =>
    cases accepted : m.arcEffect earlier a with
    | error cause => simp [gather, accepted, bind, Except.bind] at gathered
    | ok effect =>
      simp only [gather, accepted, bind, Except.bind] at gathered
      have first := weights_apply distinct accepted place transition inside
      have later := ih (by simpa using inside) gathered
      -- stopping at the largest count twice is stopping there once
      rw [later.1, later.2, first.1, first.2, Arc.total_cons, Arc.total_cons]
      omega

end Model

namespace Net

variable {model : Model} {net : Net} {m next : Marking} {i t : Nat}

/-- A compiled weight is the sum of the weights of its arcs, or the largest count if the
sum is larger. -/
theorem weights_of_arcs (compiled : ofModel model = .ok net) {p : Place} {u : Transition}
    (place : net.places[i]? = some p) (transition : net.transitions[t]? = some u) :
    (net.inputWeight i t).toNat = min (Count.limit - 1) (Arc.total model.arcs p.id u.id) ∧
    (net.outputWeight i t).toNat = min (Count.limit - 1) (Arc.total model.arcs u.id p.id) := by
  obtain ⟨fresh, _, places, transitions, gathered⟩ := ofModel_parts compiled
  rw [places] at place
  rw [transitions] at transition
  obtain ⟨inside, _⟩ := List.getElem?_eq_some_iff.mp transition
  have weights := Model.gather_weights (nodup_of_firstRepeat? fresh).1 place transition
    (by simpa using inside) gathered
  have empty : (Array.replicate model.transitions.length ({} : Flow)).getD t {} = {} := by
    simp [Array.getD_eq_getD_getElem?, inside]
  rw [empty] at weights
  simpa only [Flow.inputWeight, Flow.outputWeight, Link.weightOf_nil, UInt64.toNat_zero,
    Nat.zero_add, Net.inputWeight, Net.outputWeight, flow] using weights

/-- How transition `t` behaves at a marking if it takes and puts these numbers of tokens,
by place: the numbers say when it is enabled, what firing it gives, and which of the two
failures it has otherwise. -/
structure FiringRule (net : Net) (m : Marking) (t : Nat) (takes puts : Nat → Nat) : Prop where
  enabled : net.isEnabled m t = true ↔
    ∀ i, i < net.places.length → takes i ≤ (m.tokens i).toNat
  fires : (∃ next, net.fire m (net.transitionName t) = .ok next) ↔
    net.isEnabled m t = true ∧
      ∀ i, i < net.places.length → (m.tokens i).toNat - takes i + puts i < Count.limit
  counts : ∀ next, net.fire m (net.transitionName t) = .ok next →
    next.size = net.places.length ∧
      ∀ i, i < net.places.length → (next.tokens i).toNat = (m.tokens i).toNat - takes i + puts i
  notEnabled : (∃ id, net.fire m (net.transitionName t) = .error (.notEnabled id)) ↔
    ¬ net.isEnabled m t = true
  overflows : (∃ place, net.fire m (net.transitionName t) = .error (.tokenOverflow place)) ↔
    net.isEnabled m t = true ∧
      ∃ i, i < net.places.length ∧ Count.limit ≤ (m.tokens i).toNat - takes i + puts i

/-- Only the numbers for places of the net matter. -/
theorem FiringRule.congr {takes puts taken put : Nat → Nat} (rule : net.FiringRule m t takes puts)
    (same : ∀ i, i < net.places.length → takes i = taken i ∧ puts i = put i) :
    net.FiringRule m t taken put where
  enabled := rule.enabled.trans <| forall₂_congr fun i inside => by rw [(same i inside).1]
  fires := rule.fires.trans <| and_congr_right fun _ => forall₂_congr fun i inside => by
    rw [(same i inside).1, (same i inside).2]
  counts next fired := ⟨(rule.counts next fired).1, fun i inside => by
    rw [(rule.counts next fired).2 i inside, (same i inside).1, (same i inside).2]⟩
  notEnabled := rule.notEnabled
  overflows := rule.overflows.trans <| and_congr_right fun _ => exists_congr fun i =>
    and_congr_right fun inside => by rw [(same i inside).1, (same i inside).2]

theorem WellFormed.fire_transitionName (wellFormed : net.WellFormed)
    (bound : t < net.transitions.length) :
    net.fire m (net.transitionName t) = net.fireTransition m t := by
  simp only [fire, wellFormed.transitionIndex?_transitionName bound]

theorem fireTransition_disabled (size : m.size = net.places.length)
    (bound : t < net.transitions.length) (disabled : ¬ net.isEnabled m t = true) :
    net.fireTransition m t = .error (.notEnabled (net.transitionName t)) := by
  simp [fireTransition, Nat.not_le.mpr bound, size, disabled]

/-- A compiled net follows the rule of its weights. -/
theorem WellFormed.firingRule (wellFormed : net.WellFormed) (size : m.size = net.places.length)
    (bound : t < net.transitions.length) :
    net.FiringRule m t (fun i => (net.inputWeight i t).toNat)
      (fun i => (net.outputWeight i t).toNat) := by
  have byId := wellFormed.fire_transitionName (m := m) bound
  have enabled : net.isEnabled m t = true ↔
      ∀ i, i < net.places.length → (net.inputWeight i t).toNat ≤ (m.tokens i).toNat := by
    rw [← wellFormed.enables_iff ⟨t, bound⟩]
    exact ⟨fun held i inside => held ⟨i, inside⟩, fun held place => held place place.isLt⟩
  by_cases able : net.isEnabled m t = true
  · rcases wellFormed.fireTransition_enabled size able with
      ⟨next, fired, nextSize, counts⟩ | ⟨before, l, after, parts, failed, full, _⟩
    · have room : ∀ i, net.firedCount m t i < Count.limit := fun i =>
        counts i ▸ Count.toNat_lt_limit (next.tokens i)
      rw [← byId] at fired
      refine ⟨enabled, ⟨fun _ => ⟨able, fun i _ => room i⟩, fun _ => ⟨next, fired⟩⟩, ?_, ?_, ?_⟩
      · intro other same
        obtain rfl := Except.ok.inj (fired.symm.trans same)
        exact ⟨nextSize.trans size, fun i _ => counts i⟩
      · simp [fired, able]
      · simp only [fired, reduceCtorEq, exists_false, false_iff, not_and, not_exists]
        exact fun _ i _ full => absurd (room i) (Nat.not_lt.mpr full)
    · have inside := (wellFormed.proper t).outputs.inside l (by simp [parts])
      rw [← byId] at failed
      refine ⟨enabled, ?_, by simp [failed], by simp [failed, able], ?_⟩
      · simp only [failed, reduceCtorEq, exists_false, false_iff, not_and]
        exact fun _ room => absurd (room l.place inside) (Nat.not_lt.mpr full)
      · exact ⟨fun _ => ⟨able, l.place, inside, full⟩, fun _ => ⟨_, failed⟩⟩
  · have failed := byId.trans (fireTransition_disabled size bound able)
    exact ⟨enabled, by simp [failed, able], by simp [failed], by simp [failed, able],
      by simp [failed, able]⟩

/-- The tokens that a transition takes from a place, as the arcs of the model say. -/
def takenByArcs (model : Model) (net : Net) (t i : Nat) : Nat :=
  Arc.total model.arcs (net.placeName i) (net.transitionName t)

/-- The tokens that a transition puts on a place, as the arcs of the model say. -/
def putByArcs (model : Model) (net : Net) (t i : Nat) : Nat :=
  Arc.total model.arcs (net.transitionName t) (net.placeName i)

/-- A compiled net follows the rule of its arcs, with every sum of weights stopped at the
largest count; where all sums are counts it follows the rule of its arcs as it stands. -/
theorem firingRule_of_arcs (compiled : ofModel model = .ok net) (size : m.size = net.places.length)
    (bound : t < net.transitions.length) :
    net.FiringRule m t (fun i => min (Count.limit - 1) (takenByArcs model net t i))
        (fun i => min (Count.limit - 1) (putByArcs model net t i)) ∧
    ((∀ i, i < net.places.length → takenByArcs model net t i < Count.limit ∧
        putByArcs model net t i < Count.limit) →
      net.FiringRule m t (takenByArcs model net t) (putByArcs model net t)) := by
  have stopped : net.FiringRule m t (fun i => min (Count.limit - 1) (takenByArcs model net t i))
      (fun i => min (Count.limit - 1) (putByArcs model net t i)) := by
    refine ((wellFormed_of_ofModel compiled).firingRule size bound).congr fun i inside => ?_
    have place : net.places[i]? = some net.places[i] := List.getElem?_eq_getElem inside
    have transition : net.transitions[t]? = some net.transitions[t] :=
      List.getElem?_eq_getElem bound
    simpa only [takenByArcs, putByArcs, placeName, transitionName, place, transition]
      using weights_of_arcs compiled place transition
  refine ⟨stopped, fun fits => stopped.congr fun i inside => ?_⟩
  have := fits i inside
  omega

/-- One transition that drains a full place over two arcs. -/
def drain (first second : Count) : Model where
  places := [{ id := "full", tokens := 18446744073709551615 }]
  transitions := [{ id := "drain" }]
  arcs := [⟨"a", "full", "drain", first⟩, ⟨"b", "full", "drain", second⟩]

theorem firingRule_of_arcs_drain :
    ∃ net, ofModel (drain 9223372036854775808 9223372036854775807) = .ok net ∧
      net.FiringRule net.initialMarking 0
        (takenByArcs (drain 9223372036854775808 9223372036854775807) net 0)
        (putByArcs (drain 9223372036854775808 9223372036854775807) net 0) :=
  ⟨_, rfl, (firingRule_of_arcs rfl rfl (by decide)).2 (by decide)⟩

/-- The rule of the arcs fails where their sum is no count: the transition is enabled with
one token less than its arcs take. -/
theorem firingRule_fails_beyond_counts :
    ∃ net, ofModel (drain 9223372036854775808 9223372036854775808) = .ok net ∧
      net.initialMarking.size = net.places.length ∧ 0 < net.transitions.length ∧
      ¬ net.FiringRule net.initialMarking 0
        (takenByArcs (drain 9223372036854775808 9223372036854775808) net 0)
        (putByArcs (drain 9223372036854775808 9223372036854775808) net 0) := by
  refine ⟨_, rfl, rfl, by decide, fun rule => ?_⟩
  have held := rule.enabled.mp (by decide) 0 (by decide)
  exact absurd held (by decide)

end Net

end TokenGame
