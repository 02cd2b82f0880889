import Mathlib.Data.List.Perm.Basic
import TokenGame.Proofs.Net.Accepted

/-! Nets whose models declare the same transitions in different orders. The flow of a
transition is gathered from the arcs that name it, so it does not depend on the position
of the transition; what fires at one position fires at the other, with the same result or
the same error, and both nets reach the same markings in the same numbers of steps. -/
namespace TokenGame

namespace Model

variable {m n : Model}

/-- What an arc adds to the flow of the transition with an id, given the places. -/
def joinFlow (places : List Place) (id : String) (f : Flow) (a : Arc) : Flow :=
  if a.dst = id then
    ((places.findIdx? (·.id == a.src)).map (f.addInput · a.weight)).getD f
  else if a.src = id then
    ((places.findIdx? (·.id == a.dst)).map (f.addOutput · a.weight)).getD f
  else f

theorem findIdx?_of_node? {id : String} {p : Nat} (found : m.node? id = some (.place p)) :
    m.places.findIdx? (·.id == id) = some p := by
  unfold node? at found
  cases here : m.places.findIdx? (·.id == id) with
  | some index => simpa [here] using found
  | none => simp [here] at found

/-- An arc adds to a flow what it says of the flow's transition. -/
theorem getD_apply (distinct : m.nodeIds.Nodup) {earlier : List String} {a : Arc}
    {effect : ArcEffect} (accepted : m.arcEffect earlier a = .ok effect) {flows : Array Flow}
    {t : Nat} {u : Transition} (transition : m.transitions[t]? = some u)
    (inside : t < flows.size) :
    (effect.apply flows a.weight).getD t {} = joinFlow m.places u.id (flows.getD t {}) a := by
  have isTransition : ∀ id, id = u.id ↔ m.node? id = some (.transition t) := fun id => by
    simp [node?_eq_transition_iff distinct, transition, eq_comm]
  obtain ⟨_, _, p, v, kind⟩ := arcEffect_ok_iff.mp accepted
  rcases kind with ⟨src, dst, rfl⟩ | ⟨src, dst, rfl⟩
  · simp only [joinFlow, isTransition, src, dst, findIdx?_of_node? src]
    rw [ArcEffect.apply, getD_modify_of_lt inside]
    by_cases here : v = t <;> simp [here]
  · simp only [joinFlow, isTransition, src, dst, findIdx?_of_node? dst]
    rw [ArcEffect.apply, getD_modify_of_lt inside]
    by_cases here : v = t <;> simp [here]

theorem getD_gather (distinct : m.nodeIds.Nodup) {t : Nat} {u : Transition}
    (transition : m.transitions[t]? = some u) {earlier : List String} {arcs : List Arc}
    {flows final : Array Flow} (inside : t < flows.size)
    (gathered : m.gather earlier arcs flows = .ok final) :
    final.getD t {} = arcs.foldl (joinFlow m.places u.id) (flows.getD t {}) := by
  induction arcs generalizing earlier flows with
  | nil =>
    cases gathered
    rfl
  | cons a rest ih =>
    obtain ⟨effect, accepted, later⟩ := gather_cons_ok.mp gathered
    rw [ih (by simpa using inside) later, getD_apply distinct accepted transition inside]
    rfl

/-- A model that declares the transitions of another in some other order. -/
structure Renumbers (m n : Model) : Prop where
  places : n.places = m.places
  transitions : m.transitions.Perm n.transitions
  arcs : n.arcs = m.arcs

theorem Renumbers.accepted (same : m.Renumbers n) (accepted : m.Accepted) : n.Accepted where
  nodes := by
    have ids : m.nodeIds.Perm n.nodeIds := by
      unfold nodeIds
      rw [same.places]
      exact (same.transitions.map _).append_left _
    exact ids.nodup_iff.mp accepted.nodes
  places := same.places ▸ accepted.places
  transitions := same.transitions.length_eq ▸ accepted.transitions
  arcs := same.arcs ▸ accepted.arcs
  joins a member := by
    obtain ⟨heavy, joins⟩ := accepted.joins a (same.arcs ▸ member)
    refine ⟨heavy, ?_⟩
    simpa only [Joins, same.places, (same.transitions.map (·.id)).mem_iff] using joins

end Model

namespace Net

/-- The flow of a transition, by the arcs that name it. -/
theorem flow_of_arcs {model : Model} {net : Net} (compiled : ofModel model = .ok net) {t : Nat}
    {u : Transition} (transition : net.transitions[t]? = some u) :
    net.flow t = model.arcs.foldl (Model.joinFlow model.places u.id) {} := by
  obtain ⟨fresh, _, _, transitions, gathered⟩ := ofModel_parts compiled
  rw [transitions] at transition
  obtain ⟨inside, _⟩ := List.getElem?_eq_some_iff.mp transition
  have empty : (Array.replicate model.transitions.length ({} : Flow)).getD t {} = {} := by
    simp [Array.getD_eq_getD_getElem?, inside]
  rw [flow, Model.getD_gather (nodup_of_firstRepeat? fresh).1 transition (by simpa using inside)
    gathered, empty]

/-- Two positions of the same transition. -/
def Corresponds (net other : Net) (t u : Nat) : Prop :=
  ∃ x, net.transitions[t]? = some x ∧ other.transitions[u]? = some x

/-- A net that is another with its transitions at other positions. -/
structure Renumbers (net other : Net) : Prop where
  places : other.places = net.places
  transitions : net.transitions.Perm other.transitions
  flows : ∀ t u, net.Corresponds other t u → net.flow t = other.flow u

variable {net other : Net} {m x : Marking} {t u : Nat}

/-- Whether a transition is enabled depends on its flow only. -/
theorem isEnabled_eq_of_flow (positions : net.Corresponds other t u)
    (flows : net.flow t = other.flow u) : net.isEnabled m t = other.isEnabled m u := by
  obtain ⟨x, here, there⟩ := positions
  have bound := (List.getElem?_eq_some_iff.mp here).1
  have bound' := (List.getElem?_eq_some_iff.mp there).1
  rw [isEnabled, isEnabled, flows, decide_eq_true bound, decide_eq_true bound']

/-- Firing depends on the places and the flow, errors included. -/
theorem fireTransition_eq_of_flow (places : other.places = net.places)
    (positions : net.Corresponds other t u) (flows : net.flow t = other.flow u) :
    net.fireTransition m t = other.fireTransition m u := by
  have enabled := isEnabled_eq_of_flow (m := m) positions flows
  obtain ⟨x, here, there⟩ := positions
  have bound := (List.getElem?_eq_some_iff.mp here).1
  have bound' := (List.getElem?_eq_some_iff.mp there).1
  have names : net.transitionName t = other.transitionName u := by
    rw [transitionName, transitionName, here, there]
  have puts : ∀ taken f, net.putOutputs taken f = other.putOutputs taken f := by
    intro taken f
    simp only [putOutputs, placeName, places]
  simp only [fireTransition, Nat.not_le.mpr bound, Nat.not_le.mpr bound', enabled, names, flows,
    places, puts]

namespace Renumbers

theorem symm (same : net.Renumbers other) : other.Renumbers net where
  places := same.places.symm
  transitions := same.transitions.symm
  flows u t := fun ⟨x, here, there⟩ => (same.flows t u ⟨x, there, here⟩).symm

/-- A model compiles in every order of its transitions, and the nets are the same but for
the positions. -/
theorem ofModel {model shuffled : Model} (same : model.Renumbers shuffled)
    (compiled : ofModel model = .ok net) :
    ∃ other, Net.ofModel shuffled = .ok other ∧ net.Renumbers other := by
  obtain ⟨other, compiled'⟩ :=
    exists_ofModel_iff.mpr (same.accepted (exists_ofModel_iff.mp ⟨net, compiled⟩))
  obtain ⟨_, _, places, transitions, _⟩ := ofModel_parts compiled
  obtain ⟨_, _, places', transitions', _⟩ := ofModel_parts compiled'
  refine ⟨other, compiled', ?_, ?_, ?_⟩
  · rw [places, places', same.places]
  · rw [transitions, transitions']
    exact same.transitions
  · rintro t u ⟨x, here, there⟩
    rw [flow_of_arcs compiled here, flow_of_arcs compiled' there, same.arcs, same.places]

variable (same : net.Renumbers other)
include same

theorem exists_corresponding (inside : t < net.transitions.length) :
    ∃ u, net.Corresponds other t u := by
  have member := same.transitions.mem_iff.mp (List.getElem_mem inside)
  obtain ⟨u, found⟩ := List.mem_iff_getElem?.mp member
  exact ⟨u, net.transitions[t], List.getElem?_eq_getElem inside, found⟩

theorem isEnabled_eq (positions : net.Corresponds other t u) :
    net.isEnabled m t = other.isEnabled m u :=
  isEnabled_eq_of_flow positions (same.flows t u positions)

/-- Firing at one position is firing at the other, errors included. -/
theorem fireTransition_eq (positions : net.Corresponds other t u) :
    net.fireTransition m t = other.fireTransition m u :=
  fireTransition_eq_of_flow same.places positions (same.flows t u positions)

theorem fires (fired : net.fireTransition m t = .ok x) :
    ∃ u, other.fireTransition m u = .ok x := by
  obtain ⟨u, positions⟩ := same.exists_corresponding (isEnabled_lt (fireTransition_ok fired).2)
  exact ⟨u, same.fireTransition_eq positions ▸ fired⟩

theorem reachesIn {n : Nat} (reached : net.ReachesIn m n x) : other.ReachesIn m n x := by
  induction n generalizing x with
  | zero => exact reachesIn_zero.mpr (reachesIn_zero.mp reached)
  | succ n ih =>
    obtain ⟨middle, t, before, fired⟩ := reachesIn_succ.mp reached
    obtain ⟨u, fired'⟩ := same.fires fired
    exact reachesIn_succ.mpr ⟨middle, u, ih before, fired'⟩

theorem dead (none : net.enabledTransitions m = []) : other.enabledTransitions m = [] := by
  rw [List.eq_nil_iff_forall_not_mem] at none ⊢
  intro u member
  have enabled := mem_enabledTransitions.mp member
  obtain ⟨t, positions⟩ := same.symm.exists_corresponding (isEnabled_lt enabled)
  exact none t (mem_enabledTransitions.mpr (same.symm.isEnabled_eq positions ▸ enabled))

end Renumbers

end Net

end TokenGame
