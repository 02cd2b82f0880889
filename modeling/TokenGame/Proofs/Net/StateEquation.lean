import Mathlib.Algebra.BigOperators.Fin
import Mathlib.Algebra.BigOperators.Ring.Finset
import TokenGame.Proofs.Net.Firing

/-! Firing is linear. Over the integers a firing adds to every place what its transition
puts there less what it takes, whatever the marking, so a sequence of firings is known by
how often each transition occurs in it, and a weighting of the places that no transition
changes has one value along every sequence. -/
namespace TokenGame

namespace Net

variable {net : Net} {m next : Marking} {t : Nat} {ts : List Nat}

/-- What a transition changes on a place: what it puts there less what it takes. -/
def effect (net : Net) (place t : Nat) : Int :=
  (net.outputWeight place t).toNat - (net.inputWeight place t).toNat

/-- The value of a marking under a weighting of the places. -/
def weigh (net : Net) (y : Fin net.places.length → Int) (m : Marking) : Int :=
  ∑ place, y place * (m.tokens place).toNat

/-- A weighting under which every transition takes as much as it puts. -/
def Conserves (net : Net) (y : Fin net.places.length → Int) : Prop :=
  ∀ t : Fin net.transitions.length,
    ∑ place, y place * (net.inputWeight place t).toNat =
      ∑ place, y place * (net.outputWeight place t).toNat

theorem WellFormed.tokens_fireTransition (wellFormed : net.WellFormed)
    (fired : net.fireTransition m t = .ok next) (place : Nat) :
    ((next.tokens place).toNat : Int) = (m.tokens place).toNat + net.effect place t := by
  have count := (wellFormed.fireTransition_counts fired).2 place
  have held := UInt64.le_iff_toNat_le.mp
    ((wellFormed.isEnabled_iff.mp (fireTransition_ok fired).2).2 place)
  rw [firedCount] at count
  rw [effect]
  omega

theorem WellFormed.size_fireAll (wellFormed : net.WellFormed) (size : m.size = net.places.length)
    (fired : net.fireAll m ts = .ok next) : next.size = net.places.length := by
  induction ts generalizing m with
  | nil =>
    cases fired
    exact size
  | cons t rest ih =>
    obtain ⟨middle, first, later⟩ := fireAll_cons_ok.mp fired
    exact ih (wellFormed.fireTransition_counts first).1 later

theorem lt_of_fireAll (fired : net.fireAll m ts = .ok next) (member : t ∈ ts) :
    t < net.transitions.length := by
  induction ts generalizing m with
  | nil => cases member
  | cons u rest ih =>
    obtain ⟨middle, first, later⟩ := fireAll_cons_ok.mp fired
    rcases List.mem_cons.mp member with rfl | member
    · exact isEnabled_lt (fireTransition_ok first).2
    · exact ih later member

/-- A sequence of firings adds up the effects of its transitions. -/
theorem WellFormed.tokens_fireAll (wellFormed : net.WellFormed)
    (fired : net.fireAll m ts = .ok next) (place : Nat) :
    ((next.tokens place).toNat : Int) =
      (m.tokens place).toNat + (ts.map (net.effect place)).sum := by
  induction ts generalizing m with
  | nil =>
    cases fired
    simp
  | cons t rest ih =>
    obtain ⟨middle, first, later⟩ := fireAll_cons_ok.mp fired
    rw [ih later, wellFormed.tokens_fireTransition first, List.map_cons, List.sum_cons, add_assoc]

/-- A sum along a list of transitions, by how often each of them occurs in it. -/
theorem sum_map_eq_sum_count {n : Nat} (inside : ∀ t ∈ ts, t < n) (f : Nat → Int) :
    (ts.map f).sum = ∑ t : Fin n, (ts.count t.val : Int) * f t := by
  have terms : ∀ t, (ts.count t : Int) * f t = ts.count t • f t := fun t => (nsmul_eq_mul _ _).symm
  simp only [terms]
  rw [Finset.sum_list_map_count, Fin.sum_univ_eq_sum_range fun t => ts.count t • f t]
  refine Finset.sum_subset (fun t member => ?_) fun t _ absent => ?_
  · exact Finset.mem_range.mpr (inside t (List.mem_toFinset.mp member))
  · rw [List.count_eq_zero_of_not_mem fun member => absent (List.mem_toFinset.mpr member),
      zero_nsmul]

/-- Sequences that fire the same transitions equally often end in the same marking. -/
theorem WellFormed.fireAll_perm (wellFormed : net.WellFormed) (size : m.size = net.places.length)
    {us : List Nat} {other : Marking} (shuffled : ts.Perm us) (fired : net.fireAll m ts = .ok next)
    (fired' : net.fireAll m us = .ok other) : next = other := by
  have size' := wellFormed.size_fireAll size fired'
  refine Marking.ext_tokens ((wellFormed.size_fireAll size fired).trans size'.symm) fun place _ => ?_
  apply UInt64.toNat_inj.mp
  have left := wellFormed.tokens_fireAll fired place
  have right := wellFormed.tokens_fireAll fired' place
  rw [(shuffled.map (net.effect place)).sum_eq] at left
  omega

theorem WellFormed.weigh_fireTransition (wellFormed : net.WellFormed)
    {y : Fin net.places.length → Int} (conserves : net.Conserves y)
    (fired : net.fireTransition m t = .ok next) : net.weigh y next = net.weigh y m := by
  have balance := conserves ⟨t, isEnabled_lt (fireTransition_ok fired).2⟩
  calc net.weigh y next
      = ∑ place, (y place * (m.tokens place).toNat + (y place * (net.outputWeight place t).toNat -
          y place * (net.inputWeight place t).toNat)) := by
        refine Finset.sum_congr rfl fun place _ => ?_
        rw [wellFormed.tokens_fireTransition fired, effect, mul_add, mul_sub]
    _ = net.weigh y m := by
        rw [Finset.sum_add_distrib, Finset.sum_sub_distrib, ← balance, sub_self, add_zero, weigh]

theorem WellFormed.weigh_fireAll (wellFormed : net.WellFormed)
    {y : Fin net.places.length → Int} (conserves : net.Conserves y)
    (fired : net.fireAll m ts = .ok next) : net.weigh y next = net.weigh y m := by
  induction ts generalizing m with
  | nil =>
    cases fired
    rfl
  | cons t rest ih =>
    obtain ⟨middle, first, later⟩ := fireAll_cons_ok.mp fired
    rw [ih later, wellFormed.weigh_fireTransition conserves first]

end Net

end TokenGame
