import TokenGame.Net.Firing
import TokenGame.Proofs.Net.Compiled

/-! The firing rule of a compiled net, in exact arithmetic. An enabled transition
either moves every count by its weights, or it names the first output place whose
exact new count is no word; no other error is left once length and enabledness
are checked. Firing sequences and the markings they reach are stated over it. -/
namespace TokenGame

namespace Marking

theorem getElem?_counts {m : Marking} {place : Nat} (inside : place < m.size) :
    m.counts[place]? = some (m.tokens place) := by
  have bound : place < m.counts.size := inside
  simp [tokens, Array.getD_eq_getD_getElem?, bound]

/-- Markings of one length are equal if they agree on every place. -/
theorem ext_tokens {m n : Marking} (size : m.size = n.size)
    (same : ∀ place, place < m.size → m.tokens place = n.tokens place) : m = n := by
  have counts : m.counts = n.counts := by
    apply Array.ext_getElem?
    intro place
    by_cases inside : place < m.size
    · rw [getElem?_counts inside, getElem?_counts (size ▸ inside), same place inside]
    · have left : m.counts.size ≤ place := Nat.not_lt.mp inside
      have right : n.counts.size ≤ place := by
        rw [← show m.counts.size = n.counts.size from size]; exact left
      rw [Array.getElem?_eq_none left, Array.getElem?_eq_none right]
  cases m; cases n
  exact congrArg Marking.mk counts

theorem take?_eq {m : Marking} {l : Link} (inside : l.place < m.size)
    (held : l.weight ≤ m.tokens l.place) :
    m.take? l = some (m.set l.place (m.tokens l.place - l.weight)) := by
  simp [take?, getElem?_counts inside, Count.sub?, held]

theorem put?_eq {m : Marking} {l : Link} (inside : l.place < m.size) :
    m.put? l = if (m.tokens l.place).toNat + l.weight.toNat < Count.limit
      then some (m.set l.place (m.tokens l.place + l.weight)) else none := by
  by_cases fits : (m.tokens l.place).toNat + l.weight.toNat < Count.limit
  · simp [put?, getElem?_counts inside, Count.add?, fits]
  · simp [put?, getElem?_counts inside, Count.add?, fits]

end Marking

namespace Net

/-- Taking distinct links that the marking can afford removes exactly their weights. -/
theorem take_links {m : Marking} {links : List Link} (proper : Link.Proper m.size links)
    (held : ∀ l ∈ links, l.weight ≤ m.tokens l.place) :
    ∃ next, links.foldlM Marking.take? m = some next ∧ next.size = m.size ∧
      ∀ place, (next.tokens place).toNat =
        (m.tokens place).toNat - (Link.weightOf links place).toNat := by
  induction links generalizing m with
  | nil => exact ⟨m, rfl, rfl, by simp⟩
  | cons l rest ih =>
    have inside := proper.inside l (.head rest)
    have first := Marking.take?_eq inside (held l (.head rest))
    -- the links that follow are to other places, so they see the old counts
    obtain ⟨next, taken, size, counts⟩ :=
      ih (m := m.set l.place (m.tokens l.place - l.weight)) (by simpa using proper.tail) <| by
        intro k member
        rw [Marking.tokens_set_other m _ (proper.apart member)]
        exact held k (.tail l member)
    refine ⟨next, by simp [first, taken], by simpa using size, fun place => ?_⟩
    rw [counts place, Link.weightOf_cons]
    by_cases here : l.place = place
    · subst here
      rw [Marking.tokens_set_same m _ _ inside, if_pos rfl, proper.weightOf_tail,
        UInt64.toNat_sub_of_le _ _ (held l (.head rest))]
      simp
    · rw [Marking.tokens_set_other m _ here, if_neg here]

/-- Putting distinct links adds exactly their weights, or names the first place
that has no room for its own. -/
theorem put_links (net : Net) {m : Marking} {links : List Link}
    (proper : Link.Proper m.size links) :
    (∃ next, net.putOutputs m ⟨[], links⟩ = .ok next ∧ next.size = m.size ∧
      ∀ place, (next.tokens place).toNat =
        (m.tokens place).toNat + (Link.weightOf links place).toNat) ∨
    (∃ before l after, links = before ++ l :: after ∧
      net.putOutputs m ⟨[], links⟩ = .error (.tokenOverflow (net.placeName l.place)) ∧
      Count.limit ≤ (m.tokens l.place).toNat + l.weight.toNat ∧
      ∀ k ∈ before, (m.tokens k.place).toNat + k.weight.toNat < Count.limit) := by
  induction links generalizing m with
  | nil => exact .inl ⟨m, rfl, rfl, by simp⟩
  | cons l rest ih =>
    have inside := proper.inside l (.head rest)
    have first := Marking.put?_eq inside
    by_cases fits : (m.tokens l.place).toNat + l.weight.toNat < Count.limit
    · rw [if_pos fits] at first
      have sum : (m.tokens l.place + l.weight).toNat =
          (m.tokens l.place).toNat + l.weight.toNat := by
        rw [UInt64.toNat_add]
        exact Nat.mod_eq_of_lt fits
      have step : net.putOutputs m ⟨[], l :: rest⟩ =
          net.putOutputs (m.set l.place (m.tokens l.place + l.weight)) ⟨[], rest⟩ := by
        simp [putOutputs, first, bind, Except.bind]
      rw [step]
      rcases ih (m := m.set l.place (m.tokens l.place + l.weight)) (by simpa using proper.tail) with
        ⟨next, done, size, counts⟩ | ⟨before, k, after, split, failed, full, room⟩
      · refine .inl ⟨next, done, by simpa using size, fun place => ?_⟩
        rw [counts place, Link.weightOf_cons]
        by_cases here : l.place = place
        · subst here
          rw [Marking.tokens_set_same m _ _ inside, if_pos rfl, proper.weightOf_tail, sum]
          simp
        · rw [Marking.tokens_set_other m _ here, if_neg here]
      · subst split
        refine .inr ⟨l :: before, k, after, rfl, failed, ?_, fun j member => ?_⟩
        · rwa [Marking.tokens_set_other m _ (proper.apart (by simp))] at full
        · rcases List.mem_cons.mp member with rfl | member
          · exact fits
          · have apart := proper.apart (List.mem_append_left (k :: after) member)
            simpa [Marking.tokens_set_other m _ apart] using room j member
    · rw [if_neg fits] at first
      refine .inr ⟨[], l, rest, rfl, ?_, Nat.not_lt.mp fits, by simp⟩
      simp [putOutputs, first, bind, Except.bind]

variable {net : Net} {m next : Marking} {t : Nat}

theorem isEnabled_lt (enabled : net.isEnabled m t = true) : t < net.transitions.length := by
  simp only [isEnabled, Bool.and_eq_true, decide_eq_true_eq] at enabled
  exact enabled.1

@[simp] theorem mem_enabledTransitions :
    t ∈ net.enabledTransitions m ↔ net.isEnabled m t = true := by
  simp only [enabledTransitions, List.mem_filter, List.mem_range, and_iff_right_iff_imp]
  exact isEnabled_lt

/-- Enabledness is a comparison of counts with input weights, place by place. -/
theorem WellFormed.isEnabled_iff (wellFormed : net.WellFormed) :
    net.isEnabled m t = true ↔
      t < net.transitions.length ∧ ∀ place, net.inputWeight place t ≤ m.tokens place := by
  have proper := (wellFormed.proper t).inputs
  simp only [isEnabled, Bool.and_eq_true, decide_eq_true_eq, List.all_eq_true]
  refine and_congr_right fun _ => ⟨fun held place => ?_, fun held l member => ?_⟩
  · by_cases linked : ∃ l ∈ (net.flow t).inputs, l.place = place
    · obtain ⟨l, member, rfl⟩ := linked
      rw [inputWeight, Flow.inputWeight, proper.weightOf_mem member]
      exact held l member
    · have absent : net.inputWeight place t = 0 :=
        Link.weightOf_absent fun l member same => linked ⟨l, member, same⟩
      rw [absent]
      exact UInt64.zero_le
  · have weight := held l.place
    rwa [inputWeight, Flow.inputWeight, proper.weightOf_mem member] at weight

/-- The count that firing gives a place, with no limit on it. -/
def firedCount (net : Net) (m : Marking) (t place : Nat) : Nat :=
  (m.tokens place).toNat - (net.inputWeight place t).toNat + (net.outputWeight place t).toNat

/-- An enabled transition has one outcome of two: the exact counts, or the first
output place whose exact count is no word. -/
theorem WellFormed.fireTransition_enabled (wellFormed : net.WellFormed)
    (size : m.size = net.places.length) (enabled : net.isEnabled m t = true) :
    (∃ next, net.fireTransition m t = .ok next ∧ next.size = m.size ∧
      ∀ place, (next.tokens place).toNat = net.firedCount m t place) ∨
    (∃ before l after, (net.flow t).outputs = before ++ l :: after ∧
      net.fireTransition m t = .error (.tokenOverflow (net.placeName l.place)) ∧
      Count.limit ≤ net.firedCount m t l.place ∧
      ∀ k ∈ before, net.firedCount m t k.place < Count.limit) := by
  obtain ⟨bound, _⟩ := wellFormed.isEnabled_iff.mp enabled
  have inputs := (wellFormed.proper t).inputs
  have outputs := (wellFormed.proper t).outputs
  have held : ∀ l ∈ (net.flow t).inputs, l.weight ≤ m.tokens l.place := by
    simp only [isEnabled, Bool.and_eq_true, List.all_eq_true, decide_eq_true_eq] at enabled
    exact enabled.2
  obtain ⟨taken, takes, takenSize, left⟩ := take_links (size ▸ inputs) held
  have fires : net.fireTransition m t = net.putOutputs taken ⟨[], (net.flow t).outputs⟩ := by
    have takes : takeInputs? m (net.flow t) = some taken := takes
    simp only [fireTransition, Nat.not_le.mpr bound, size, enabled, takes, ne_eq, not_true,
      Bool.not_true, Bool.false_eq_true, if_false]
    rfl
  have counts : ∀ place, (taken.tokens place).toNat + (net.outputWeight place t).toNat =
      net.firedCount m t place := fun place => by rw [left place]; rfl
  have linkCount : ∀ l ∈ (net.flow t).outputs,
      (taken.tokens l.place).toNat + l.weight.toNat = net.firedCount m t l.place := by
    intro l member
    rw [← counts, outputWeight, Flow.outputWeight, outputs.weightOf_mem member]
  rw [fires]
  rcases put_links net (m := taken) (takenSize.trans size ▸ outputs) with
    ⟨next, done, nextSize, sums⟩ | ⟨before, l, after, parts, failed, full, room⟩
  · exact .inl ⟨next, done, nextSize.trans takenSize, fun place =>
      (sums place).trans (counts place)⟩
  · refine .inr ⟨before, l, after, parts, failed, ?_, fun k member => ?_⟩
    · rw [← linkCount l (by simp [parts])]; exact full
    · rw [← linkCount k (by simp [parts, member])]; exact room k member

theorem fireTransition_ok (fired : net.fireTransition m t = .ok next) :
    m.size = net.places.length ∧ net.isEnabled m t = true := by
  unfold fireTransition at fired
  split at fired
  · cases fired
  split at fired
  · cases fired
  split at fired
  · cases fired
  · rename_i size enabled
    exact ⟨Decidable.not_not.mp size, by simpa using enabled⟩

/-- A successful firing moves every count by the weights of its transition. -/
theorem WellFormed.fireTransition_counts (wellFormed : net.WellFormed)
    (fired : net.fireTransition m t = .ok next) :
    next.size = net.places.length ∧
      ∀ place, (next.tokens place).toNat = net.firedCount m t place := by
  obtain ⟨size, enabled⟩ := fireTransition_ok fired
  rcases wellFormed.fireTransition_enabled size enabled with
    ⟨other, same, otherSize, counts⟩ | ⟨_, _, _, _, failed, _⟩
  · obtain rfl : next = other := Except.ok.inj (fired.symm.trans same)
    exact ⟨otherSize.trans size, counts⟩
  · rw [fired] at failed
    cases failed

/-- On markings of the right length, an enabled transition fails only for want of room. -/
theorem WellFormed.fireTransition_overflow (wellFormed : net.WellFormed)
    (size : m.size = net.places.length) (enabled : net.isEnabled m t = true)
    {cause : FireError} (failed : net.fireTransition m t = .error cause) :
    ∃ place, place < net.places.length ∧ cause = .tokenOverflow (net.placeName place) ∧
      Count.limit ≤ net.firedCount m t place := by
  rcases wellFormed.fireTransition_enabled size enabled with
    ⟨_, fired, _⟩ | ⟨before, l, after, parts, overflow, full, _⟩
  · rw [fired] at failed
    cases failed
  · obtain rfl : cause = .tokenOverflow (net.placeName l.place) :=
      Except.error.inj (failed.symm.trans overflow)
    have inside := (wellFormed.proper t).outputs.inside l (by simp [parts])
    exact ⟨l.place, inside, rfl, full⟩

/-- Only what is enabled can overflow. -/
theorem isEnabled_of_overflow {place : String}
    (failed : net.fireTransition m t = .error (.tokenOverflow place)) :
    net.isEnabled m t = true := by
  unfold fireTransition at failed
  split at failed
  · cases failed
  split at failed
  · cases failed
  split at failed
  · cases failed
  · rename_i enabled
    simpa using enabled

/-- Firing by id is firing the transition with the id. -/
theorem fire_ok_iff {id : String} : net.fire m id = .ok next ↔
    ∃ t, net.transitionIndex? id = some t ∧ net.fireTransition m t = .ok next := by
  unfold fire
  cases net.transitionIndex? id <;> simp

/-- Firing transitions one after the other, up to the first failure. -/
def fireAll (net : Net) (m : Marking) (ts : List Nat) : Except FireError Marking :=
  ts.foldlM net.fireTransition m

/-- Firing ids one after the other, up to the first failure. -/
def fireIds (net : Net) (m : Marking) (ids : List String) : Except FireError Marking :=
  ids.foldlM net.fire m

@[simp] theorem fireAll_nil : net.fireAll m [] = .ok m := rfl

theorem fireAll_cons_ok {ts : List Nat} : net.fireAll m (t :: ts) = .ok next ↔
    ∃ middle, net.fireTransition m t = .ok middle ∧ net.fireAll middle ts = .ok next := by
  simp only [fireAll, List.foldlM_cons, bind, Except.bind]
  cases net.fireTransition m t <;> simp

theorem fireAll_concat_ok {ts : List Nat} : net.fireAll m (ts ++ [t]) = .ok next ↔
    ∃ middle, net.fireAll m ts = .ok middle ∧ net.fireTransition middle t = .ok next := by
  simp only [fireAll, List.foldlM_append, List.foldlM_cons, List.foldlM_nil, bind, Except.bind]
  cases List.foldlM net.fireTransition m ts with
  | error cause => simp
  | ok middle => cases last : net.fireTransition middle t <;> simp [last, pure, Except.pure]

theorem fireIds_cons_ok {id : String} {ids : List String} : net.fireIds m (id :: ids) = .ok next ↔
    ∃ middle, net.fire m id = .ok middle ∧ net.fireIds middle ids = .ok next := by
  simp only [fireIds, List.foldlM_cons, bind, Except.bind]
  cases net.fire m id <;> simp

/-- `next` is what some `n` successful firings make of `m`. -/
def ReachesIn (net : Net) (m : Marking) (n : Nat) (next : Marking) : Prop :=
  ∃ ts : List Nat, ts.length = n ∧ net.fireAll m ts = .ok next

theorem reachesIn_zero : net.ReachesIn m 0 next ↔ next = m := by
  simp [ReachesIn, eq_comm]

theorem reachesIn_succ {n : Nat} : net.ReachesIn m (n + 1) next ↔
    ∃ middle t, net.ReachesIn m n middle ∧ net.fireTransition middle t = .ok next := by
  constructor
  · rintro ⟨ts, length, fired⟩
    rcases List.eq_nil_or_concat ts with rfl | ⟨front, t, rfl⟩
    · cases length
    rw [List.concat_eq_append] at length fired
    obtain ⟨middle, before, last⟩ := fireAll_concat_ok.mp fired
    exact ⟨middle, t, ⟨front, by simpa using length, before⟩, last⟩
  · rintro ⟨middle, t, ⟨front, rfl, before⟩, last⟩
    exact ⟨front ++ [t], by simp, fireAll_concat_ok.mpr ⟨middle, before, last⟩⟩

/-- Replaying by id what was fired by index gives the same marking. -/
theorem WellFormed.fireIds_names (wellFormed : net.WellFormed) {ts : List Nat}
    (fired : net.fireAll m ts = .ok next) : net.fireIds m (ts.map net.transitionName) = .ok next := by
  induction ts generalizing m with
  | nil => exact fired
  | cons t rest ih =>
    obtain ⟨middle, first, later⟩ := fireAll_cons_ok.mp fired
    have bound := isEnabled_lt (fireTransition_ok first).2
    have byId := fire_ok_iff.mpr ⟨t, wellFormed.transitionIndex?_transitionName bound, first⟩
    exact fireIds_cons_ok.mpr ⟨middle, byId, ih later⟩

end Net

end TokenGame
