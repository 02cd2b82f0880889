import TokenGame.Proofs.Net.Unbounded

/-! What firing a transition comes to, for markings of any length and any index. Firing
goes over the links of a transition twice and changes one marking as it goes. Since the
links of a compiled net are to different places, the result is as if every place were
changed at once, and the counts before and after alone decide which result it is. -/
namespace TokenGame

theorem Link.Proper.prefix_of {places : Nat} {before after : List Link}
    (proper : Proper places (before ++ after)) : Proper places before where
  distinct := by
    have distinct := proper.distinct
    rw [List.map_append] at distinct
    exact (List.nodup_append.mp distinct).1
  inside l member := proper.inside l (List.mem_append_left after member)

theorem Link.Proper.weightOf_before {places : Nat} {before after : List Link} {l : Link}
    (proper : Proper places (before ++ l :: after)) : weightOf before l.place = 0 := by
  apply weightOf_absent
  intro k member same
  have distinct := proper.distinct
  rw [List.map_append, List.map_cons] at distinct
  have apart := (List.nodup_append.mp distinct).2.2
  exact apart k.place (List.mem_map.mpr ⟨k, member, rfl⟩) l.place (.head _) same

namespace Net

variable {net : Net} {m : Marking} {t : Nat}

/-- Some place holds less than the transition takes from it. -/
def Lacks (net : Net) (m : Marking) (t : Nat) : Prop :=
  ∃ place, place < net.places.length ∧ m.tokens place < net.inputWeight place t

instance : Decidable (net.Lacks m t) :=
  Nat.decidableExistsLT (p := fun place => m.tokens place < net.inputWeight place t)
    net.places.length

/-- The first place, in the order of the outputs, whose new count is no word. -/
def firstFull? (net : Net) (m : Marking) (t : Nat) : Option Nat :=
  ((net.flow t).outputs.map (·.place)).find? fun place => Count.limit ≤ net.firedCount m t place

/-- The marking with the new count on every place. -/
def fired (net : Net) (m : Marking) (t : Nat) : Marking :=
  .ofList ((List.range net.places.length).map fun place => (net.firedCount m t place).toUInt64)

/-- The result of firing, from the counts alone. -/
def outcome (net : Net) (m : Marking) (t : Nat) : Except FireError Marking :=
  if net.transitions.length ≤ t then .error (.unknownTransition (net.transitionName t))
  else if m.size ≠ net.places.length then .error (.foreignMarking net.places.length m.size)
  else if net.Lacks m t then .error (.notEnabled (net.transitionName t))
  else
    match net.firstFull? m t with
    | some place => .error (.tokenOverflow (net.placeName place))
    | none => .ok (net.fired m t)

theorem WellFormed.lacks_iff (wellFormed : net.WellFormed) (bound : t < net.transitions.length) :
    net.Lacks m t ↔ t ∉ net.enabledTransitions m := by
  rw [mem_enabledTransitions, ← wellFormed.enables_iff ⟨t, bound⟩]
  simp only [Lacks, Enables, tokensOf, UInt64.lt_iff_toNat_lt, Classical.not_forall,
    Nat.not_le]
  exact ⟨fun ⟨place, inside, less⟩ => ⟨⟨place, inside⟩, less⟩,
    fun ⟨place, less⟩ => ⟨place, place.isLt, less⟩⟩

theorem size_fired : (net.fired m t).size = net.places.length := by
  simp [fired, Marking.size, Marking.ofList]

theorem toNat_tokens_fired {place : Nat} (inside : place < net.places.length)
    (room : net.firedCount m t place < Count.limit) :
    ((net.fired m t).tokens place).toNat = net.firedCount m t place := by
  have count : (net.fired m t).tokens place = (net.firedCount m t place).toUInt64 := by
    simp [fired, Marking.tokens, Marking.ofList, Array.getD_eq_getD_getElem?, inside]
  rw [count]
  exact UInt64.toNat_ofNat_of_lt room

theorem eq_fired {next : Marking} (size : next.size = net.places.length)
    (counts : ∀ place, (next.tokens place).toNat = net.firedCount m t place) :
    next = net.fired m t := by
  refine Marking.ext_tokens (size.trans size_fired.symm) fun place inside => ?_
  have room : net.firedCount m t place < Count.limit :=
    counts place ▸ Count.toNat_lt_limit (next.tokens place)
  rw [← UInt64.toNat_inj, counts place, toNat_tokens_fired (size ▸ inside) room]

theorem firstFull?_eq_none (fits : ∀ place, net.firedCount m t place < Count.limit) :
    net.firstFull? m t = none := by
  rw [firstFull?, List.find?_eq_none]
  intro place _
  simpa using fits place

theorem firstFull?_eq_some {before after : List Link} {l : Link}
    (parts : (net.flow t).outputs = before ++ l :: after)
    (full : Count.limit ≤ net.firedCount m t l.place)
    (room : ∀ k ∈ before, net.firedCount m t k.place < Count.limit) :
    net.firstFull? m t = some l.place := by
  have earlier : (before.map (·.place)).find?
      (fun place => Count.limit ≤ net.firedCount m t place) = none := by
    rw [List.find?_eq_none]
    intro place member
    obtain ⟨k, old, rfl⟩ := List.mem_map.mp member
    simpa using room k old
  rw [firstFull?, parts, List.map_append, List.find?_append, earlier]
  simp [full]

/-- An enabled transition fails at the first place that gets too full, if there is one. -/
theorem WellFormed.fireTransition_of_enabled (wellFormed : net.WellFormed)
    (size : m.size = net.places.length) (enabled : net.isEnabled m t = true) :
    net.fireTransition m t = match net.firstFull? m t with
      | some place => .error (.tokenOverflow (net.placeName place))
      | none => .ok (net.fired m t) := by
  rcases wellFormed.fireTransition_enabled size enabled with
    ⟨next, done, nextSize, counts⟩ | ⟨before, l, after, parts, failed, full, room⟩
  · have fits : ∀ place, net.firedCount m t place < Count.limit := fun place =>
      counts place ▸ Count.toNat_lt_limit (next.tokens place)
    rw [done, firstFull?_eq_none fits, eq_fired (nextSize.trans size) counts]
  · rw [failed, firstFull?_eq_some parts full room]

/-- Firing gives the result that the counts say. -/
theorem WellFormed.fireTransition_eq_outcome (wellFormed : net.WellFormed) (m : Marking)
    (t : Nat) : net.fireTransition m t = net.outcome m t := by
  by_cases bound : t < net.transitions.length
  · by_cases size : m.size = net.places.length
    · have lacks := wellFormed.lacks_iff (m := m) bound
      rw [mem_enabledTransitions] at lacks
      by_cases enabled : net.isEnabled m t = true
      · have enough : ¬ net.Lacks m t := fun less => lacks.mp less enabled
        simp only [outcome, Nat.not_le.mpr bound, size, enough, ne_eq, not_true, if_false]
        exact wellFormed.fireTransition_of_enabled size enabled
      · simp [fireTransition, outcome, Nat.not_le.mpr bound, size, enabled, lacks.mpr enabled]
    · simp [fireTransition, outcome, Nat.not_le.mpr bound, size]
  · simp [fireTransition, outcome, Nat.not_lt.mp bound]

/-- When a transition of the net is enabled, each step of firing finds the place of its
link in the marking that the steps before it have left: taking never fails, and putting
fails only for want of room. -/
structure FindsPlaces (net : Net) (m : Marking) (t : Nat) : Prop where
  inputs : ∀ before l after, (net.flow t).inputs = before ++ l :: after →
    ∃ middle, before.foldlM Marking.take? m = some middle ∧
      l.place < middle.size ∧ l.weight ≤ middle.tokens l.place
  outputs : ∀ before l after, (net.flow t).outputs = before ++ l :: after →
    ∀ taken middle, takeInputs? m (net.flow t) = some taken →
      net.putOutputs taken ⟨[], before⟩ = .ok middle → l.place < middle.size

theorem WellFormed.findsPlaces (wellFormed : net.WellFormed) (size : m.size = net.places.length)
    (enabled : net.isEnabled m t = true) : net.FindsPlaces m t := by
  have inputs := size ▸ (wellFormed.proper t).inputs
  have outputs := size ▸ (wellFormed.proper t).outputs
  have held : ∀ l ∈ (net.flow t).inputs, l.weight ≤ m.tokens l.place := by
    simp only [isEnabled, Bool.and_eq_true, List.all_eq_true, decide_eq_true_eq] at enabled
    exact enabled.2
  constructor
  · intro before l after parts
    rw [parts] at inputs held
    obtain ⟨middle, takes, middleSize, left⟩ := take_links inputs.prefix_of
      fun k member => held k (List.mem_append_left _ member)
    refine ⟨middle, takes, middleSize ▸ inputs.inside l (by simp), ?_⟩
    rw [UInt64.le_iff_toNat_le, left, inputs.weightOf_before]
    exact UInt64.le_iff_toNat_le.mp (held l (by simp))
  · intro before l after parts taken middle takes puts
    obtain ⟨next, same, nextSize, _⟩ := take_links inputs held
    obtain rfl : taken = next := Option.some.inj (takes.symm.trans same)
    rw [← nextSize, parts] at outputs
    rcases put_links net outputs.prefix_of with
      ⟨other, done, otherSize, _⟩ | ⟨_, _, _, _, failed, _⟩
    · obtain rfl : middle = other := Except.ok.inj (puts.symm.trans done)
      rw [otherSize]
      exact outputs.inside l (by simp)
    · rw [puts] at failed
      cases failed

/-- Places that no link of the transition is to keep their tokens. -/
theorem WellFormed.fireTransition_frame (wellFormed : net.WellFormed) {next : Marking}
    (done : net.fireTransition m t = .ok next) {place : Nat}
    (apart : place ∉ (net.flow t).adjacent) : next.tokens place = m.tokens place := by
  have absent : ∀ l ∈ (net.flow t).inputs ++ (net.flow t).outputs, l.place ≠ place :=
    fun l member same => apart (List.mem_map.mpr ⟨l, member, same⟩)
  have takes : net.inputWeight place t = 0 :=
    Link.weightOf_absent fun l member => absent l (List.mem_append_left _ member)
  have puts : net.outputWeight place t = 0 :=
    Link.weightOf_absent fun l member => absent l (List.mem_append_right _ member)
  rw [← UInt64.toNat_inj, (wellFormed.fireTransition_counts done).2 place, firedCount, takes, puts]
  simp

/-- The result of firing on a compiled net: the index, the length, the tokens that are
missing and the first place that is too full decide in this order, and otherwise every
count moves by its weights. A loop needs no room for what it takes back. -/
theorem fireTransition_outcomes {model : Model} (compiled : ofModel model = .ok net) (m : Marking)
    (t : Nat) :
    net.fireTransition m t = net.outcome m t ∧
    (t < net.transitions.length → (net.Lacks m t ↔ t ∉ net.enabledTransitions m)) ∧
    (∀ next, net.fireTransition m t = .ok next →
      next.size = m.size ∧
      (∀ place, (next.tokens place).toNat = (m.tokens place).toNat -
        (net.inputWeight place t).toNat + (net.outputWeight place t).toNat) ∧
      ∀ place, place ∉ (net.flow t).adjacent → next.tokens place = m.tokens place) ∧
    (m.size = net.places.length → t ∈ net.enabledTransitions m →
      net.FindsPlaces m t ∧
      ((∀ place, place < net.places.length → (m.tokens place).toNat -
          (net.inputWeight place t).toNat + (net.outputWeight place t).toNat < Count.limit) →
        ∃ next, net.fireTransition m t = .ok next)) := by
  have wellFormed := wellFormed_of_ofModel compiled
  refine ⟨wellFormed.fireTransition_eq_outcome m t, wellFormed.lacks_iff, ?_, ?_⟩
  · intro next done
    have size := (fireTransition_ok done).1
    obtain ⟨nextSize, counts⟩ := wellFormed.fireTransition_counts done
    exact ⟨nextSize.trans size.symm, counts, fun place => wellFormed.fireTransition_frame done⟩
  · intro size member
    have enabled := mem_enabledTransitions.mp member
    refine ⟨wellFormed.findsPlaces size enabled, fun room => ?_⟩
    cases done : net.fireTransition m t with
    | ok next => exact ⟨next, rfl⟩
    | error cause =>
      obtain ⟨place, inside, _, full⟩ := wellFormed.fireTransition_overflow size enabled done
      exact absurd (room place inside) (Nat.not_lt.mpr full)

/-- One transition takes a token from a full place and puts it back. -/
def recycle : Model where
  places := [{ id := "full", tokens := 18446744073709551615 }]
  transitions := [{ id := "loop" }]
  arcs := [⟨"a", "full", "loop", 1⟩, ⟨"b", "loop", "full", 1⟩]

theorem fireTransition_outcomes_recycle :
    ∃ net, ofModel recycle = .ok net ∧
      ∃ next, net.fireTransition net.initialMarking 0 = .ok next :=
  have compiled : ofModel recycle = .ok _ := rfl
  ⟨_, compiled, ((fireTransition_outcomes compiled _ 0).2.2.2 rfl (by decide)).2 (by decide)⟩

end Net

end TokenGame
