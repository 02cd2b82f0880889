import TokenGame.Proofs.Search.Findings

/-! Witnesses of defects. A verdict comes from the largest counts, a witness from the
first state that shows the defect and the firings recorded on the way to it; the two
agree, and since states are found in the order of their distance, no firing sequence
to the defect is shorter than the one that is shown. -/
namespace TokenGame

/-- A witness that can be fired by id from the start, ends in a marking with the
defect, and is as short as any firing sequence to such a marking. -/
structure Witness.Genuine (net : Net) (start : Marking) (defect : Marking → Prop)
    (w : Witness) : Prop where
  replay : ∃ final, net.fireIds start w.trace = .ok final ∧
    net.markingToMap final = w.marking ∧ defect final
  length : w.trace.length = w.depth
  shortest : ∀ ts x, ts.length < w.depth → net.fireAll start ts = .ok x → ¬ defect x

/-- Some place holds more than a threshold. -/
def Net.Exceeds (net : Net) (threshold : Count) (m : Marking) : Prop :=
  ∃ place, place < net.places.length ∧ threshold < m.tokens place

theorem Net.exceeds_iff {net : Net} {threshold : Count} {m : Marking}
    (size : m.size = net.places.length) : net.Exceeds threshold m ↔ threshold < m.maximum := by
  rw [UInt64.lt_iff_toNat_lt, ← Nat.not_le, Marking.toNat_maximum_le_iff, size]
  simp [Exceeds, UInt64.lt_iff_toNat_lt]

namespace Search

variable {net : Net} {c : SearchConfig} {m : Marking} {s : Search}

/-- The first state found with a defect. -/
structure First (s : Search) (defect : Marking → Prop) (i : Nat) (a : State) : Prop where
  found : s.At i a
  shown : defect a.marking
  earlier : ∀ j b, j < i → s.At j b → ¬ defect b.marking

namespace Finished

variable (finished : s.Finished net c m)
include finished

theorem first_deadlock? {i : Nat} (reported : s.deadlock? = some i) :
    ∃ a, s.First (net.enabledTransitions · = []) i a := by
  rw [finished.deadlock?_eq, List.find?_range_eq_some] at reported
  obtain ⟨dead, _, earlier⟩ := reported
  obtain ⟨a, found, none⟩ := deadAt_iff.mp dead
  refine ⟨a, found, none, ?_⟩
  intro j b before other dead
  have alive := earlier j before
  rw [deadAt_iff.mpr ⟨b, other, dead⟩] at alive
  cases alive

theorem witness?_genuine (wellFormed : net.WellFormed) {defect : Marking → Prop} {i : Nat}
    {a : State} (first : s.First defect i a) :
    ∃ w, s.witness? net i = some w ∧ w.Genuine net m defect := by
  obtain ⟨found, shown, earlier⟩ := first
  obtain ⟨length, fires⟩ := finished.pathTo_fires found
  refine ⟨_, congrArg (Option.map _) found, ?_, ?_, ?_⟩
  · exact ⟨a.marking, wellFormed.fireIds_names fires, rfl, shown⟩
  · exact (List.length_map ..).trans length
  · intro ts x shorter reached other
    -- limits do not matter here: a nearer marking has a state, and an earlier one
    obtain ⟨j, b, visited, rfl, depth⟩ :=
      finished.layers i a ts.length x found shorter ⟨ts, rfl, reached⟩
    have nearer : b.depth < a.depth := Nat.lt_of_le_of_lt depth shorter
    exact earlier j b (finished.found_before visited found nearer) visited other

/-- The witness of a reported state exists and is genuine, if the state is the first
with the defect. -/
theorem witness_of_first (wellFormed : net.WellFormed) {defect : Marking → Prop}
    {reported : Option Nat} (first : ∀ i, reported = some i → ∃ a, s.First defect i a) :
    (reported.bind (s.witness? net)).isSome = reported.isSome ∧
      ∀ w, reported.bind (s.witness? net) = some w → w.Genuine net m defect := by
  cases reported with
  | none => simp
  | some i =>
    obtain ⟨a, isFirst⟩ := first i rfl
    obtain ⟨w, shown, genuine⟩ := finished.witness?_genuine wellFormed isFirst
    simp [shown, genuine]

variable (wellFormed : net.WellFormed) (size : m.size = net.places.length)
include wellFormed size

theorem first_exceeding? {threshold : Count} {i : Nat}
    (reported : s.exceeding? threshold = some i) :
    ∃ a, s.First (net.Exceeds threshold) i a := by
  obtain ⟨bound, exceeded, earlier⟩ := Array.findIdx?_eq_some_iff_getElem.mp reported
  have found : s.At i s.states[i] := Array.getElem?_eq_getElem bound
  refine ⟨s.states[i], found, ?_, ?_⟩
  · exact (Net.exceeds_iff (finished.sized wellFormed size found)).mpr (by simpa using exceeded)
  · intro j b before other exceeds
    have larger := (Net.exceeds_iff (finished.sized wellFormed size other)).mp exceeds
    obtain ⟨_, rfl⟩ := Array.getElem?_eq_some_iff.mp other
    exact earlier j before (by simpa using larger)

/-- A state above a threshold is reported exactly if the largest count is above it. -/
theorem exceeding?_isSome_iff {k : Option Count} {threshold : Count} :
    (s.exceeding? threshold).isSome = true ↔
      threshold.toNat < (s.findings net k).minimalKObserved.toNat := by
  rw [← Nat.not_le, minimalKObserved_le_iff, exceeding?, Array.findIdx?_isSome,
    ← Array.any_toList, List.any_eq_true]
  constructor
  · rintro ⟨a, member, exceeded⟩ all
    obtain ⟨i, found⟩ := mem_states.mp member
    have exceeds := (Net.exceeds_iff (finished.sized wellFormed size found)).mpr
      (of_decide_eq_true exceeded)
    obtain ⟨place, inside, large⟩ := exceeds
    have small := all i a found place inside
    have large := UInt64.lt_iff_toNat_lt.mp large
    omega
  · intro some
    simp only [not_forall, Nat.not_le] at some
    obtain ⟨i, a, found, place, inside, large⟩ := some
    have exceeds : net.Exceeds threshold a.marking :=
      ⟨place, inside, UInt64.lt_iff_toNat_lt.mpr large⟩
    exact ⟨a, mem_states.mpr ⟨i, found⟩, decide_eq_true
      ((Net.exceeds_iff (finished.sized wellFormed size found)).mp exceeds)⟩

end Finished

/-- The whole net is refuted exactly where some place is. -/
theorem isKBounded_findings_eq_no_iff {k : Option Count} :
    (s.findings net k).isKBounded = some .no ↔
      ∃ v ∈ (s.findings net k).placeVerdicts, v.kBounded = some .no := by
  cases k with
  | none => simp [isKBounded_findings, placeVerdicts_findings, Boundedness.ofPlace]
  | some k =>
    simp only [isKBounded_findings, minimalKObserved_findings, placeVerdicts_findings,
      Boundedness.ofPlace, Option.map_some, Option.some.injEq, Verdict.forBound_eq_no_iff,
      Verdict.lt_maximum_iff, List.mem_map, List.mem_mapIdx, List.mem_range]
    constructor
    · rintro ⟨_, ⟨i, inside, rfl⟩, large⟩
      exact ⟨_, ⟨i, inside, rfl⟩, congrArg some (Verdict.forBound_eq_no_iff.mpr large)⟩
    · rintro ⟨_, ⟨i, inside, rfl⟩, refuted⟩
      exact ⟨_, ⟨i, inside, rfl⟩, Verdict.forBound_eq_no_iff.mp (Option.some.inj refuted)⟩

end Search

namespace Net

open Search

/-- Each witness stands exactly with its finding, can be replayed by the ids of its
trace, and no firing sequence to its defect is shorter. -/
theorem explore_witnesses_genuine {model : Model} {net : Net}
    (compiled : ofModel model = .ok net) {c : SearchConfig} (config : c.validate = .ok ())
    {m : Marking} (size : m.size = net.places.length) :
    ∃ f, net.explore c m = .ok f ∧
      (f.deadlockWitness.isSome = true ↔ f.deadlocked = true) ∧
      (f.kWitness.isSome = true ↔ f.isKBounded = some .no) ∧
      (f.isKBounded = some .no ↔ ∃ v ∈ f.placeVerdicts, v.kBounded = some .no) ∧
      (f.unsafeWitness.isSome = true ↔ f.isSafe = .no) ∧
      (∀ w, f.deadlockWitness = some w → w.Genuine net m (net.enabledTransitions · = [])) ∧
      (∀ w, f.kWitness = some w → ∃ k, c.k = some k ∧ w.Genuine net m (net.Exceeds k)) ∧
      ∀ w, f.unsafeWitness = some w → w.Genuine net m (net.Exceeds 1) := by
  have wellFormed := wellFormed_of_ofModel compiled
  obtain ⟨s, _, finished, explored⟩ := search_finishes wellFormed config size
  have dead := finished.witness_of_first wellFormed fun _ => finished.first_deadlock?
  have exceeded := fun threshold : Count => finished.witness_of_first wellFormed
    fun i (reported : s.exceeding? threshold = some i) =>
      finished.first_exceeding? wellFormed size reported
  have refuted : ∀ threshold : Count,
      ((s.exceeding? threshold).bind (s.witness? net)).isSome = true ↔
        Verdict.forBound (s.findings net c.k).minimalKObserved threshold (!s.hitLimits) = .no := by
    intro threshold
    rw [(exceeded threshold).1, finished.exceeding?_isSome_iff wellFormed size (k := c.k),
      Verdict.forBound_eq_no_iff]
  refine ⟨_, explored, ?_, ?_, isKBounded_findings_eq_no_iff, ?_, dead.2, ?_, (exceeded 1).2⟩
  · exact Bool.eq_iff_iff.mp dead.1
  · rw [isKBounded_findings]
    cases asked : c.k with
    | none => simp [findings]
    | some k => simpa [findings, asked] using refuted k
  · rw [isSafe_findings]
    exact refuted Boundedness.safeThreshold
  · intro w shown
    cases asked : c.k with
    | none => simp [findings, asked] at shown
    | some k => exact ⟨k, rfl, (exceeded k).2 w (by simpa [findings, asked] using shown)⟩

theorem explore_witnesses_genuine_transfer :
    ∃ f, transfer.explore { k := some 1, maxDepth := 4, maxStates := 8 } (.ofList [2, 0]) = .ok f ∧
      (f.kWitness.isSome = true ↔ f.isKBounded = some .no) ∧
      ∀ w, f.deadlockWitness = some w →
        w.Genuine transfer (.ofList [2, 0]) (transfer.enabledTransitions · = []) := by
  obtain ⟨f, explored, _, exceeded, _, _, dead, _⟩ :=
    explore_witnesses_genuine (c := { k := some 1, maxDepth := 4, maxStates := 8 })
      ofModel_transfer rfl (m := .ofList [2, 0]) rfl
  exact ⟨f, explored, exceeded, dead⟩

end Net

end TokenGame
