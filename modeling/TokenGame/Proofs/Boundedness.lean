import Mathlib.Data.List.Basic
import Mathlib.Data.List.Forall2
import Mathlib.Order.Bounds.Basic
import TokenGame.Analysis.Boundedness
import TokenGame.Proofs.Maximum

/-! Verdicts on the whole net. Summing up the verdicts on the places gives the same
answer as one verdict on the largest count of any place, so that every statement
about a summary is a statement about that count. Verdicts are ordered from a refutation
to a confirmation; smaller counts and wider bounds lead upwards only. -/
namespace TokenGame

namespace Verdict

variable {observed threshold : Count} {exhaustive : Bool}

theorem forBound_eq_no_iff :
    forBound observed threshold exhaustive = .no ↔ threshold.toNat < observed.toNat := by
  rw [← UInt64.lt_iff_toNat_lt]
  unfold forBound
  split
  · simp_all
  · cases exhaustive <;> simp_all

/-- Larger counts refute what smaller ones refute. -/
theorem forBound_no_of_le {more : Count} {exhaustiveMore : Bool} (most : observed ≤ more)
    (refuted : forBound observed threshold exhaustive = .no) :
    forBound more threshold exhaustiveMore = .no :=
  forBound_eq_no_iff.mpr <|
    Nat.lt_of_lt_of_le (forBound_eq_no_iff.mp refuted) (UInt64.le_iff_toNat_le.mp most)

theorem forBound_eq_yes_iff : forBound observed threshold exhaustive = .yes ↔
    observed.toNat ≤ threshold.toNat ∧ exhaustive = true := by
  rw [← UInt64.le_iff_toNat_le]
  unfold forBound
  split
  · simp_all
  · cases exhaustive <;> simp_all

theorem forBound_ne_unknown (known : exhaustive = true) :
    forBound observed threshold exhaustive ≠ .unknown := by
  rw [forBound, if_pos known]
  split <;> simp

theorem lt_maximum_iff {counts : List Count} {bound : Nat} :
    bound < (Count.maximum counts).toNat ↔ ∃ n ∈ counts, bound < n.toNat := by
  rw [← Nat.not_le, Count.toNat_maximum_le_iff]
  simp

/-- Where the verdicts are gone through in turn, a refutation anywhere decides, then a doubt
anywhere, and then the result at the start. -/
theorem aggregate_go (result : Verdict) (verdicts : List Verdict) :
    aggregate.go result verdicts =
      if .no ∈ verdicts then .no else if .unknown ∈ verdicts then .unknown else result := by
  induction verdicts generalizing result with
  | nil => simp [aggregate.go]
  | cons v rest ih =>
    cases v with
    | yes => simp [aggregate.go, ih]
    | no => simp [aggregate.go]
    | unknown => simp [aggregate.go, ih]

theorem aggregate_eq (verdicts : List Verdict) (exhaustive : Bool) :
    aggregate verdicts exhaustive =
      if .no ∈ verdicts then .no
      else if .unknown ∈ verdicts ∨ exhaustive = false then .unknown
      else .yes := by
  rw [aggregate, aggregate_go]
  cases exhaustive <;> simp

/-- The verdicts on some counts add up to the verdict on the largest of them. -/
theorem aggregate_forBound (counts : List Count) (threshold : Count) (exhaustive : Bool) :
    aggregate (counts.map (forBound · threshold exhaustive)) exhaustive =
      forBound (Count.maximum counts) threshold exhaustive := by
  have refuted : .no ∈ counts.map (forBound · threshold exhaustive) ↔
      threshold < Count.maximum counts := by
    simp [UInt64.lt_iff_toNat_lt, lt_maximum_iff, forBound_eq_no_iff]
  have doubted : exhaustive = true → .unknown ∉ counts.map (forBound · threshold exhaustive) := by
    intro known
    simp [forBound_ne_unknown known]
  rw [aggregate_eq]
  by_cases above : threshold < Count.maximum counts
  · rw [if_pos (refuted.mpr above), forBound, if_pos above]
  · rw [if_neg (mt refuted.mp above), forBound, if_neg above]
    cases exhaustive with
    | false => simp
    | true => simp [doubted rfl]

/-- It matters which verdicts there are, not in which order or how often. -/
theorem aggregate_congr {verdicts others : List Verdict}
    (same : ∀ v, v ∈ verdicts ↔ v ∈ others) (exhaustive : Bool) :
    aggregate verdicts exhaustive = aggregate others exhaustive := by
  rw [aggregate_eq, aggregate_eq]
  simp only [same]

/-! ### The order of verdicts -/

def rank : Verdict → Nat
  | .no => 0
  | .unknown => 1
  | .yes => 2

/-- Upwards, a confirmation stays one and nothing becomes a refutation. -/
instance : LE Verdict := ⟨fun a b => a.rank ≤ b.rank⟩

theorem forBound_mono {less wider : Count} (fewer : less ≤ observed) (above : threshold ≤ wider) :
    forBound observed threshold exhaustive ≤ forBound less wider exhaustive := by
  by_cases refuted : threshold < observed
  · rw [forBound, if_pos refuted]
    exact Nat.zero_le _
  · have within : ¬ wider < less := by
      rw [UInt64.not_lt] at refuted ⊢
      exact UInt64.le_trans fewer (UInt64.le_trans refuted above)
    rw [forBound, forBound, if_neg refuted, if_neg within]
    exact Nat.le_refl _

end Verdict

namespace Boundedness

variable (net : Net) (maxima : List Count) (k : Option Count) (exhaustive : Bool)

theorem isSafe_summarize : (summarize net maxima k exhaustive).isSafe =
    .forBound (summarize net maxima k exhaustive).minimalK safeThreshold exhaustive := by
  have verdicts : (summarize net maxima k exhaustive).places.map (·.safe) =
      ((summarize net maxima k exhaustive).places.map (·.maxTokens)).map
        (.forBound · safeThreshold exhaustive) := by
    apply List.ext_getElem <;> simp [summarize, ofPlace]
  have total : (summarize net maxima k exhaustive).isSafe =
      .aggregate ((summarize net maxima k exhaustive).places.map (·.safe)) exhaustive := rfl
  rw [total, verdicts, Verdict.aggregate_forBound]
  rfl

theorem isKBounded_summarize : (summarize net maxima k exhaustive).isKBounded =
    k.map (.forBound (summarize net maxima k exhaustive).minimalK · exhaustive) := by
  cases k with
  | none => rfl
  | some k =>
    have verdicts : (summarize net maxima (some k) exhaustive).places.filterMap (·.kBounded) =
        ((summarize net maxima (some k) exhaustive).places.map (·.maxTokens)).map
          (.forBound · k exhaustive) := by
      rw [List.map_map, List.filterMap_eq_map_iff_forall_eq_some]
      intro v member
      obtain ⟨i, bound, rfl⟩ := List.mem_mapIdx.mp member
      rfl
    have total : (summarize net maxima (some k) exhaustive).isKBounded =
        some (.aggregate ((summarize net maxima (some k) exhaustive).places.filterMap
          (·.kBounded)) exhaustive) := rfl
    rw [total, verdicts, Verdict.aggregate_forBound]
    rfl

theorem minimalK_eq : (summarize net maxima k exhaustive).minimalK =
    Count.maximum ((summarize net maxima k exhaustive).places.map (·.maxTokens)) := rfl

theorem minimalK_le_iff {bound : Count} : (summarize net maxima k exhaustive).minimalK ≤ bound ↔
    ∀ v ∈ (summarize net maxima k exhaustive).places, v.maxTokens ≤ bound := by
  rw [minimalK_eq, UInt64.le_iff_toNat_le, Count.toNat_maximum_le_iff, List.forall_mem_map]
  simp only [UInt64.le_iff_toNat_le]

variable {net maxima k exhaustive}

/-- A place's verdict on the bound is about its own count. -/
theorem kBounded_of_mem {v : PlaceVerdict}
    (member : v ∈ (summarize net maxima k exhaustive).places) :
    v.kBounded = k.map (.forBound v.maxTokens · exhaustive) := by
  obtain ⟨i, bound, rfl⟩ := List.mem_mapIdx.mp member
  rfl

theorem isKBounded_eq_no_iff : (summarize net maxima k exhaustive).isKBounded = some .no ↔
    ∃ v ∈ (summarize net maxima k exhaustive).places, v.kBounded = some .no := by
  rw [isKBounded_summarize]
  cases k with
  | none =>
    constructor
    · intro asked
      cases asked
    · rintro ⟨v, member, asked⟩
      rw [kBounded_of_mem member] at asked
      cases asked
  | some k =>
    rw [Option.map_some, Option.some.injEq, Verdict.forBound_eq_no_iff, minimalK_eq,
      Verdict.lt_maximum_iff]
    simp only [List.mem_map, exists_exists_and_eq_and]
    refine exists_congr fun v => and_congr_right fun member => ?_
    rw [kBounded_of_mem member, Option.map_some, Option.some.injEq, Verdict.forBound_eq_no_iff]

/-- Also a net without places is bounded only if the search has seen everything. -/
theorem isKBounded_eq_yes_iff : (summarize net maxima k exhaustive).isKBounded = some .yes ↔
    k.isSome ∧ exhaustive = true ∧
      ∀ v ∈ (summarize net maxima k exhaustive).places, v.kBounded = some .yes := by
  rw [isKBounded_summarize]
  cases k with
  | none => simp
  | some k =>
    rw [Option.map_some, Option.some.injEq, Verdict.forBound_eq_yes_iff, ← UInt64.le_iff_toNat_le,
      minimalK_le_iff, and_comm, and_iff_right (Option.isSome_some)]
    refine and_congr_right fun known => forall₂_congr fun v member => ?_
    rw [kBounded_of_mem member, Option.map_some, Option.some.injEq, Verdict.forBound_eq_yes_iff,
      ← UInt64.le_iff_toNat_le, and_iff_left known]

/-! ### Other counts and bounds -/

/-- No verdict of the second summary is worse than that of the first. -/
structure Improves (b better : Boundedness) : Prop where
  isKBounded : Option.Rel (· ≤ ·) b.isKBounded better.isKBounded
  isSafe : b.isSafe ≤ better.isSafe
  places : List.Forall₂ (fun v w : PlaceVerdict =>
    v.place = w.place ∧ Option.Rel (· ≤ ·) v.kBounded w.kBounded ∧ v.safe ≤ w.safe)
    b.places better.places

/-- Counts that are nowhere larger and a bound that is no narrower improve the verdicts. -/
theorem summarize_improves {lower : List Count} {wider : Option Count}
    (fewer : ∀ i, lower.getD i 0 ≤ maxima.getD i 0) (above : Option.Rel (· ≤ ·) k wider) :
    (summarize net maxima k exhaustive).Improves (summarize net lower wider exhaustive) := by
  have least : (summarize net lower wider exhaustive).minimalK ≤
      (summarize net maxima k exhaustive).minimalK := by
    have bounds := (minimalK_le_iff net maxima k exhaustive).mp (UInt64.le_refl _)
    refine (minimalK_le_iff ..).mpr fun v member => ?_
    obtain ⟨i, inside, rfl⟩ := List.mem_mapIdx.mp member
    exact UInt64.le_trans (fewer i) (bounds _ (List.mem_mapIdx.mpr ⟨i, inside, rfl⟩))
  have asked : ∀ {more less : Count}, less ≤ more →
      Option.Rel (· ≤ ·) (k.map (Verdict.forBound more · exhaustive))
        (wider.map (Verdict.forBound less · exhaustive)) := by
    intro more less fewer
    cases above with
    | none => exact .none
    | some above => exact .some (Verdict.forBound_mono fewer above)
  refine ⟨?_, ?_, ?_⟩
  · rw [isKBounded_summarize, isKBounded_summarize]
    exact asked least
  · rw [isSafe_summarize, isSafe_summarize]
    exact Verdict.forBound_mono least (UInt64.le_refl _)
  · refine List.forall₂_iff_get.mpr ⟨by simp [summarize], fun i left right => ?_⟩
    simp only [summarize, List.get_eq_getElem, List.getElem_mapIdx]
    exact ⟨rfl, asked (fewer i), Verdict.forBound_mono (fewer i) (UInt64.le_refl _)⟩

/-- What is said about the net is one verdict on the least count that no place exceeds, and agrees
with what is said about its places: one place that exceeds the bound refutes it, and it takes a
complete search and all places to confirm it. Fewer tokens or a wider bound never make a verdict
worse. The verdicts on places may be added up in any order, and any of them twice. -/
theorem summarize_agrees (net : Net) (maxima : List Count) (k : Option Count)
    (exhaustive : Bool) :
    let b := summarize net maxima k exhaustive
    b.places.map (·.maxTokens) = (List.range net.places.length).map (maxima.getD · 0) ∧
      IsLeast {bound | ∀ v ∈ b.places, v.maxTokens ≤ bound} b.minimalK ∧
      b.isSafe = .forBound b.minimalK 1 exhaustive ∧
      b.isKBounded = k.map (.forBound b.minimalK · exhaustive) ∧
      (b.isKBounded = some .no ↔ ∃ v ∈ b.places, v.kBounded = some .no) ∧
      (b.isKBounded = some .yes ↔
        k.isSome ∧ exhaustive = true ∧ ∀ v ∈ b.places, v.kBounded = some .yes) ∧
      (∀ (lower : List Count) (wider : Option Count),
        (∀ i, lower.getD i 0 ≤ maxima.getD i 0) → Option.Rel (· ≤ ·) k wider →
          b.Improves (summarize net lower wider exhaustive)) ∧
      ∀ verdicts others : List Verdict, (∀ v, v ∈ verdicts ↔ v ∈ others) →
        Verdict.aggregate verdicts exhaustive = .aggregate others exhaustive := by
  refine ⟨?_, ?_, isSafe_summarize .., isKBounded_summarize .., isKBounded_eq_no_iff,
    isKBounded_eq_yes_iff, fun _ _ => summarize_improves,
    fun _ _ same => Verdict.aggregate_congr same exhaustive⟩
  · apply List.ext_getElem <;> simp [summarize, ofPlace]
  · exact ⟨(minimalK_le_iff ..).mp (UInt64.le_refl _), fun _ => (minimalK_le_iff ..).mpr⟩

/-- Two places with nothing between them. -/
def pair : Net where
  places := [{ id := "a" }, { id := "b" }]
  transitions := []
  flows := #[]

theorem summarize_agrees_pair :
    (summarize pair [0, 4, 9] (some 3) false).isKBounded = some .no ∧
      (∀ i, [1].getD i 0 ≤ [1, 4, 9].getD i (0 : Count)) ∧
      (summarize pair [1, 4, 9] (some 3) true).Improves (summarize pair [1] (some 5) true) ∧
      Verdict.aggregate [.unknown, .yes, .unknown] true = .aggregate [.yes, .unknown] true := by
  have fewer : ∀ i, [1].getD i 0 ≤ [1, 4, 9].getD i (0 : Count) := by
    rintro (_ | i)
    · decide
    · exact UInt64.zero_le
  obtain ⟨_, _, _, _, refuted, _⟩ := summarize_agrees pair [0, 4, 9] (some 3) false
  obtain ⟨_, _, _, _, _, _, improves, added⟩ := summarize_agrees pair [1, 4, 9] (some 3) true
  exact ⟨refuted.mpr ⟨⟨"b", 4, some .no, .no⟩, by decide, rfl⟩, fewer,
    improves [1] (some 5) fewer (.some (by decide)), added _ _ (by rintro (_ | _ | _) <;> decide)⟩

end Boundedness

end TokenGame
