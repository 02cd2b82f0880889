import Mathlib.Order.Lattice.Nat
import TokenGame.Proofs.Search.Findings
import TokenGame.Proofs.Search.Limits

/-! What the findings of a search say about the unbounded token game. A search sees
only markings of words and may be cut short; its answers are nevertheless true of
every marking that exact counts can reach, and it doubts only where limits were met. -/
namespace TokenGame

/-- What a verdict on a bound says about some places in the unbounded game. -/
def Verdict.Sound (net : Net) (start : net.Tokens) (limited : Bool)
    (watched : Set (Fin net.places.length)) (bound : Nat) : Verdict → Prop
  | .yes => ∀ M, net.Reachable start M → ∀ place ∈ watched, M place ≤ bound
  | .no => ∃ M, net.Reachable start M ∧ ∃ place ∈ watched, bound < M place
  | .unknown => limited = true

/-- What the findings of a search say about the unbounded game, given the bound
that was asked for. -/
structure Findings.Sound (net : Net) (start : net.Tokens) (k : Option Count)
    (f : Findings) : Prop where
  kBounded : Option.Rel (fun k v => Verdict.Sound net start f.hitLimits .univ k.toNat v)
    k f.isKBounded
  safe : f.isSafe.Sound net start f.hitLimits .univ 1
  listed : f.placeVerdicts.length = net.places.length
  places : ∀ place : Fin net.places.length, ∃ v, f.placeVerdicts[place.val]? = some v ∧
    v.place = net.places[place].id ∧
    Option.Rel (fun k v => Verdict.Sound net start f.hitLimits {place} k.toNat v) k v.kBounded ∧
    v.safe.Sound net start f.hitLimits {place} 1
  greatest : ∀ b, f.bound = some b → net.places ≠ [] →
    IsGreatest {n | ∃ M, net.Reachable start M ∧ ∃ place, M place = n} b.toNat
  empty : ∀ b, f.bound = some b → net.places = [] → b = 0
  unbounded : f.bound = none → f.hitLimits = true
  dead : f.deadlocked = true → ∃ M, net.Reachable start M ∧ ∀ t, ¬ net.Enables M t
  alive : f.deadlocked = false → f.hitLimits = false →
    ∀ M, net.Reachable start M → ∃ t, net.Enables M t

namespace Search

variable {net : Net} {c : SearchConfig} {m : Marking} {s : Search}

/-- The counts on some places in the visited markings. -/
def countsOn (net : Net) (s : Search) (watched : Set (Fin net.places.length)) : Set Nat :=
  {n | ∃ M ∈ s.seen net, ∃ place ∈ watched, M place = n}

theorem rel_map {α β : Type} {relation : α → β → Prop} {f : α → β}
    (related : ∀ a, relation a (f a)) (a : Option α) : Option.Rel relation a (a.map f) := by
  cases a with
  | none => exact .none
  | some a => exact .some (related a)

namespace Finished

variable (finished : s.Finished net c m)
include finished

theorem mem_upperBounds_countsOn {watched : Set (Fin net.places.length)} {bound : Nat} :
    bound ∈ upperBounds (s.countsOn net watched) ↔
      ∀ i a, s.At i a → ∀ place ∈ watched, (a.marking.tokens place.val).toNat ≤ bound := by
  constructor
  · intro above i a found place member
    exact above ⟨_, finished.mem_seen.mpr ⟨i, a, found, rfl⟩, place, member, rfl⟩
  · rintro all n ⟨M, seen, place, member, rfl⟩
    obtain ⟨i, a, found, rfl⟩ := finished.mem_seen.mp seen
    exact all i a found place member

theorem isLUB_maximumAt (place : Fin net.places.length) :
    IsLUB (s.countsOn net {place}) (s.maximumAt place).toNat := by
  apply isLUB_iff_le_iff.mpr
  intro bound
  rw [finished.mem_upperBounds_countsOn, maximumAt_le_iff]
  simp

theorem isLUB_minimalKObserved {k : Option Count} :
    IsLUB (s.countsOn net .univ) (s.findings net k).minimalKObserved.toNat := by
  apply isLUB_iff_le_iff.mpr
  intro bound
  rw [finished.mem_upperBounds_countsOn, minimalKObserved_le_iff]
  simp only [Set.mem_univ, true_implies, Fin.forall_iff]

variable (wellFormed : net.WellFormed)
include wellFormed

theorem exists_dead (deadlocked : s.deadlock?.isSome = true) :
    ∃ M, net.Reachable (net.tokensOf m) M ∧ ∀ t, ¬ net.Enables M t := by
  obtain ⟨i, a, found, none⟩ := finished.deadlock?_isSome_iff.mp deadlocked
  exact ⟨_, finished.reachable wellFormed (finished.mem_seen.mpr ⟨i, a, found, rfl⟩),
    wellFormed.deadlock_iff.mp none⟩

variable (size : m.size = net.places.length)
include size

/-- A verdict on the largest count that was seen is sound in the unbounded game. -/
theorem forBound_sound {watched : Set (Fin net.places.length)} {observed : Count}
    (most : IsLUB (s.countsOn net watched) observed.toNat) (threshold : Count) :
    (Verdict.forBound observed threshold (!s.hitLimits)).Sound net (net.tokensOf m)
      s.hitLimits watched threshold.toNat := by
  cases verdict : Verdict.forBound observed threshold (!s.hitLimits) with
  | yes =>
    obtain ⟨below, complete⟩ := Verdict.forBound_eq_yes_iff.mp verdict
    have lossless : s.hitLimits = false := by simpa using complete
    intro M reachable place member
    have seen := (finished.mem_seen_iff_reachable wellFormed size lossless).mpr reachable
    exact (isLUB_le_iff most).mp below ⟨M, seen, place, member, rfl⟩
  | no =>
    have above := Verdict.forBound_eq_no_iff.mp verdict
    obtain ⟨_, ⟨M, seen, place, member, rfl⟩, large⟩ := (lt_isLUB_iff most).mp above
    exact ⟨M, finished.reachable wellFormed seen, place, member, large⟩
  | unknown =>
    cases limited : s.hitLimits with
    | true => rfl
    | false => exact absurd verdict (Verdict.forBound_ne_unknown (by simp [limited]))

theorem placeVerdict_sound (k : Option Count) (place : Fin net.places.length) :
    ∃ v, (s.findings net k).placeVerdicts[place.val]? = some v ∧
      v.place = net.places[place].id ∧
      Option.Rel (fun k v => Verdict.Sound net (net.tokensOf m) s.hitLimits {place} k.toNat v)
        k v.kBounded ∧
      v.safe.Sound net (net.tokensOf m) s.hitLimits {place} 1 := by
  have sound := finished.forBound_sound wellFormed size (finished.isLUB_maximumAt place)
  refine ⟨Boundedness.ofPlace k (!s.hitLimits) net.places[place] (s.maximumAt place), ?_, rfl, ?_,
    sound Boundedness.safeThreshold⟩
  · simp [placeVerdicts_findings]
  · exact rel_map sound k

/-- The least bound that was seen is the greatest count of the unbounded game, if
the search has seen all of it. -/
theorem isGreatest_minimalKObserved {k : Option Count} (lossless : s.hitLimits = false)
    (inhabited : net.places ≠ []) :
    IsGreatest {n | ∃ M, net.Reachable (net.tokensOf m) M ∧ ∃ place, M place = n}
      (s.findings net k).minimalKObserved.toNat := by
  have same : s.countsOn net .univ =
      {n | ∃ M, net.Reachable (net.tokensOf m) M ∧ ∃ place, M place = n} := by
    ext n
    simp [countsOn, finished.mem_seen_iff_reachable wellFormed size lossless]
  rw [← same]
  have most := finished.isLUB_minimalKObserved (k := k)
  have first : Fin net.places.length := ⟨0, List.length_pos_of_ne_nil inhabited⟩
  have nonempty : (s.countsOn net .univ).Nonempty :=
    ⟨_, _, finished.mem_seen.mpr ⟨0, _, finished.start, rfl⟩, first, trivial, rfl⟩
  -- a least upper bound of natural numbers is one of them, if there are any
  have attained := Nat.sSup_mem nonempty ⟨_, most.1⟩
  rw [most.csSup_eq nonempty] at attained
  exact ⟨attained, most.1⟩

theorem alive_of_lossless (deadlocked : s.deadlock?.isSome = false)
    (lossless : s.hitLimits = false) {M : net.Tokens}
    (reachable : net.Reachable (net.tokensOf m) M) : ∃ t, net.Enables M t := by
  have seen := (finished.mem_seen_iff_reachable wellFormed size lossless).mpr reachable
  obtain ⟨i, a, found, rfl⟩ := finished.mem_seen.mp seen
  by_contra none
  have dead := wellFormed.deadlock_iff.mpr (not_exists.mp none)
  rw [finished.deadlock?_isSome_iff.mpr ⟨i, a, found, dead⟩] at deadlocked
  cases deadlocked

theorem findings_sound (k : Option Count) :
    (s.findings net k).Sound net (net.tokensOf m) k := by
  have sound := finished.forBound_sound wellFormed size (finished.isLUB_minimalKObserved (k := k))
  have bound : (s.findings net k).bound =
      if !s.hitLimits then some (s.findings net k).minimalKObserved else none := rfl
  constructor
  · rw [isKBounded_findings]
    exact rel_map sound k
  · rw [isSafe_findings]
    exact sound Boundedness.safeThreshold
  · simp [placeVerdicts_findings]
  · exact finished.placeVerdict_sound wellFormed size k
  · intro b known inhabited
    obtain ⟨lossless, rfl⟩ : s.hitLimits = false ∧ (s.findings net k).minimalKObserved = b := by
      simpa [bound] using known
    exact finished.isGreatest_minimalKObserved wellFormed size lossless inhabited
  · intro b known none
    obtain ⟨_, rfl⟩ : s.hitLimits = false ∧ (s.findings net k).minimalKObserved = b := by
      simpa [bound] using known
    rw [minimalKObserved_findings, none]
    rfl
  · intro unknown
    have limited : s.hitLimits = true := by simpa [bound] using unknown
    exact limited
  · exact finished.exists_dead wellFormed
  · exact fun deadlocked lossless M => finished.alive_of_lossless wellFormed size deadlocked lossless

end Finished

end Search

namespace Net

open Search

/-- The report of an exploration is true of the unbounded game, under any limits. -/
theorem explore_sound {model : Model} {net : Net} (compiled : ofModel model = .ok net)
    {c : SearchConfig} (depth : 1 ≤ c.maxDepth) (states : 1 ≤ c.maxStates) {m : Marking}
    (size : m.size = net.places.length) :
    ∃ f, net.explore c m = .ok f ∧ f.Sound net (net.tokensOf m) c.k := by
  have wellFormed := wellFormed_of_ofModel compiled
  obtain ⟨s, _, finished, explored⟩ :=
    search_finishes wellFormed (SearchConfig.validate_ok_iff.mpr ⟨depth, states⟩) size
  exact ⟨_, explored, finished.findings_sound wellFormed size c.k⟩

theorem explore_sound_transfer :
    ∃ f, transfer.explore { k := some 1, maxDepth := 1, maxStates := 2 } (.ofList [2, 0]) = .ok f ∧
      f.Sound transfer (transfer.tokensOf (.ofList [2, 0])) (some 1) :=
  explore_sound (c := { k := some 1, maxDepth := 1, maxStates := 2 }) ofModel_transfer
    (by decide) (by decide) (m := .ofList [2, 0]) rfl

end Net

end TokenGame
