import TokenGame.Proofs.Boundedness
import TokenGame.Proofs.Search.BreadthFirst

/-! The findings of a search through its states. Every verdict is a verdict on one
count: the most tokens seen on a place, or the most seen on any place. -/
namespace TokenGame

namespace Search

variable (net : Net) (k : Option Count) (s : Search)

theorem placeVerdicts_findings : (s.findings net k).placeVerdicts =
    net.places.mapIdx fun i place =>
      Boundedness.ofPlace k (!s.hitLimits) place (s.maximumAt i) := by
  apply List.ext_getElem
  · simp [findings, Boundedness.summarize]
  · intro i left right
    have inside : i < net.places.length := by simpa using right
    simp [findings, Boundedness.summarize, List.getD_eq_getElem?_getD, inside]

theorem isSafe_findings : (s.findings net k).isSafe =
    .forBound (s.findings net k).minimalKObserved Boundedness.safeThreshold (!s.hitLimits) :=
  Boundedness.isSafe_summarize ..

theorem isKBounded_findings : (s.findings net k).isKBounded =
    k.map (.forBound (s.findings net k).minimalKObserved · (!s.hitLimits)) :=
  Boundedness.isKBounded_summarize ..

theorem minimalKObserved_findings : (s.findings net k).minimalKObserved =
    Count.maximum ((List.range net.places.length).map s.maximumAt) := by
  have seen : (s.findings net k).placeVerdicts.map (·.maxTokens) =
      (List.range net.places.length).map s.maximumAt := by
    rw [placeVerdicts_findings]
    apply List.ext_getElem <;> simp [Boundedness.ofPlace]
  rw [← seen]
  rfl

variable {net k s}

theorem minimalKObserved_le_iff {bound : Nat} :
    (s.findings net k).minimalKObserved.toNat ≤ bound ↔
      ∀ i a, s.At i a → ∀ place, place < net.places.length →
        (a.marking.tokens place).toNat ≤ bound := by
  rw [minimalKObserved_findings, Count.toNat_maximum_le_iff]
  simp only [List.forall_mem_map, List.mem_range, maximumAt_le_iff]
  exact ⟨fun all i a found place inside => all place inside i a found,
    fun all place inside i a found => all i a found place inside⟩

end Search

end TokenGame
