import Mathlib.Data.UInt
import TokenGame.Marking

/-! Running maxima, of depths and of counts. A maximum is known by the numbers that
bound it from above and by the term that attains it; counts are compared through
their exact values. -/
namespace TokenGame

/-- What bounds a running maximum bounds its start and every term. -/
theorem foldl_max_le_iff {α : Type} (f : α → Nat) (xs : List α) (start bound : Nat) :
    xs.foldl (fun most x => max most (f x)) start ≤ bound ↔
      start ≤ bound ∧ ∀ x ∈ xs, f x ≤ bound := by
  induction xs generalizing start with
  | nil => simp
  | cons x rest ih =>
    rw [List.foldl_cons, ih, Nat.max_le, List.forall_mem_cons, and_assoc]

theorem foldl_max_attained {α : Type} (f : α → Nat) (xs : List α) (start : Nat) :
    xs.foldl (fun most x => max most (f x)) start = start ∨
      ∃ x ∈ xs, f x = xs.foldl (fun most x => max most (f x)) start := by
  induction xs generalizing start with
  | nil => exact .inl rfl
  | cons x rest ih =>
    rw [List.foldl_cons]
    rcases ih (max start (f x)) with first | ⟨y, member, attained⟩
    · rcases Nat.le_total start (f x) with below | above
      · rw [Nat.max_eq_right below] at first ⊢
        exact .inr ⟨x, .head rest, first.symm⟩
      · rw [Nat.max_eq_left above] at first ⊢
        exact .inl first
    · exact .inr ⟨y, .tail x member, attained⟩

namespace Count

theorem toNat_foldl_max {α : Type} (f : α → Count) (xs : List α) (start : Count) :
    (xs.foldl (fun most x => max most (f x)) start).toNat =
      xs.foldl (fun most x => max most (f x).toNat) start.toNat := by
  induction xs generalizing start with
  | nil => rfl
  | cons x rest ih => rw [List.foldl_cons, List.foldl_cons, ih, UInt64.toNat_max]

theorem toNat_maximum_le_iff {counts : List Count} {bound : Nat} :
    (maximum counts).toNat ≤ bound ↔ ∀ n ∈ counts, n.toNat ≤ bound := by
  rw [maximum, toNat_foldl_max fun n => n, foldl_max_le_iff]
  simp

end Count

/-- A bound on the largest count is a bound on every place. -/
theorem Marking.toNat_maximum_le_iff {m : Marking} {bound : Nat} :
    m.maximum.toNat ≤ bound ↔ ∀ place, place < m.size → (m.tokens place).toNat ≤ bound := by
  rw [maximum, Count.toNat_maximum_le_iff]
  constructor
  · intro all place inside
    apply all
    have counted : m.counts[place]? = some (m.tokens place) := by
      simp [tokens, Array.getD_eq_getD_getElem?, show place < m.counts.size from inside]
    simpa [toList] using Array.mem_of_getElem? counted
  · intro all n member
    obtain ⟨place, inside, rfl⟩ := List.mem_iff_getElem.mp member
    have inside : place < m.counts.size := by simpa [toList] using inside
    simpa [tokens, toList, Array.getD_eq_getD_getElem?, inside] using all place inside

end TokenGame
