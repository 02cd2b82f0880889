import Mathlib.Data.List.Perm.Basic
import TokenGame.Proofs.Net.Unbounded

/-! More tokens never get in the way. A transition that is enabled stays enabled when tokens
are added, and a sequence that can be fired can be fired with the extra tokens lying by, as
long as every place has room for them all along. -/
namespace TokenGame

namespace Marking

variable {m : Marking} {extra : Nat → Nat}

/-- The marking with so many more tokens on each place, where there is room for them. -/
def plus (m : Marking) (extra : Nat → Nat) : Marking :=
  ⟨m.counts.mapIdx fun place count => (count.toNat + extra place).toUInt64⟩

@[simp] theorem size_plus (m : Marking) (extra : Nat → Nat) : (m.plus extra).size = m.size := by
  simp [plus, size]

theorem toNat_tokens_plus {place : Nat} (inside : place < m.size)
    (fits : (m.tokens place).toNat + extra place < Count.limit) :
    ((m.plus extra).tokens place).toNat = (m.tokens place).toNat + extra place := by
  have bound : place < m.counts.size := inside
  have count : (m.plus extra).tokens place =
      ((m.tokens place).toNat + extra place).toUInt64 := by
    simp [plus, tokens, Array.getD_eq_getD_getElem?, bound]
  rw [count]
  exact UInt64.toNat_ofNat_of_lt fits

end Marking

namespace Net

variable {net : Net} {m n next : Marking} {t : Nat} {ts : List Nat} {extra : Nat → Nat}

/-- The markings that firing transitions one after the other goes through, the first and the
last included. -/
def stages (net : Net) (m : Marking) (ts : List Nat) : Except FireError (List Marking) :=
  ts.scanlM net.fireTransition m

/-- Every place has room for so many more tokens. -/
def Fits (net : Net) (extra : Nat → Nat) (m : Marking) : Prop :=
  ∀ place, place < net.places.length → (m.tokens place).toNat + extra place < Count.limit

instance : Decidable (net.Fits extra m) :=
  inferInstanceAs (Decidable (∀ place, place < net.places.length →
    (m.tokens place).toNat + extra place < Count.limit))

theorem stages_cons_ok {ms : List Marking} : net.stages m (t :: ts) = .ok ms ↔
    ∃ next later, net.fireTransition m t = .ok next ∧ net.stages next ts = .ok later ∧
      ms = m :: later := by
  simp only [stages, List.scanlM_cons, bind, Except.bind, pure, Except.pure]
  cases net.fireTransition m t with
  | error cause => simp
  | ok next => cases later : ts.scanlM net.fireTransition next <;> simp [later, eq_comm]

theorem mem_stages {ms : List Marking} (fired : net.stages m ts = .ok ms) : m ∈ ms := by
  cases ts with
  | nil =>
    cases fired
    exact List.mem_singleton_self m
  | cons t rest =>
    obtain ⟨_, later, _, _, rfl⟩ := stages_cons_ok.mp fired
    exact .head later

theorem WellFormed.isEnabled_mono (wellFormed : net.WellFormed)
    (more : ∀ place, place < net.places.length → m.tokens place ≤ n.tokens place)
    (enabled : net.isEnabled m t = true) : net.isEnabled n t = true := by
  have bound := isEnabled_lt enabled
  rw [← wellFormed.enables_iff ⟨t, bound⟩] at enabled ⊢
  intro place
  exact Nat.le_trans (enabled place) (UInt64.le_iff_toNat_le.mp (more place place.isLt))

/-- A firing leaves extra tokens where they are. -/
theorem WellFormed.fireTransition_plus (wellFormed : net.WellFormed)
    (fired : net.fireTransition m t = .ok next) (before : net.Fits extra m)
    (after : net.Fits extra next) :
    net.fireTransition (m.plus extra) t = .ok (next.plus extra) := by
  obtain ⟨size, enabled⟩ := fireTransition_ok fired
  obtain ⟨nextSize, counts⟩ := wellFormed.fireTransition_counts fired
  have size' : (m.plus extra).size = net.places.length := by rw [Marking.size_plus, size]
  have tokens : ∀ place, place < net.places.length →
      ((m.plus extra).tokens place).toNat = (m.tokens place).toNat + extra place :=
    fun place inside => Marking.toNat_tokens_plus (size ▸ inside) (before place inside)
  have enabled' : net.isEnabled (m.plus extra) t = true := by
    refine wellFormed.isEnabled_mono (fun place inside => ?_) enabled
    rw [UInt64.le_iff_toNat_le, tokens place inside]
    exact Nat.le_add_right ..
  -- what is taken was there without the extra tokens, so they come through unchanged
  have moved : ∀ place, place < net.places.length →
      net.firedCount (m.plus extra) t place = (next.tokens place).toNat + extra place := by
    intro place inside
    have held := UInt64.le_iff_toNat_le.mp ((wellFormed.isEnabled_iff.mp enabled).2 place)
    rw [counts place, firedCount, firedCount, tokens place inside]
    omega
  cases fired' : net.fireTransition (m.plus extra) t with
  | error cause =>
    obtain ⟨place, inside, _, full⟩ := wellFormed.fireTransition_overflow size' enabled' fired'
    rw [moved place inside] at full
    exact absurd (after place inside) (Nat.not_lt.mpr full)
  | ok other =>
    obtain ⟨otherSize, otherCounts⟩ := wellFormed.fireTransition_counts fired'
    have same : other = next.plus extra := by
      refine Marking.ext_tokens (by rw [otherSize, Marking.size_plus, nextSize]) fun place inside => ?_
      rw [otherSize] at inside
      rw [← UInt64.toNat_inj, otherCounts place, moved place inside,
        Marking.toNat_tokens_plus (nextSize ▸ inside) (after place inside)]
    rw [same]

theorem WellFormed.stages_plus (wellFormed : net.WellFormed) {ms : List Marking}
    (fired : net.stages m ts = .ok ms) (fits : ∀ x ∈ ms, net.Fits extra x) :
    net.stages (m.plus extra) ts = .ok (ms.map (·.plus extra)) := by
  induction ts generalizing m ms with
  | nil =>
    cases fired
    rfl
  | cons t rest ih =>
    obtain ⟨next, later, first, others, rfl⟩ := stages_cons_ok.mp fired
    rw [List.forall_mem_cons] at fits
    have step := wellFormed.fireTransition_plus first fits.1 (fits.2 next (mem_stages others))
    exact stages_cons_ok.mpr ⟨_, _, step, ih others fits.2, rfl⟩

/-- A sequence that succeeds from a marking succeeds from the marking with extra tokens, and
goes through the same markings with the extra tokens added, if all of these fit. What is
enabled stays enabled at larger markings. -/
theorem firing_monotone {model : Model} (compiled : ofModel model = .ok net) :
    (∀ m ts ms extra, net.stages m ts = .ok ms → (∀ x ∈ ms, net.Fits extra x) →
      net.stages (m.plus extra) ts = .ok (ms.map (·.plus extra))) ∧
    ∀ m n, (∀ place, place < net.places.length → m.tokens place ≤ n.tokens place) →
      ∀ t, net.isEnabled m t = true → net.isEnabled n t = true := by
  have wellFormed := wellFormed_of_ofModel compiled
  constructor
  · intro m ts ms extra fired fits
    exact wellFormed.stages_plus fired fits
  · intro m n more t enabled
    exact wellFormed.isEnabled_mono more enabled

/-- The second place is full to the brim in the end. -/
theorem firing_monotone_transfer :
    transfer.stages (.ofList [1, 0]) [0] = .ok [.ofList [1, 0], .ofList [0, 1]] ∧
      transfer.stages (.ofList [6, 18446744073709551614]) [0] =
        .ok [.ofList [6, 18446744073709551614], .ofList [5, 18446744073709551615]] ∧
      transfer.isEnabled (.ofList [6, 18446744073709551614]) 0 = true := by
  have fired : transfer.stages (.ofList [1, 0]) [0] = .ok [.ofList [1, 0], .ofList [0, 1]] := rfl
  obtain ⟨sequences, larger⟩ := firing_monotone ofModel_transfer
  refine ⟨fired, ?_, larger (.ofList [1, 0]) _ (by decide) 0 (by decide)⟩
  exact sequences (.ofList [1, 0]) [0] _
    (fun place => if place = 0 then 5 else 18446744073709551614) fired (by decide)

end Net

end TokenGame
