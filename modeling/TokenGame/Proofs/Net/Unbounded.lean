import TokenGame.Proofs.Net.Firing

/-! The token game over natural numbers, with no upper limit on a count. It is the
reference for what an analysis says about a net: every firing of the net is one of
its moves, and a move is lost only where some exact count is no word. -/
namespace TokenGame

namespace Net

/-- Token counts by place, without a limit. -/
abbrev Tokens (net : Net) : Type := Fin net.places.length → Nat

/-- The exact counts of a marking. -/
def tokensOf (net : Net) (m : Marking) : net.Tokens := fun place => (m.tokens place).toNat

/-- Every place holds what the transition takes from it. -/
def Enables (net : Net) (M : net.Tokens) (t : Fin net.transitions.length) : Prop :=
  ∀ place : Fin net.places.length, (net.inputWeight place t).toNat ≤ M place

/-- The counts after a transition has moved its tokens. -/
def moved (net : Net) (M : net.Tokens) (t : Fin net.transitions.length) : net.Tokens :=
  fun place => M place - (net.inputWeight place t).toNat + (net.outputWeight place t).toNat

/-- The firing sequences of the unbounded game. -/
inductive Moves (net : Net) :
    net.Tokens → List (Fin net.transitions.length) → net.Tokens → Prop where
  | nil {M : net.Tokens} : Moves net M [] M
  | cons {M final : net.Tokens} {t : Fin net.transitions.length}
      {ts : List (Fin net.transitions.length)} : net.Enables M t →
      Moves net (net.moved M t) ts final → Moves net M (t :: ts) final

def Reachable (net : Net) (M final : net.Tokens) : Prop := ∃ ts, net.Moves M ts final

variable {net : Net}

theorem Moves.concat {M middle : net.Tokens} {ts : List (Fin net.transitions.length)}
    {t : Fin net.transitions.length} (path : net.Moves M ts middle)
    (enabled : net.Enables middle t) : net.Moves M (ts ++ [t]) (net.moved middle t) := by
  induction path with
  | nil => exact .cons enabled .nil
  | cons first _ ih => exact .cons first (ih enabled)

theorem Reachable.refl (M : net.Tokens) : net.Reachable M M := ⟨[], .nil⟩

theorem Reachable.move {M middle : net.Tokens} {t : Fin net.transitions.length}
    (reachable : net.Reachable M middle) (enabled : net.Enables middle t) :
    net.Reachable M (net.moved middle t) := by
  obtain ⟨ts, path⟩ := reachable
  exact ⟨ts ++ [t], path.concat enabled⟩

/-- What every move preserves holds of everything reachable. -/
theorem Reachable.invariant {property : net.Tokens → Prop}
    (preserved : ∀ M t, property M → net.Enables M t → property (net.moved M t))
    {M final : net.Tokens} (reachable : net.Reachable M final) (initial : property M) :
    property final := by
  obtain ⟨ts, path⟩ := reachable
  induction path with
  | nil => exact initial
  | cons enabled _ ih => exact ih (preserved _ _ initial enabled)

theorem tokensOf_lt (m : Marking) (place : Fin net.places.length) :
    net.tokensOf m place < Count.limit := Count.toNat_lt_limit _

theorem tokensOf_injective {m n : Marking} (left : m.size = net.places.length)
    (right : n.size = net.places.length) (same : net.tokensOf m = net.tokensOf n) : m = n := by
  apply Marking.ext_tokens (left.trans right.symm)
  intro place inside
  exact UInt64.toNat_inj.mp (congrFun same ⟨place, left ▸ inside⟩)

variable {m next : Marking}

theorem WellFormed.enables_iff (wellFormed : net.WellFormed) (t : Fin net.transitions.length) :
    net.Enables (net.tokensOf m) t ↔ net.isEnabled m t = true := by
  rw [wellFormed.isEnabled_iff]
  constructor
  · intro held
    refine ⟨t.isLt, fun place => ?_⟩
    by_cases inside : place < net.places.length
    · exact UInt64.le_iff_toNat_le.mpr (held ⟨place, inside⟩)
    · have absent : net.inputWeight place t = 0 := by
        apply Link.weightOf_absent
        intro l member same
        exact inside (same ▸ (wellFormed.proper t).inputs.inside l member)
      rw [absent]
      exact UInt64.zero_le
  · rintro ⟨_, held⟩ place
    exact UInt64.le_iff_toNat_le.mp (held place)

/-- Deadlock means the same in both games. -/
theorem WellFormed.deadlock_iff (wellFormed : net.WellFormed) :
    net.enabledTransitions m = [] ↔ ∀ t, ¬ net.Enables (net.tokensOf m) t := by
  rw [List.eq_nil_iff_forall_not_mem]
  constructor
  · intro none t enabled
    exact none t (mem_enabledTransitions.mpr ((wellFormed.enables_iff t).mp enabled))
  · intro none t member
    have enabled := mem_enabledTransitions.mp member
    exact none ⟨t, isEnabled_lt enabled⟩ ((wellFormed.enables_iff _).mpr enabled)

/-- Every successful firing is a move. -/
theorem WellFormed.move_of_fire (wellFormed : net.WellFormed) {t : Nat}
    (fired : net.fireTransition m t = .ok next) :
    ∃ move : Fin net.transitions.length, net.Enables (net.tokensOf m) move ∧
      net.tokensOf next = net.moved (net.tokensOf m) move := by
  obtain ⟨size, enabled⟩ := fireTransition_ok fired
  refine ⟨⟨t, isEnabled_lt enabled⟩, (wellFormed.enables_iff _).mpr enabled, ?_⟩
  funext place
  exact (wellFormed.fireTransition_counts fired).2 place

/-- A move is a firing, or it leads to a count that is no word. -/
theorem WellFormed.fire_of_move (wellFormed : net.WellFormed)
    (size : m.size = net.places.length) {t : Fin net.transitions.length}
    (enabled : net.Enables (net.tokensOf m) t) :
    (∃ next, net.fireTransition m t = .ok next ∧
      net.tokensOf next = net.moved (net.tokensOf m) t) ∨
    (∃ name, net.fireTransition m t = .error (.tokenOverflow name) ∧
      ∃ place, Count.limit ≤ net.moved (net.tokensOf m) t place) := by
  have canFire := (wellFormed.enables_iff t).mp enabled
  cases fired : net.fireTransition m t with
  | ok next =>
    refine .inl ⟨next, rfl, funext fun place => ?_⟩
    exact (wellFormed.fireTransition_counts fired).2 place
  | error cause =>
    obtain ⟨place, inside, rfl, full⟩ := wellFormed.fireTransition_overflow size canFire fired
    exact .inr ⟨_, rfl, ⟨place, inside⟩, full⟩

theorem WellFormed.moves_of_reachesIn (wellFormed : net.WellFormed) {n : Nat}
    (reached : net.ReachesIn m n next) :
    ∃ ts, ts.length = n ∧ net.Moves (net.tokensOf m) ts (net.tokensOf next) := by
  induction n generalizing next with
  | zero => exact ⟨[], rfl, reachesIn_zero.mp reached ▸ .nil⟩
  | succ n ih =>
    obtain ⟨middle, t, before, fired⟩ := reachesIn_succ.mp reached
    obtain ⟨ts, rfl, path⟩ := ih before
    obtain ⟨move, enabled, after⟩ := wellFormed.move_of_fire fired
    exact ⟨ts ++ [move], by simp, after ▸ path.concat enabled⟩

/-- Where no reachable count leaves the words, every move sequence can be fired. -/
theorem WellFormed.reachesIn_of_moves (wellFormed : net.WellFormed)
    (size : m.size = net.places.length)
    (words : ∀ M, net.Reachable (net.tokensOf m) M → ∀ place, M place < Count.limit)
    {ts : List (Fin net.transitions.length)} {final : net.Tokens}
    (path : net.Moves (net.tokensOf m) ts final) :
    ∃ next, net.ReachesIn m ts.length next ∧ net.tokensOf next = final := by
  suffices ∃ next, net.fireAll m (ts.map Fin.val) = .ok next ∧ net.tokensOf next = final by
    obtain ⟨next, fired, same⟩ := this
    exact ⟨next, ⟨ts.map Fin.val, by simp, fired⟩, same⟩
  generalize start : net.tokensOf m = M at path words
  induction path generalizing m with
  | nil => exact ⟨m, rfl, start⟩
  | @cons M final t ts enabled rest ih =>
    subst start
    have here := (Reachable.refl (net.tokensOf m)).move enabled
    rcases wellFormed.fire_of_move size enabled with
      ⟨next, fired, after⟩ | ⟨_, _, place, full⟩
    · obtain ⟨last, later, same⟩ := ih (wellFormed.fireTransition_counts fired).1 after <| by
        rintro N ⟨us, further⟩
        exact words N ⟨t :: us, .cons enabled further⟩
      exact ⟨last, fireAll_cons_ok.mpr ⟨next, fired, later⟩, same⟩
    · exact absurd (words _ here place) (Nat.not_lt.mpr full)

end Net

end TokenGame
