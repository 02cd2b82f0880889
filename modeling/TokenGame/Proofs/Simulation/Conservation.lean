import TokenGame.Proofs.Net.StateEquation
import TokenGame.Proofs.Search.Renumbered
import TokenGame.Proofs.Simulation.Exhaustive

/-! The state equation of a net, and what follows from it for explorations and sessions:
whatever they come to, they come to by firings, so a conserved weighting has the value of
the start everywhere. -/
namespace TokenGame

theorem Session.Consistent.of_ofModel {model : Model} {random : Random} {s : Session}
    (opened : Session.ofModel model random = .ok s) : s.Consistent := by
  cases compiled : Net.ofModel model with
  | error cause => simp [Session.ofModel, compiled] at opened
  | ok net =>
    obtain ⟨_, same, consistent, _⟩ := Session.Consistent.ofModel compiled random
    exact Except.ok.inj (same.symm.trans opened) ▸ consistent

namespace Net

variable {net : Net} {y : Fin net.places.length → Int}

theorem WellFormed.weigh_visit (wellFormed : net.WellFormed) (conserves : net.Conserves y)
    {c : SearchConfig} {m : Marking} {s : Search} (finished : s.Finished net c m) {v : Visit}
    (visited : v ∈ s.visits) : net.weigh y v.marking = net.weigh y m := by
  obtain ⟨i, a, found, rfl⟩ := finished.mem_visits.mp visited
  exact wellFormed.weigh_fireAll conserves (finished.pathTo_fires found).2

theorem weigh_entry (conserves : net.Conserves y) {s : Session} (on : s.On net) {e : Entry}
    (member : e ∈ s.history.entries) : net.weigh y e.marking = net.weigh y net.initialMarking := by
  obtain ⟨consistent, rfl⟩ := on
  have wellFormed := wellFormed_of_ofModel consistent.compiled
  obtain ⟨i, found⟩ := Array.mem_iff_getElem?.mp member
  refine consistent.replays.invariant
    (fun x => s.net.weigh y x = s.net.weigh y s.net.initialMarking) ?_ ?_ found
  · rw [consistent.initial]
  · intro x id x' same fires
    obtain ⟨t, _, fired⟩ := fire_ok_iff.mp fires
    exact (wellFormed.weigh_fireTransition conserves fired).trans same

/-- A sequence of firings changes a place by the effects of its transitions, each taken as
often as it occurs. So the order of the firings does not matter for where they end, and a
weighting that every transition conserves has one value on all markings that an exploration
visits, and one value on all markings in the history of a session from one edit to the next. -/
theorem state_equation {model : Model} {net : Net} (compiled : ofModel model = .ok net) :
    (∀ (m : Marking) (ts : List Nat) (next : Marking), m.size = net.places.length →
      net.fireAll m ts = .ok next → ∀ place, place < net.places.length →
        ((next.tokens place).toNat : Int) = (m.tokens place).toNat +
          ∑ t : Fin net.transitions.length, (ts.count t.val : Int) *
            ((net.outputWeight place t).toNat - (net.inputWeight place t).toNat)) ∧
    (∀ (m : Marking) (ts us : List Nat) (next other : Marking), m.size = net.places.length →
      ts.Perm us → net.fireAll m ts = .ok next → net.fireAll m us = .ok other → next = other) ∧
    ∀ y : Fin net.places.length → Int, net.Conserves y →
      (∀ (c : SearchConfig) (m : Marking), c.validate = .ok () → m.size = net.places.length →
        ∃ s, net.search c m = .ok s ∧ ∀ v ∈ s.visits, net.weigh y v.marking = net.weigh y m) ∧
      ∀ (start : Model) (random : Random) (fresh : Session) (operations : List Session.Operation),
        Session.ofModel start random = .ok fresh → (fresh.performAll operations).net = net →
        ∀ (moves : List Session.Move),
          ∀ e ∈ ((fresh.performAll operations).playAll moves).history.entries,
            net.weigh y e.marking = net.weigh y (fresh.performAll operations).initial := by
  have wellFormed := wellFormed_of_ofModel compiled
  refine ⟨?_, ?_, fun y conserves => ⟨?_, ?_⟩⟩
  · intro m ts next _ fired place _
    rw [wellFormed.tokens_fireAll fired, sum_map_eq_sum_count fun t => lt_of_fireAll fired]
    rfl
  · intro m ts us next other size shuffled fired fired'
    exact wellFormed.fireAll_perm size shuffled fired fired'
  · intro c m config size
    obtain ⟨s, searched, finished, _⟩ := search_finishes wellFormed config size
    exact ⟨s, searched, fun v visited => wellFormed.weigh_visit conserves finished visited⟩
  · intro start random fresh operations opened same moves e member
    have consistent := (Session.Consistent.of_ofModel opened).performAll operations
    have on : (fresh.performAll operations).On net := ⟨consistent, same⟩
    rw [weigh_entry conserves (on.playAll moves) member, consistent.initial, same]

/-- Two tokens that part, in either order, and a session that takes both ways of one token. -/
theorem state_equation_fork :
    (∃ next, fork.fireAll (.ofList [2, 0, 0]) [0, 1] = .ok next ∧
      fork.fireAll (.ofList [2, 0, 0]) [1, 0] = .ok next ∧
      ((next.tokens 0).toNat : Int) = 2 + ∑ t : Fin 2, (([0, 1] : List Nat).count t.val : Int) *
        ((fork.outputWeight 0 t).toNat - (fork.inputWeight 0 t).toNat)) ∧
    fork.Conserves (fun _ => 1) ∧
    ∃ s fresh, fork.search { maxDepth := 1, maxStates := 2 } (.ofList [2, 0, 0]) = .ok s ∧
      (∀ v ∈ s.visits, fork.weigh (fun _ => 1) v.marking = 2) ∧
      Session.ofModel forkModel (.ofSeed 7) = .ok fresh ∧
      ∀ e ∈ (fresh.playAll [.run 3, .goto 0, .fire "goRight"]).history.entries,
        fork.weigh (fun _ => 1) e.marking = 1 := by
  have compiled : ofModel forkModel = .ok fork := rfl
  have conserves : fork.Conserves (fun _ => 1) := by
    unfold Conserves
    decide
  obtain ⟨counts, order, weighs⟩ := state_equation compiled
  obtain ⟨visited, recorded⟩ := weighs _ conserves
  obtain ⟨next, fired⟩ : ∃ next, fork.fireAll (.ofList [2, 0, 0]) [0, 1] = .ok next := ⟨_, rfl⟩
  obtain ⟨last, fired'⟩ : ∃ next, fork.fireAll (.ofList [2, 0, 0]) [1, 0] = .ok next := ⟨_, rfl⟩
  obtain rfl := order _ [0, 1] [1, 0] _ _ rfl (.swap ..) fired fired'
  obtain ⟨s, searched, visits⟩ :=
    visited { maxDepth := 1, maxStates := 2 } (.ofList [2, 0, 0]) rfl rfl
  obtain ⟨fresh, opened, consistent, same, _⟩ := Session.Consistent.ofModel compiled (.ofSeed 7)
  refine ⟨⟨next, fired, fired', counts _ _ _ rfl fired 0 (by decide)⟩, conserves, s, fresh,
    searched, fun v member => ?_, opened, fun e member => ?_⟩
  · rw [visits v member]
    rfl
  · have weight := recorded forkModel (.ofSeed 7) fresh [] opened same _ e member
    rw [show (fresh.performAll []).initial = fork.initialMarking from
      same ▸ consistent.initial] at weight
    exact weight

end Net

end TokenGame
