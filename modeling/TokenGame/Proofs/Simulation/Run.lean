import TokenGame.Proofs.Net.Arcs
import TokenGame.Proofs.Simulation.Failure

/-! What a run comes to. It fires random steps one after the other and records them from the
cursor on, and it ends when all steps are taken, where nothing is enabled, or where a firing
fails. Nothing is drawn where nothing is enabled, so a run can be cut in two at any step. -/
namespace TokenGame

namespace Net

variable {net : Net} {m : Marking} {id : String} {ids : List String}

/-- The entries that record firings one after the other from a marking and a time on. -/
def record (net : Net) : Marking → Nat → List String → Except FireError (List Entry)
  | _, _, [] => .ok []
  | m, time, id :: ids => do
    let next ← net.fire m id
    return ⟨some id, next, time⟩ :: (← net.record next (time + 1) ids)

theorem record_cons {next : Marking} {time : Nat} {later : List Entry}
    (first : net.fire m id = .ok next) (others : net.record next (time + 1) ids = .ok later) :
    net.record m time (id :: ids) = .ok (⟨some id, next, time⟩ :: later) := by
  simp only [record, first, others, bind, Except.bind, pure, Except.pure]

/-- On markings of the right length, what is enabled fails only for want of room. -/
theorem WellFormed.fire_enabledIds (wellFormed : net.WellFormed)
    (size : m.size = net.places.length) (member : id ∈ net.enabledIds m) {cause : FireError}
    (failed : net.fire m id = .error cause) : ∃ place, cause = .tokenOverflow place := by
  obtain ⟨t, enabled, rfl⟩ := List.mem_map.mp member
  have enabled := mem_enabledTransitions.mp enabled
  rw [wellFormed.fire_transitionName (isEnabled_lt enabled)] at failed
  obtain ⟨place, _, full, _⟩ := wellFormed.fireTransition_overflow size enabled failed
  exact ⟨_, full⟩

end Net

namespace History

variable {h next : History}

/-- The history after entries are added one after the other. Without any it stays as it is,
with what follows the cursor; otherwise they follow the current entry, and the last one is
the current one then. -/
def extend (h : History) : List Entry → History
  | [] => h
  | e :: rest => ⟨(h.trail ++ e :: rest).toArray, some (h.trail.length + rest.length)⟩

theorem extend_append (inside : ∀ c, h.cursor = some c → c < h.size) {fired : String} {m : Marking}
    {time : Nat} (added : h.append fired m time = .ok next) (rest : List Entry) :
    next.extend rest = h.extend (⟨some fired, m, time⟩ :: rest) := by
  cases rest with
  | nil => exact append_trail inside added
  | cons e rest =>
    rw [extend, extend, trail_append inside added, List.append_assoc, List.singleton_append,
      List.length_append, List.length_singleton, List.length_cons, Nat.add_assoc, Nat.add_comm 1]

end History

/-- The summary of a run that goes on after some firings. -/
def RunSummary.after (before : List String) (later : RunSummary) : RunSummary :=
  { later with fired := before ++ later.fired }

namespace Session

variable {s s' : Session} {steps : Nat}

/-! ### Runs step by step -/

/-- How a run ends that goes on after some firings. -/
def resumed (before : List String) (ended : Except SessionError RunSummary × Session) :
    Except SessionError RunSummary × Session :=
  (ended.1.map (·.after before), ended.2)

@[simp] theorem resumed_of_ok (before : List String) (later : RunSummary) :
    resumed before (.ok later, s) = (.ok (later.after before), s) := rfl

variable {ended : Except SessionError RunSummary × Session}

@[simp] theorem resumed_nil : resumed [] ended = ended := by
  obtain ⟨outcome, s'⟩ := ended
  cases outcome <;> rfl

theorem resumed_append (before later : List String) :
    resumed (before ++ later) ended = resumed before (resumed later ended) := by
  obtain ⟨outcome, s'⟩ := ended
  cases outcome with
  | error cause => rfl
  | ok summary => simp only [resumed_of_ok, RunSummary.after, List.append_assoc]

theorem resumed_ok {before : List String} {summary : RunSummary}
    (done : resumed before ended = (.ok summary, s')) :
    ∃ later, ended = (.ok later, s') ∧ summary = later.after before := by
  obtain ⟨outcome, last⟩ := ended
  cases outcome with
  | error cause => cases done
  | ok later =>
    cases done
    exact ⟨later, rfl, rfl⟩

theorem resumed_error {before : List String} {cause : SessionError}
    (failed : resumed before ended = (.error cause, s')) : ended = (.error cause, s') := by
  obtain ⟨outcome, last⟩ := ended
  cases outcome with
  | error why =>
    cases failed
    rfl
  | ok later => cases failed

theorem run_zero (s : Session) : s.run 0 = (.ok ⟨[], s.isDeadlocked⟩, s) := rfl

theorem go_eq (steps : Nat) (s : Session) (ids : List String) :
    run.go steps s ids = resumed ids.reverse (s.run steps) := by
  induction steps generalizing s ids with
  | zero => rw [run_zero, resumed_of_ok, RunSummary.after, List.append_nil, run.go]
  | succ steps ih =>
    rw [run, run.go, run.go]
    cases s.stepRandom with
    | mk outcome next =>
      rcases outcome with cause | _ | id
      · rfl
      · simp only [resumed_of_ok, RunSummary.after, List.reverse_nil, List.append_nil]
      · simp only [ih, ← resumed_append, List.reverse_cons, List.reverse_nil, List.nil_append]

/-- A run takes a step and goes on from there. -/
theorem run_succ (s : Session) (steps : Nat) : s.run (steps + 1) =
    match s.stepRandom with
    | (.error cause, next) => (.error cause, next)
    | (.ok none, next) => (.ok ⟨[], true⟩, next)
    | (.ok (some id), next) => resumed [id] (next.run steps) := by
  rw [run, run.go]
  cases s.stepRandom with
  | mk outcome next =>
    rcases outcome with cause | _ | id
    · rfl
    · rfl
    · exact go_eq steps next [id]

/-- Where nothing is enabled a run changes nothing. -/
theorem run_idle (none : s.enabled = []) (steps : Nat) : s.run steps = (.ok ⟨[], true⟩, s) := by
  cases steps with
  | zero => rw [run_zero, isDeadlocked_iff.mpr none]
  | succ steps => rw [run_succ, stepRandom_of_enabled_nil none]

/-! ### What a run records -/

/-- What the summary of a run says about the sessions before and after it. -/
structure Ran (s : Session) (steps : Nat) (summary : RunSummary) (s' : Session) : Prop where
  fewer : summary.fired.length ≤ steps
  recorded : ∃ added, s.net.record s.marking s.clock summary.fired = .ok added ∧
    s'.history = s.history.extend added
  deadlocked : summary.deadlocked = true ↔ s'.net.enabledTransitions s'.marking = []
  early : summary.fired.length < steps → summary.deadlocked = true
  rest : s' = { s with
    history := s'.history, random := s'.random, clock := s.clock + summary.fired.length }

theorem isDeadlocked_iff_enabledTransitions :
    s.isDeadlocked = true ↔ s.net.enabledTransitions s.marking = [] := by
  simp [isDeadlocked, Net.isDeadlocked]

namespace Ran

variable {summary : RunSummary}

/-- No step is left, or none can be taken. -/
theorem idle (dead : summary = ⟨[], s.isDeadlocked⟩) (early : 0 < steps → s.enabled = []) :
    s.Ran steps summary s := by
  subst dead
  refine ⟨Nat.zero_le steps, ⟨[], rfl, rfl⟩, isDeadlocked_iff_enabledTransitions, ?_, rfl⟩
  exact fun more => isDeadlocked_iff.mpr (early more)

theorem step (inside : ∀ c, s.history.cursor = some c → c < s.history.size) {id : String}
    {random : Random} {middle : Session} (fires : { s with random }.fire id = .ok middle)
    (ran : middle.Ran steps summary s') : s.Ran (steps + 1) (summary.after [id]) s' := by
  obtain ⟨next, history, first, appended, rfl⟩ := fire_ok_iff.mp fires
  obtain ⟨added, later, kept⟩ := ran.recorded
  have here : { s with history, random, clock := s.clock + 1 }.marking = next := by
    rw [marking, History.current?_append inside appended]
    rfl
  rw [here] at later
  refine ⟨?_, ⟨_, Net.record_cons first later, ?_⟩, ran.deadlocked, ?_, ?_⟩
  · simpa [RunSummary.after] using ran.fewer
  · rw [kept, History.extend_append inside appended]
  · intro fewer
    exact ran.early (by simpa [RunSummary.after] using fewer)
  · have readings : s.clock + (summary.after [id]).fired.length =
        s.clock + 1 + summary.fired.length := by
      rw [RunSummary.after, List.singleton_append, List.length_cons]
      omega
    rw [readings]
    exact ran.rest

end Ran

namespace Consistent

variable (consistent : s.Consistent)
include consistent

/-- An enabled transition fails only for want of room. -/
theorem fire_error {id : String} (member : id ∈ s.enabled) {cause : SessionError}
    (failed : s.fire id = .error cause) : ∃ place, cause = .fire (.tokenOverflow place) := by
  obtain ⟨c, e, _, found, _, same⟩ := consistent.current
  have size : s.marking.size = s.net.places.length := same ▸ consistent.sized found
  cases fires : s.net.fire s.marking id with
  | error why =>
    obtain ⟨place, rfl⟩ :=
      (Net.wellFormed_of_ofModel consistent.compiled).fire_enabledIds size member fires
    simp only [Session.fire, fires] at failed
    exact ⟨place, (Except.error.inj failed).symm⟩
  | ok next =>
    obtain ⟨_, fired, _⟩ := consistent.fire_ok fires
    cases fired.symm.trans failed

/-- The first step of a run, however many steps it has. -/
theorem run_cases :
    (s.enabled = [] ∧ ∀ steps, s.run steps = (.ok ⟨[], true⟩, s)) ∨
    (∃ place random, ∀ steps,
      s.run (steps + 1) = (.error (.fire (.tokenOverflow place)), { s with random })) ∨
    ∃ id random middle, { s with random }.fire id = .ok middle ∧ middle.Consistent ∧
      ∀ steps, s.run (steps + 1) = resumed [id] (middle.run steps) := by
  cases step : s.stepRandom with
  | mk outcome middle =>
    have taken := s.run_succ
    simp only [step] at taken
    cases stepRandom_ways consistent.few step with
    | idle none => exact .inl ⟨none, run_idle none⟩
    | @failed id random cause member failed =>
      obtain ⟨place, rfl⟩ := (consistent.drawn random).fire_error member failed
      exact .inr (.inl ⟨place, random, taken⟩)
    | @fired id random _ _ fires =>
      exact .inr (.inr ⟨id, random, middle, fires, (consistent.drawn random).fire fires, taken⟩)

theorem ran {summary : RunSummary} (ended : s.run steps = (.ok summary, s')) :
    s.Ran steps summary s' := by
  induction steps generalizing s summary with
  | zero =>
    cases ended
    exact .idle rfl nofun
  | succ steps ih =>
    rcases consistent.run_cases with
      ⟨none, idle⟩ | ⟨place, random, fails⟩ | ⟨id, random, middle, fires, kept, goes⟩
    · rw [idle] at ended
      cases ended
      exact .idle (by rw [isDeadlocked_iff.mpr none]) fun _ => none
    · rw [fails] at ended
      cases ended
    · rw [goes] at ended
      obtain ⟨later, rest, rfl⟩ := resumed_ok ended
      exact .step consistent.inside fires (ih kept rest)

theorem run_error {cause : SessionError} (ended : s.run steps = (.error cause, s')) :
    ∃ place, cause = .fire (.tokenOverflow place) := by
  induction steps generalizing s with
  | zero => cases ended
  | succ steps ih =>
    rcases consistent.run_cases with
      ⟨_, idle⟩ | ⟨place, random, fails⟩ | ⟨id, random, middle, _, kept, goes⟩
    · rw [idle] at ended
      cases ended
    · rw [fails] at ended
      cases ended
      exact ⟨place, rfl⟩
    · rw [goes] at ended
      exact ih kept (resumed_error ended)

/-- A run can be cut in two at any step. -/
theorem run_add (a b : Nat) : s.run (a + b) =
    match s.run a with
    | (.error cause, middle) => (.error cause, middle)
    | (.ok first, middle) => resumed first.fired (middle.run b) := by
  induction a generalizing s with
  | zero =>
    rw [Nat.zero_add, run_zero]
    exact resumed_nil.symm
  | succ a ih =>
    rw [Nat.succ_add]
    rcases consistent.run_cases with
      ⟨_, idle⟩ | ⟨place, random, fails⟩ | ⟨id, random, middle, _, kept, goes⟩
    · -- nothing was drawn, so the second part stands where the first one began
      simp only [idle, resumed_nil]
    · simp only [fails]
    · rw [goes, goes, ih kept]
      cases middle.run a with
      | mk outcome last =>
        cases outcome with
        | error cause => rfl
        | ok first => exact (resumed_append [id] first.fired).symm

end Consistent

/-- A run of any session that operations lead to either ends with a summary, which tells what
was fired and recorded and whether the session is stuck, or fails because a place is full. -/
theorem run_summarized {model : Model} {net : Net} (compiled : Net.ofModel model = .ok net)
    (random : Random) :
    ∃ fresh, Session.ofModel model random = .ok fresh ∧
      ∀ operations s, fresh.performAll operations = s → ∀ steps,
        (∀ summary s', s.run steps = (.ok summary, s') → s.Ran steps summary s') ∧
        ∀ cause s', s.run steps = (.error cause, s') →
          ∃ place, cause = .fire (.tokenOverflow place) := by
  obtain ⟨fresh, opened, consistent, _⟩ := Consistent.ofModel compiled random
  refine ⟨fresh, opened, ?_⟩
  rintro operations s rfl steps
  have kept := consistent.performAll operations
  exact ⟨fun _ _ ended => kept.ran ended, fun _ _ ended => kept.run_error ended⟩

/-- A session on a net that can move one token once. -/
def stock : Session where
  model := ⟨Net.transfer.places, Net.transfer.transitions,
    [⟨"a", "full", "move", 1⟩, ⟨"b", "move", "empty", 1⟩]⟩
  net := Net.transfer
  initial := .ofList [1, 0]
  history := .single (.ofList [1, 0]) 0
  random := .ofSeed 7
  clock := 1

theorem run_stock :
    ((stock.performAll [.move (.run 3), .move (.goto 0)]).run 2).1.toOption =
      some ⟨["move"], true⟩ := by
  decide +kernel

/-- Of two steps from the start, to which the session has gone back, one is taken. -/
theorem run_summarized_stock :
    Session.ofModel stock.model stock.random = .ok stock ∧
      ∃ s s', stock.performAll [.move (.run 3), .move (.goto 0)] = s ∧
        s.run 2 = (.ok ⟨["move"], true⟩, s') ∧ s.Ran 2 ⟨["move"], true⟩ s' := by
  obtain ⟨fresh, opened, all⟩ := run_summarized Net.ofModel_transfer stock.random
  obtain rfl : stock = fresh := Except.ok.inj opened
  refine ⟨opened, ?_⟩
  have fired := run_stock
  generalize reached : stock.performAll [.move (.run 3), .move (.goto 0)] = s at fired
  cases ended : s.run 2 with
  | mk outcome s' =>
    rw [ended] at fired
    cases outcome with
    | error => cases fired
    | ok summary =>
      obtain rfl : summary = ⟨["move"], true⟩ := Option.some.inj fired
      exact ⟨s, s', rfl, ended, (all _ s reached 2).1 _ s' ended⟩

/-- How a run of `a + b` steps compares with a run of `a` steps and one of `b` steps after it. -/
structure RunsCompose (s : Session) (a b : Nat) : Prop where
  goesOn : ∀ first middle, s.run a = (.ok first, middle) →
    (s.run (a + b)).2 = (middle.run b).2 ∧
    (∀ second, (middle.run b).1 = .ok second →
      (s.run (a + b)).1 = .ok ⟨first.fired ++ second.fired, second.deadlocked⟩) ∧
    ∀ cause, (middle.run b).1 = .error cause → (s.run (a + b)).1 = .error cause
  stops : ∀ cause middle, s.run a = (.error cause, middle) →
    s.run (a + b) = (.error cause, middle)

/-- Two runs one after the other are one run, with the same draws and the same history, whether
they end early, in a failure or in time. -/
theorem runs_compose {model : Model} {net : Net} (compiled : Net.ofModel model = .ok net)
    (random : Random) :
    ∃ fresh, Session.ofModel model random = .ok fresh ∧
      ∀ operations s, fresh.performAll operations = s → ∀ a b, s.RunsCompose a b := by
  obtain ⟨fresh, opened, consistent, _⟩ := Consistent.ofModel compiled random
  refine ⟨fresh, opened, ?_⟩
  rintro operations s rfl a b
  have whole := (consistent.performAll operations).run_add a b
  constructor
  · intro first middle ended
    rw [ended] at whole
    rw [whole]
    refine ⟨rfl, fun second ends => ?_, fun cause ends => ?_⟩
    · simp only [resumed, ends]
      rfl
    · simp only [resumed, ends]
      rfl
  · intro cause middle ended
    rw [whole, ended]

theorem run_brim_twice : (brim.run 1).1.toOption = some ⟨["fill"], false⟩ ∧
    ((brim.run 1).2.run 2).1.isOk = false := by
  decide +kernel

/-- The first run fills the place, and the second one fails as the run of all steps does. -/
theorem runs_compose_brim :
    ∃ middle cause, brim.run 1 = (.ok ⟨["fill"], false⟩, middle) ∧
      (middle.run 2).1 = .error cause ∧ (brim.run 3).1 = .error cause ∧
      (brim.run 3).2 = (middle.run 2).2 := by
  have compiled : Net.ofModel brim.model = .ok brim.net := rfl
  obtain ⟨fresh, opened, all⟩ := runs_compose compiled brim.random
  obtain rfl : brim = fresh := Except.ok.inj opened
  obtain ⟨fired, fails⟩ := run_brim_twice
  cases ended : brim.run 1 with
  | mk outcome middle =>
    rw [ended] at fired fails
    cases outcome with
    | error => cases fired
    | ok first =>
      obtain rfl : first = ⟨["fill"], false⟩ := Option.some.inj fired
      obtain ⟨same, _, failed⟩ := (all [] brim rfl 1 2).goesOn _ middle ended
      cases later : (middle.run 2).1 with
      | ok => cases later ▸ fails
      | error cause => exact ⟨middle, cause, rfl, later, failed cause later, same⟩

end Session

end TokenGame
