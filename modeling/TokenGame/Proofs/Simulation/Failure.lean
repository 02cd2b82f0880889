import TokenGame.Proofs.Simulation.InPlace

/-! What an operation that fails leaves of a session. Carried out write by write, the
operations of a session end as those on values do: all that can fail comes before the first
write, except that a random step draws before it fires. -/
namespace TokenGame

open InPlace

def Stop.map {ε δ : Type} (f : ε → δ) : Stop ε → Stop δ
  | .error cause => .error (f cause)
  | .fault => .fault

namespace Session

variable {s s' : Session}

namespace Consistent

theorem inside (consistent : s.Consistent) (c : Nat) (here : s.history.cursor = some c) :
    c < s.history.size := by
  obtain ⟨d, there, inside⟩ := consistent.replays.cursor
  cases there.symm.trans here
  exact inside

theorem exists_current (consistent : s.Consistent) : ∃ e, s.history.current? = some e := by
  obtain ⟨_, e, _, _, current, _⟩ := consistent.current
  exact ⟨e, current⟩

theorem drawn (consistent : s.Consistent) (random : Random) : { s with random }.Consistent :=
  ⟨consistent.compiled, consistent.initial, consistent.replays⟩

end Consistent

namespace InPlace

/-- The clock is read when an entry is made. -/
def tick (s : Session) : Session := { s with clock := s.clock + 1 }

/-- An operation on the history of a session. -/
def onHistory {α : Type} (operation : InPlace History HistoryError α) :
    InPlace Session SessionError α := fun s =>
  let (outcome, history) := operation.on s.history
  (outcome.mapError (·.map .history), { s with history })

def fire (id : String) : InPlace Session SessionError Entry := do
  match (← get).net.fire (← get).marking id with
  | .error cause => fail (.fire cause)
  | .ok next =>
    let e ← onHistory (History.InPlace.append id next (← get).clock)
    modify tick
    pure e

def stepRandom : InPlace Session SessionError (Option String) := do
  let enabled := (← get).enabled
  if enabled.isEmpty then pure none
  else
    let (index, random) := (← get).random.below enabled.length
    -- this write stays where the firing fails
    modify fun s => { s with random }
    let id ← need enabled[index]?
    let _ ← fire id
    pure (some id)

def run (steps : Nat) : InPlace Session SessionError RunSummary := go steps []
where
  /-- `fired` holds the firings so far, the last one first. -/
  go : Nat → List String → InPlace Session SessionError RunSummary
    | 0, fired => do pure { fired := fired.reverse, deadlocked := (← get).isDeadlocked }
    | steps + 1, fired => do
      match ← stepRandom with
      | none => pure { fired := fired.reverse, deadlocked := true }
      | some id => go steps (id :: fired)

def goto (index : Nat) : InPlace Session SessionError Entry :=
  onHistory (History.InPlace.goto index)

def reset : InPlace Session SessionError Unit := do
  onHistory History.InPlace.clear
  let _ ← onHistory (History.InPlace.start (← get).initial (← get).clock)
  modify tick

def edit (change : Model → Model) : InPlace Session SessionError Unit := do
  let model := change (← get).model
  match Net.ofModel model with
  | .error cause => fail (.invalidNet cause)
  | .ok net =>
    -- what follows does not fail: the history is empty when it starts again
    modify fun s => { s with initial := net.initialMarking }
    modify fun s => { s with model }
    modify fun s => { s with net }
    reset

def perform : Operation → InPlace Session SessionError Unit
  | .move (.fire id) => (fun _ => ()) <$> fire id
  | .move .stepRandom => (fun _ => ()) <$> stepRandom
  | .move (.run steps) => (fun _ => ()) <$> run steps
  | .move (.goto index) => (fun _ => ()) <$> goto index
  | .move .reset => reset
  | .edit change => (fun _ => ()) <$> edit change

theorem onHistory_on {α : Type} (operation : InPlace History HistoryError α) :
    (onHistory operation).on s = ((operation.on s.history).1.mapError (·.map .history),
      { s with history := (operation.on s.history).2 }) := rfl

theorem onHistory_settled {operation : InPlace History HistoryError Entry}
    {attempt : Except HistoryError History}
    (ends : operation.on s.history = settled History.current? s.history attempt) :
    (onHistory operation).on s = settled (·.history.current?) s
      (match attempt with
        | .error cause => .error (.history cause)
        | .ok history => .ok { s with history }) := by
  rw [onHistory_on, ends]
  cases attempt with
  | error cause => rfl
  | ok next =>
    simp only [settled]
    cases next.current? <;> rfl

theorem goto_on (index : Nat) :
    (goto index).on s = settled (·.history.current?) s (s.goto index) :=
  onHistory_settled (History.InPlace.goto_on index)

theorem fire_on (inside : ∀ c, s.history.cursor = some c → c < s.history.size) (id : String) :
    (fire id).on s = settled (·.history.current?) s (s.fire id) := by
  simp only [fire, Session.fire, on_bind, on_get]
  cases s.net.fire s.marking id with
  | error cause => rfl
  | ok next =>
    have recorded := onHistory_settled (History.InPlace.append_on inside id next s.clock)
    cases appended : s.history.append id next s.clock with
    | error cause =>
      rw [appended] at recorded
      simp only [on_bind, on_get, recorded, appended]
      rfl
    | ok history =>
      have current := History.current?_append inside appended
      rw [appended] at recorded
      simp only [on_bind, on_get, on_modify, on_pure, on_need_some, recorded, appended, settled,
        current, tick]

theorem reset_on : reset.on s = (.ok (), s.reset) := rfl

theorem edit_on (change : Model → Model) :
    (edit change).on s = settled (fun _ => some ()) s (s.edit change) := by
  simp only [edit, Session.edit, on_bind, on_get]
  cases Net.ofModel (change s.model) with
  | error cause => rfl
  | ok net => simp only [on_modify, reset_on, settled, on_need_some, on_bind]

/-- A random step draws as `choose` does, and the transition that it draws is there. -/
theorem stepRandom_choose (few : s.enabled.length ≤ UInt32.size) :
    stepRandom.on s = match s.choose with
      | (none, s') => (.ok none, s')
      | (some id, s') => ((fun _ => some id) <$> fire id).on s' := by
  cases enabled : s.enabled with
  | nil => simp [stepRandom, choose, enabled]
  | cons id rest =>
    rw [enabled] at few
    have inside : (s.random.below (rest.length + 1)).1 < (id :: rest).length :=
      s.random.below_lt (Nat.succ_pos rest.length) few
    simp [stepRandom, choose, enabled, List.getElem?_eq_getElem inside]

theorem settled_settle {α : Type} {result : Session → Option α}
    {attempt : Except SessionError Session}
    (results : ∀ next, attempt = .ok next → ∃ a, result next = some a) :
    ((settled result s attempt).1.map fun _ => (), (settled result s attempt).2) =
      reported (s.settle attempt) := by
  rcases settled_cases results with ⟨_, next, done, _, ends⟩ | ⟨cause, failed, ends⟩
  · rw [ends, done]
    rfl
  · rw [ends, failed]
    rfl

variable (consistent : s.Consistent)
include consistent

theorem stepRandom_on : stepRandom.on s = reported s.stepRandom := by
  rw [stepRandom_choose consistent.few]
  rcases choose_cases consistent.few with ⟨_, chosen⟩ | ⟨id, random, _, chosen⟩
  · simp only [Session.stepRandom, chosen]
    rfl
  · have drawn := consistent.drawn random
    have recorded (next : Session) (fired : { s with random }.fire id = .ok next) :
        ∃ e, next.history.current? = some e := (drawn.fire fired).exists_current
    simp only [Session.stepRandom, chosen, on_map, fire_on drawn.inside id]
    rcases settled_cases (s := { s with random }) recorded with
      ⟨_, next, fired, _, ends⟩ | ⟨cause, failed, ends⟩
    · rw [ends, fired]
      rfl
    · rw [ends, failed]
      rfl

theorem run_on (steps : Nat) : (run steps).on s = reported (s.run steps) := by
  suffices ∀ ids, (run.go steps ids).on s = reported (Session.run.go steps s ids) from this []
  induction steps generalizing s with
  | zero => exact fun _ => rfl
  | succ steps ih =>
    intro ids
    have kept := consistent.perform (.move .stepRandom)
    rw [run.go, on_bind, stepRandom_on consistent, Session.run.go]
    cases step : s.stepRandom with
    | mk outcome next =>
      match outcome with
      | .error _ => rfl
      | .ok none => rfl
      | .ok (some id) =>
        simp only [Session.perform, play, step] at kept
        exact ih kept (id :: ids)

theorem perform_on (operation : Operation) :
    (perform operation).on s = reported (s.perform operation) := by
  match operation with
  | .move (.fire id) =>
    rw [perform, on_map, fire_on consistent.inside]
    exact settled_settle fun _ fired => (consistent.fire fired).exists_current
  | .move .stepRandom =>
    rw [perform, on_map, stepRandom_on consistent]
    simp only [Session.perform, play, reported]
    cases s.stepRandom.1 <;> rfl
  | .move (.run steps) =>
    rw [perform, on_map, run_on consistent]
    simp only [Session.perform, play, reported]
    cases (s.run steps).1 <;> rfl
  | .move (.goto index) =>
    rw [perform, on_map, goto_on]
    exact settled_settle fun _ moved => (consistent.goto moved).exists_current
  | .move .reset => exact reset_on
  | .edit change =>
    rw [perform, on_map, edit_on]
    exact settled_settle fun _ _ => ⟨(), rfl⟩

/-- Operations in turn leave in place the session that they leave on values. -/
theorem inTurn_on (operations : List Operation) :
    (inTurn (fun s operation => (perform operation).on s) s operations).2 =
      s.performAll operations := by
  induction operations generalizing s with
  | nil => rfl
  | cons operation rest ih =>
    simp only [inTurn, perform_on consistent, reported]
    exact ih (consistent.perform operation)

end InPlace

/-! ### Random steps in a row -/

/-- Random steps in a row, each of which fires. -/
inductive RandomSteps : Session → List String → Session → Prop where
  | nil {s : Session} : RandomSteps s [] s
  | cons {s middle s' : Session} {id : String} {ids : List String} :
      InPlace.stepRandom.on s = (.ok (some id), middle) → RandomSteps middle ids s' →
      RandomSteps s (id :: ids) s'

/-- A run that stops has fired some steps and stops as the next one does. -/
theorem InPlace.run_stop {steps : Nat} {stop : Stop SessionError}
    (stopped : (run steps).on s = (.error stop, s')) :
    ∃ ids middle, ids.length < steps ∧ RandomSteps s ids middle ∧
      stepRandom.on middle = (.error stop, s') := by
  suffices ∀ before, (run.go steps before).on s = (.error stop, s') →
      ∃ ids middle, ids.length < steps ∧ RandomSteps s ids middle ∧
        stepRandom.on middle = (.error stop, s') from this [] stopped
  clear stopped
  induction steps generalizing s with
  | zero =>
    intro before stopped
    cases stopped
  | succ steps ih =>
    intro before stopped
    rw [run.go, on_bind] at stopped
    cases step : stepRandom.on s with
    | mk outcome next =>
      rw [step] at stopped
      match outcome with
      | .error _ =>
        cases stopped
        exact ⟨[], s, Nat.succ_pos steps, .nil, step⟩
      | .ok none => cases stopped
      | .ok (some id) =>
        obtain ⟨ids, middle, fewer, fired, last⟩ := ih (id :: before) stopped
        exact ⟨id :: ids, middle, Nat.succ_lt_succ fewer, .cons step fired, last⟩

end Session

namespace History

variable {h next : History}

/-- The entries up to the current one. -/
def trail (h : History) : List Entry := h.entries.toList.take (h.cursor.elim 0 (· + 1))

/-- An entry that is added follows the entries up to the current one. -/
theorem append_trail (inside : ∀ c, h.cursor = some c → c < h.size) {fired : String} {m : Marking}
    {time : Nat} (added : h.append fired m time = .ok next) :
    next = ⟨(h.trail ++ [(⟨some fired, m, time⟩ : Entry)]).toArray, some h.trail.length⟩ := by
  cases here : h.cursor with
  | none => simp [append, here] at added
  | some c =>
    have kept : c + 1 ≤ h.entries.size := inside c here
    rw [append_eq here (inside c here)] at added
    cases added
    refine (History.mk.injEq ..).mpr ⟨Array.toList_inj.mp ?_, ?_⟩
    · simp [trail, here]
    · simp [trail, here, kept]

theorem trail_append (inside : ∀ c, h.cursor = some c → c < h.size) {fired : String} {m : Marking}
    {time : Nat} (added : h.append fired m time = .ok next) :
    next.trail = h.trail ++ [⟨some fired, m, time⟩] := by
  rw [append_trail inside added, trail, Option.elim_some]
  exact List.take_of_length_le (by simp)

end History

namespace Session

variable {s s' : Session}

section

variable (consistent : s.Consistent)
include consistent

theorem stepRandom_of_ok {chosen : Option String}
    (step : InPlace.stepRandom.on s = (.ok chosen, s')) : s.stepRandom = (.ok chosen, s') := by
  rwa [InPlace.stepRandom_on consistent, reported_eq_ok] at step

/-- A step that fails has drawn, and that is all. -/
theorem stepRandom_of_stop {stop : Stop SessionError}
    (step : InPlace.stepRandom.on s = (.error stop, s')) :
    s' = { s with random := s'.random } ∧
      ∃ cause, stop = .error cause ∧ s.stepRandom = (.error cause, s') := by
  rw [InPlace.stepRandom_on consistent, reported_eq_error] at step
  obtain ⟨cause, rfl, step⟩ := step
  refine ⟨?_, cause, rfl, step⟩
  cases stepRandom_ways consistent.few step with
  | failed => rfl

theorem stepRandom_idle (step : InPlace.stepRandom.on s = (.ok none, s')) :
    s' = s ∧ s.stepRandom = (.ok none, s) := by
  have step := stepRandom_of_ok consistent step
  cases stepRandom_ways consistent.few step with
  | idle => exact ⟨rfl, step⟩

/-- A step that fires adds its entry after the current one. -/
theorem stepRandom_trail {id : String} (step : InPlace.stepRandom.on s = (.ok (some id), s')) :
    s'.Consistent ∧ ∃ e, s'.history.trail = s.history.trail ++ [e] ∧ e.fired = some id := by
  cases stepRandom_ways consistent.few (stepRandom_of_ok consistent step) with
  | @fired _ random _ _ fires =>
    have drawn := consistent.drawn random
    obtain ⟨m, history, _, appended, rfl⟩ := fire_ok_iff.mp fires
    exact ⟨drawn.fire fires, _, History.trail_append drawn.inside appended, rfl⟩

/-- The firings of steps in a row are recorded one after the other. -/
theorem RandomSteps.trail {ids : List String} (steps : RandomSteps s ids s') :
    s'.Consistent ∧ ∃ added, s'.history.trail = s.history.trail ++ added ∧
      added.map (·.fired) = ids.map some := by
  induction steps with
  | nil => exact ⟨consistent, [], by simp, rfl⟩
  | cons step _ ih =>
    obtain ⟨kept, e, first, fired⟩ := stepRandom_trail consistent step
    obtain ⟨kept', added, later, all⟩ := ih kept
    refine ⟨kept', e :: added, ?_, ?_⟩
    · rw [later, first, List.append_assoc, List.singleton_append]
    · rw [List.map_cons, List.map_cons, fired, all]

end

/-- What stays as it was where an operation stops, and that it stops only with an error that
the operation on values gives. -/
structure FailsCleanly (s : Session) : Prop where
  fire : ∀ id stop s', (InPlace.fire id).on s = (.error stop, s') →
    s' = s ∧ ∃ cause, stop = .error cause ∧ s.fire id = .error cause
  goto : ∀ index stop s', (InPlace.goto index).on s = (.error stop, s') →
    s' = s ∧ ∃ cause, stop = .error cause ∧ s.goto index = .error cause
  edit : ∀ change stop s', (InPlace.edit change).on s = (.error stop, s') →
    s' = s ∧ ∃ cause, stop = .error cause ∧ s.edit change = .error cause
  step : ∀ stop s', InPlace.stepRandom.on s = (.error stop, s') →
    s' = { s with random := s'.random } ∧
      ∃ cause, stop = .error cause ∧ s.stepRandom = (.error cause, s')
  idle : ∀ s', InPlace.stepRandom.on s = (.ok none, s') → s' = s ∧ s.stepRandom = (.ok none, s)
  /-- A run that stops leaves the firings before the failing step, and nothing of that step. -/
  run : ∀ steps stop s', (InPlace.run steps).on s = (.error stop, s') →
    (∃ cause, stop = .error cause ∧ s.run steps = (.error cause, s')) ∧
    ∃ ids middle added, ids.length < steps ∧ RandomSteps s ids middle ∧
      InPlace.stepRandom.on middle = (.error stop, s') ∧
      s' = { middle with random := s'.random } ∧
      s'.history.trail = s.history.trail ++ added ∧ added.map (·.fired) = ids.map some

theorem Consistent.failsCleanly (consistent : s.Consistent) : s.FailsCleanly where
  fire id _ _ stopped :=
    settled_stop (fun _ fired => (consistent.fire fired).exists_current)
      ((InPlace.fire_on consistent.inside id).symm.trans stopped)
  goto index _ _ stopped :=
    settled_stop (fun _ moved => (consistent.goto moved).exists_current)
      ((InPlace.goto_on index).symm.trans stopped)
  edit change _ _ stopped :=
    settled_stop (fun _ _ => ⟨(), rfl⟩) ((InPlace.edit_on change).symm.trans stopped)
  step _ _ stopped := stepRandom_of_stop consistent stopped
  idle _ ended := stepRandom_idle consistent ended
  run steps stop s' stopped := by
    obtain ⟨ids, middle, fewer, fired, last⟩ := InPlace.run_stop stopped
    obtain ⟨kept, added, recorded, all⟩ := fired.trail consistent
    obtain ⟨same, _⟩ := stepRandom_of_stop kept last
    rw [InPlace.run_on consistent, reported_eq_error] at stopped
    refine ⟨stopped, ids, middle, added, fewer, fired, last, same, ?_, all⟩
    rw [same]
    exact recorded

/-- After any operations, carried out write by write, the session is the one that they lead to
on values, and an operation that fails leaves of it what it should. An operation on a history
that fails leaves the history, whatever its state. -/
theorem failures_leave_session {model : Model} {net : Net}
    (compiled : Net.ofModel model = .ok net) (random : Random) :
    (∃ fresh, Session.ofModel model random = .ok fresh ∧
      ∀ operations,
        (inTurn (fun s operation => (InPlace.perform operation).on s) fresh operations).2 =
          fresh.performAll operations ∧
        (fresh.performAll operations).FailsCleanly) ∧
    ∀ (h h' : History) operation cause,
      (History.InPlace.perform operation).on h = (.error (.error cause), h') → h' = h := by
  obtain ⟨fresh, opened, consistent, _⟩ := Consistent.ofModel compiled random
  refine ⟨⟨fresh, opened, fun operations => ⟨?_, ?_⟩⟩, ?_⟩
  · exact InPlace.inTurn_on consistent operations
  · exact (consistent.performAll operations).failsCleanly
  · intro h h' operation cause failed
    exact History.InPlace.perform_error failed

/-- A session on a place with room for one token more. -/
def brim : Session where
  model := ⟨[{ id := "tank", tokens := 18446744073709551614 }], [{ id := "fill" }],
    [⟨"a", "fill", "tank", 1⟩]⟩
  net := ⟨[{ id := "tank", tokens := 18446744073709551614 }], [{ id := "fill" }],
    #[⟨[], [⟨0, 1⟩]⟩]⟩
  initial := .ofList [18446744073709551614]
  history := .single (.ofList [18446744073709551614]) 0
  random := .ofSeed 7
  clock := 1

theorem run_brim : ((InPlace.run 3).on brim).1.isOk = false ∧
    ((InPlace.run 3).on brim).2.history.size = 2 := by
  decide +kernel

/-- The second of three steps fails, and the first one stays recorded. -/
theorem failures_leave_session_brim :
    Session.ofModel brim.model brim.random = .ok brim ∧
      ∃ stop s' ids middle added, (InPlace.run 3).on brim = (.error stop, s') ∧
        RandomSteps brim ids middle ∧ s' = { middle with random := s'.random } ∧
        s'.history.size = 2 ∧ s'.history.trail = brim.history.trail ++ added ∧
        added.map (·.fired) = ids.map some := by
  have compiled : Net.ofModel brim.model = .ok brim.net := rfl
  obtain ⟨⟨fresh, opened, all⟩, _⟩ := failures_leave_session compiled brim.random
  obtain rfl : brim = fresh := Except.ok.inj opened
  refine ⟨opened, ?_⟩
  obtain ⟨fails, size⟩ := run_brim
  cases ended : (InPlace.run 3).on brim with
  | mk outcome s' =>
    rw [ended] at fails size
    cases outcome with
    | ok => cases fails
    | error stop =>
      obtain ⟨_, ids, middle, added, _, fired, _, same, recorded⟩ := (all []).2.run 3 stop s' ended
      exact ⟨stop, s', ids, middle, added, rfl, fired, same, size, recorded⟩

end Session

end TokenGame
