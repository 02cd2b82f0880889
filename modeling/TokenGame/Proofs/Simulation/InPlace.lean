import TokenGame.Proofs.Simulation.Session

/-! Operations that change a state in place, one write after the other, and those of a history
among them. What is written stays when the operation stops later on, so nothing may fail after
the first write. The operations of a history end as those on values do, which write all at once
or nothing. -/
namespace TokenGame

/-- Why an operation stops before its end. -/
inductive Stop (ε : Type) where
  /-- It reports an error. -/
  | error (cause : ε)
  /-- It reads at a position that is not there, or takes more from a number than it is. -/
  | fault
  deriving DecidableEq, Repr

/-- An operation that works on a state in place. -/
abbrev InPlace (σ ε : Type) := ExceptT (Stop ε) (StateM σ)

namespace InPlace

variable {σ ε α β : Type} {s : σ}

/-- How an operation ends, and the state that it leaves. -/
def on (operation : InPlace σ ε α) (s : σ) : Except (Stop ε) α × σ := operation.run.run s

def fail (cause : ε) : InPlace σ ε α := throw (.error cause)

def fault : InPlace σ ε α := throw .fault

/-- What was read, unless it was not there. -/
def need : Option α → InPlace σ ε α
  | some a => pure a
  | none => fault

/-- The difference of two numbers, unless it is below zero. -/
def less (a b : Nat) : InPlace σ ε Nat := if b ≤ a then pure (a - b) else fault

@[simp] theorem on_pure (a : α) : (pure a : InPlace σ ε α).on s = (.ok a, s) := rfl

@[simp] theorem on_get : (get : InPlace σ ε σ).on s = (.ok s, s) := rfl

@[simp] theorem on_modify (f : σ → σ) : (modify f : InPlace σ ε PUnit).on s = (.ok ⟨⟩, f s) := rfl

@[simp] theorem on_fail (cause : ε) :
    (fail cause : InPlace σ ε α).on s = (.error (.error cause), s) := rfl

@[simp] theorem on_fault : (fault : InPlace σ ε α).on s = (.error .fault, s) := rfl

@[simp] theorem on_need_some (a : α) : (need (some a) : InPlace σ ε α).on s = (.ok a, s) := rfl

theorem on_less {a b : Nat} (enough : b ≤ a) :
    (less a b : InPlace σ ε Nat).on s = (.ok (a - b), s) := by
  rw [less, if_pos enough, on_pure]

theorem on_less_fault {a b : Nat} (short : ¬b ≤ a) :
    (less a b : InPlace σ ε Nat).on s = (.error .fault, s) := by
  rw [less, if_neg short, on_fault]

/-- An operation goes on where the one before it has ended, and not where it has stopped. -/
@[simp] theorem on_bind (first : InPlace σ ε α) (later : α → InPlace σ ε β) :
    (first >>= later).on s = match first.on s with
      | (.ok a, s') => (later a).on s'
      | (.error stop, s') => (.error stop, s') := by
  simp only [on, ExceptT.run_bind, StateT.run_bind]
  cases first.run.run s with
  | mk outcome s' => cases outcome <;> rfl

@[simp] theorem on_map (f : α → β) (operation : InPlace σ ε α) :
    (f <$> operation).on s = ((operation.on s).1.map f, (operation.on s).2) := by
  simp only [on, ExceptT.run_map, StateT.run_map]
  rfl

theorem on_map_error {f : α → β} {operation : InPlace σ ε α} {stop : Stop ε} {s' : σ}
    (failed : (f <$> operation).on s = (.error stop, s')) : operation.on s = (.error stop, s') := by
  rw [on_map] at failed
  cases ended : operation.on s with
  | mk outcome next => cases outcome <;> simp_all [Except.map]

/-- How an attempt ends that writes all at once or nothing, with what `result` finds in the
state after it. -/
def settled (result : σ → Option α) (s : σ) : Except ε σ → Except (Stop ε) α × σ
  | .ok next => (need (result next)).on next
  | .error cause => (.error (.error cause), s)

theorem settled_error {result : σ → Option α} {attempt : Except ε σ} {cause : ε} {s' : σ}
    (failed : settled result s attempt = (.error (.error cause), s')) :
    attempt = .error cause ∧ s' = s := by
  cases attempt with
  | error => cases failed; exact ⟨rfl, rfl⟩
  | ok next =>
    simp only [settled] at failed
    cases found : result next <;> simp [found, need] at failed

/-- An attempt settles on a state with a result or stays where it was. -/
theorem settled_cases {result : σ → Option α} {attempt : Except ε σ}
    (results : ∀ next, attempt = .ok next → ∃ a, result next = some a) :
    (∃ a next, attempt = .ok next ∧ result next = some a ∧
      settled result s attempt = (.ok a, next)) ∨
    ∃ cause, attempt = .error cause ∧ settled result s attempt = (.error (.error cause), s) := by
  cases attempt with
  | error cause => exact .inr ⟨cause, rfl, rfl⟩
  | ok next =>
    obtain ⟨a, found⟩ := results next rfl
    exact .inl ⟨a, next, rfl, found, by rw [settled, found, on_need_some]⟩

theorem settled_stop {result : σ → Option α} {attempt : Except ε σ} {stop : Stop ε} {s' : σ}
    (results : ∀ next, attempt = .ok next → ∃ a, result next = some a)
    (stopped : settled result s attempt = (.error stop, s')) :
    s' = s ∧ ∃ cause, stop = .error cause ∧ attempt = .error cause := by
  rcases settled_cases results with ⟨_, _, _, _, settles⟩ | ⟨cause, failed, settles⟩
  · cases settles.symm.trans stopped
  · cases settles.symm.trans stopped
    exact ⟨rfl, cause, rfl, failed⟩

/-- How an operation on values ends, as one in place says it: there are no faults. -/
def reported (ended : Except ε α × σ) : Except (Stop ε) α × σ := (ended.1.mapError .error, ended.2)

theorem reported_eq_ok {ended : Except ε α × σ} {a : α} :
    reported ended = (.ok a, s) ↔ ended = (.ok a, s) := by
  constructor
  · intro same
    obtain ⟨outcome, next⟩ := ended
    cases outcome with
    | error cause => cases same
    | ok b =>
      cases same
      rfl
  · rintro rfl
    rfl

theorem reported_eq_error {ended : Except ε α × σ} {stop : Stop ε} :
    reported ended = (.error stop, s) ↔
      ∃ cause, stop = .error cause ∧ ended = (.error cause, s) := by
  constructor
  · intro same
    obtain ⟨outcome, next⟩ := ended
    cases outcome with
    | error cause =>
      cases same
      exact ⟨cause, rfl, rfl⟩
    | ok b => cases same
  · rintro ⟨cause, rfl, rfl⟩
    rfl

end InPlace

/-! ### Steps in turn -/

section InTurn

variable {σ τ ι ρ π : Type}

/-- The outcomes of steps taken in turn, and the state after them. -/
def inTurn (step : σ → ι → ρ × σ) : σ → List ι → List ρ × σ
  | s, [] => ([], s)
  | s, input :: rest =>
    let (outcome, next) := step s input
    let (outcomes, last) := inTurn step next rest
    (outcome :: outcomes, last)

/-- Where each step follows the other's, so do steps in turn. -/
theorem inTurn_follows {step : σ → ι → ρ × σ} {step' : τ → ι → π × τ} (state : τ → σ)
    (outcome : π → ρ)
    (follows : ∀ t input,
      step (state t) input = (outcome (step' t input).1, state (step' t input).2))
    (t : τ) (inputs : List ι) : inTurn step (state t) inputs =
      ((inTurn step' t inputs).1.map outcome, state (inTurn step' t inputs).2) := by
  induction inputs generalizing t with
  | nil => rfl
  | cons input rest ih => simp only [inTurn, follows, ih, List.map_cons]

theorem inTurn_preserves {step : σ → ι → ρ × σ} {property : σ → Prop}
    (preserved : ∀ s input, property s → property (step s input).2) {s : σ} (initial : property s)
    (inputs : List ι) : property (inTurn step s inputs).2 := by
  induction inputs generalizing s with
  | nil => exact initial
  | cons input rest ih => exact ih (preserved s input initial)

end InTurn

open InPlace

namespace History

variable {h : History}

namespace InPlace

def start (m : Marking) (time : Nat) : InPlace History HistoryError Entry := do
  if (← get).isEmpty then
    modify fun h => { h with entries := h.entries.push ⟨none, m, time⟩ }
    modify fun h => { h with cursor := some 0 }
    need (← get).entries[0]?
  else fail .alreadyInitialized

def append (fired : String) (m : Marking) (time : Nat) : InPlace History HistoryError Entry := do
  match (← get).cursor with
  | none => fail .empty
  | some c =>
    -- the number of entries to drop is computed for the record
    let _ ← less (← get).entries.size (c + 1)
    modify fun h => { h with entries := h.entries.shrink (c + 1) }
    modify fun h => { h with entries := h.entries.push ⟨some fired, m, time⟩ }
    let last ← less (← get).entries.size 1
    modify fun h => { h with cursor := some last }
    need (← get).entries[last]?

def goto (index : Nat) : InPlace History HistoryError Entry := do
  let length := (← get).entries.size
  if length ≤ index then fail (.indexOutOfRange index length)
  else
    modify fun h => { h with cursor := some index }
    need (← get).entries[index]?

def stepBack : InPlace History HistoryError Entry := do
  match (← get).cursor with
  | none => fail .empty
  | some 0 => fail (.indexOutOfRange 0 (← get).entries.size)
  | some (c + 1) => goto c

def stepForward : InPlace History HistoryError Entry := do
  match (← get).cursor with
  | none => fail .empty
  | some c => goto (c + 1)

def clear : InPlace History HistoryError Unit := do
  modify fun h => { h with entries := #[] }
  modify fun h => { h with cursor := none }

theorem start_on (m : Marking) (time : Nat) :
    (start m time).on h = settled current? h (h.start m time) := by
  simp only [start, History.start, on_bind, on_get]
  by_cases none : h.isEmpty
  · have nothing : h.entries = #[] := by simpa [isEmpty] using none
    simp [none, nothing, single, settled, current?]
  · simp [none, settled]

theorem append_on (inside : ∀ c, h.cursor = some c → c < h.size) (fired : String) (m : Marking)
    (time : Nat) : (append fired m time).on h = settled current? h (h.append fired m time) := by
  simp only [append, on_bind, on_get]
  cases here : h.cursor with
  | none => simp [History.append, here, settled]
  | some c =>
    have room : c + 1 ≤ h.entries.size := inside c here
    have size : min (c + 1) h.entries.size = c + 1 := Nat.min_eq_left room
    rw [append_eq here (inside c here)]
    simp [on_less room, on_less (Nat.succ_le_succ (Nat.zero_le _)), settled, current?, size]

theorem goto_on (index : Nat) : (goto index).on h = settled current? h (h.goto index) := by
  simp only [goto, History.goto, on_bind, on_get]
  by_cases inside : index < h.entries.size
  · simp [inside, Nat.not_le.mpr inside, settled, current?]
  · simp [inside, Nat.not_lt.mp inside, settled]

theorem stepBack_on : stepBack.on h = settled current? h h.stepBack := by
  simp only [stepBack, History.stepBack, on_bind, on_get]
  rcases h.cursor with _ | _ | c
  · rfl
  · simp [settled]
  · exact goto_on c

theorem stepForward_on : stepForward.on h = settled current? h h.stepForward := by
  simp only [stepForward, History.stepForward, on_bind, on_get]
  cases h.cursor with
  | none => rfl
  | some c => exact goto_on (c + 1)

theorem clear_on : clear.on h = (.ok (), .empty) := rfl

/-- An error of `append` comes before its first write, wherever the cursor is. -/
theorem append_error {h' : History} {fired : String} {m : Marking} {time : Nat}
    {cause : HistoryError}
    (failed : (append fired m time).on h = (.error (.error cause), h')) : h' = h := by
  cases here : h.cursor with
  | none =>
    simp only [append, on_bind, on_get, here, on_fail] at failed
    exact (congrArg Prod.snd failed).symm
  | some c =>
    by_cases room : c + 1 ≤ h.entries.size
    · have inside : ∀ d, h.cursor = some d → d < h.size := by
        intro d there
        cases here.symm.trans there
        exact room
      rw [append_on inside] at failed
      exact (settled_error failed).2
    · simp only [append, on_bind, on_get, here, on_less_fault room] at failed
      cases failed

end InPlace

/-! ### Operations -/

/-- An operation on a history. -/
inductive Operation where
  | start (m : Marking) (time : Nat)
  | append (fired : String) (m : Marking) (time : Nat)
  | goto (index : Nat)
  | stepBack
  | stepForward
  | clear
  deriving DecidableEq, Repr

def attempt (h : History) : Operation → Except HistoryError History
  | .start m time => h.start m time
  | .append fired m time => h.append fired m time
  | .goto index => h.goto index
  | .stepBack => h.stepBack
  | .stepForward => h.stepForward
  | .clear => .ok .empty

/-- How an operation ends, with the entry that is then current, and the history after it: a
failure leaves it as it was. -/
def perform (h : History) (operation : Operation) : Except HistoryError (Option Entry) × History :=
  match h.attempt operation with
  | .ok next => (.ok next.current?, next)
  | .error cause => (.error cause, h)

def InPlace.perform : Operation → InPlace History HistoryError (Option Entry)
  | .start m time => some <$> InPlace.start m time
  | .append fired m time => some <$> InPlace.append fired m time
  | .goto index => some <$> InPlace.goto index
  | .stepBack => some <$> InPlace.stepBack
  | .stepForward => some <$> InPlace.stepForward
  | .clear => (fun _ => none) <$> InPlace.clear

/-- What an operation that succeeds makes of a history. -/
inductive Change (h : History) : Operation → History → Prop where
  | started (m : Marking) (time : Nat) : Change h (.start m time) (single m time)
  | added {c : Nat} (fired : String) (m : Marking) (time : Nat) : h.cursor = some c → c < h.size →
      Change h (.append fired m time)
        ⟨(h.entries.shrink (c + 1)).push ⟨some fired, m, time⟩, some (c + 1)⟩
  | moved {operation : Operation} {c : Nat} : c < h.size →
      Change h operation { h with cursor := some c }
  | cleared : Change h .clear .empty

variable {operation : Operation} {next : History}

theorem change_of_goto {index : Nat} (moved : h.goto index = .ok next) :
    h.Change operation next := by
  unfold goto at moved
  split at moved
  · rename_i bound
    cases moved
    exact .moved bound
  · cases moved

theorem change_of_attempt (inside : ∀ c, h.cursor = some c → c < h.size)
    (done : h.attempt operation = .ok next) : h.Change operation next := by
  cases operation with
  | start m time =>
    simp only [attempt, start] at done
    split at done
    · cases done
      exact .started m time
    · cases done
  | append fired m time =>
    cases here : h.cursor with
    | none => simp [attempt, append, here] at done
    | some c =>
      rw [attempt, append_eq here (inside c here)] at done
      cases done
      exact .added fired m time here (inside c here)
  | goto index => exact change_of_goto done
  | stepBack =>
    simp only [attempt, stepBack] at done
    split at done
    · cases done
    · cases done
    · exact change_of_goto done
  | stepForward =>
    simp only [attempt, stepForward] at done
    split at done
    · cases done
    · exact change_of_goto done
  | clear =>
    cases done
    exact .cleared

/-- There is a current entry after every change but a clearing. -/
theorem Change.current (change : h.Change operation next) (kept : operation ≠ .clear) :
    ∃ e, next.current? = some e := by
  cases change with
  | started m time => exact ⟨_, rfl⟩
  | added fired m time _ inside =>
    exact ⟨_, by rw [current?, Option.bind_some, getElem?_branch inside, if_pos rfl]⟩
  | @moved _ c inside => exact ⟨h.entries[c], Array.getElem?_eq_getElem inside⟩
  | cleared => exact absurd rfl kept

namespace InPlace

variable (inside : ∀ c, h.cursor = some c → c < h.size)
include inside

theorem settled_perform (operation : Operation) (kept : operation ≠ .clear) :
    ((settled current? h (h.attempt operation)).1.map some,
      (settled current? h (h.attempt operation)).2) = reported (h.perform operation) := by
  rcases settled_cases (s := h) (fun _ done => (change_of_attempt inside done).current kept) with
    ⟨e, next, tried, current, settles⟩ | ⟨cause, tried, settles⟩
  · rw [settles]
    simp only [History.perform, tried, current]
    rfl
  · rw [settles]
    simp only [History.perform, tried]
    rfl

/-- In place, an operation ends as it does on values. -/
theorem perform_on (operation : Operation) :
    (perform operation).on h = reported (h.perform operation) := by
  cases operation with
  | start m time =>
    rw [perform, on_map, start_on]
    exact settled_perform inside (.start m time) (by simp)
  | append fired m time =>
    rw [perform, on_map, append_on inside]
    exact settled_perform inside (.append fired m time) (by simp)
  | goto index =>
    rw [perform, on_map, goto_on]
    exact settled_perform inside (.goto index) (by simp)
  | stepBack =>
    rw [perform, on_map, stepBack_on]
    exact settled_perform inside .stepBack (by simp)
  | stepForward =>
    rw [perform, on_map, stepForward_on]
    exact settled_perform inside .stepForward (by simp)
  | clear => rfl

omit inside in
/-- An error comes before the first write, whatever the history. -/
theorem perform_error {h' : History} {cause : HistoryError}
    (failed : (perform operation).on h = (.error (.error cause), h')) : h' = h := by
  cases operation with
  | start m time => exact (settled_error ((start_on m time).symm.trans (on_map_error failed))).2
  | append fired m time => exact append_error (on_map_error failed)
  | goto index => exact (settled_error ((goto_on index).symm.trans (on_map_error failed))).2
  | stepBack => exact (settled_error (stepBack_on.symm.trans (on_map_error failed))).2
  | stepForward => exact (settled_error (stepForward_on.symm.trans (on_map_error failed))).2
  | clear => simp [perform, clear_on, Except.map] at failed

end InPlace

end History

end TokenGame
