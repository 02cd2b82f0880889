import TokenGame.Simulation.Session

/-! The operations on a session, one after the other. A random step ends in one of
three ways, and every operation but an edit is made of firings, draws and moves of
the cursor: what those preserve, a whole sequence of operations preserves. -/
namespace TokenGame

namespace Random

/-- A number below `n` from any stream of words, drawn as `below` draws it, and the position
after the words that were read. -/
def draw (words : Nat → UInt32) (position n : Nat) : Nat × Nat :=
  let product := (words position).toNat * n
  let high := product / UInt32.size
  let low := product % UInt32.size
  if UInt32.size - n < low then
    let carry := (low + (words (position + 1)).toNat * n / UInt32.size) / UInt32.size
    (high + carry, position + 2)
  else (high, position + 1)

theorem below_eq_draw (r : Random) (n : Nat) : r.below n =
    ((draw (word r.key) r.drawn n).1, { r with drawn := (draw (word r.key) r.drawn n).2 }) := by
  by_cases carries : UInt32.size - n < (word r.key r.drawn).toNat * n % UInt32.size
  · simp only [draw, if_pos carries]
    exact if_pos carries
  · simp only [draw, if_neg carries]
    exact if_neg carries

/-- Two words, the first one above the second, are a fraction of a double word, and the number
that is drawn is this fraction of `n`. The second word is left unread where it cannot matter. -/
theorem draw_eq_div (words : Nat → UInt32) (position : Nat) {n : Nat} (few : n ≤ UInt32.size) :
    (draw words position n).1 =
      ((words position).toNat * UInt32.size + (words (position + 1)).toNat) * n /
        (UInt32.size * UInt32.size) := by
  have second : (words (position + 1)).toNat * n ≤ (UInt32.size - 1) * n :=
    Nat.mul_le_mul_right n (Nat.le_pred_of_lt (words (position + 1)).toNat_lt)
  have product : ((words position).toNat * UInt32.size + (words (position + 1)).toNat) * n =
      UInt32.size * ((words position).toNat * n) + (words (position + 1)).toNat * n := by
    rw [Nat.add_mul, Nat.mul_right_comm, Nat.mul_comm]
  rw [product, ← Nat.div_div_eq_div_mul, Nat.mul_add_div (by decide)]
  simp only [draw, UInt32.size] at *
  split
  · simp only
    omega
  · simp only
    omega

/-- A choice among `n` is below `n`, whatever the words are. -/
theorem draw_lt (words : Nat → UInt32) (position : Nat) {n : Nat} (positive : 0 < n)
    (few : n ≤ UInt32.size) : (draw words position n).1 < n := by
  have pair : (words position).toNat * UInt32.size + (words (position + 1)).toNat <
      UInt32.size * UInt32.size := by
    have first := (words position).toNat_lt
    have second := (words (position + 1)).toNat_lt
    simp only [UInt32.size] at *
    omega
  rw [draw_eq_div words position few]
  exact Nat.div_lt_of_lt_mul (Nat.mul_lt_mul_of_pos_right pair positive)

theorem below_lt (r : Random) {n : Nat} (positive : 0 < n) (few : n ≤ UInt32.size) :
    (r.below n).1 < n := by
  rw [below_eq_draw]
  exact draw_lt (word r.key) r.drawn positive few

end Random

namespace Session

variable {s s' : Session}

theorem fire_ok_iff {id : String} : s.fire id = .ok s' ↔
    ∃ next history, s.net.fire s.marking id = .ok next ∧
      s.history.append id next s.clock = .ok history ∧
      s' = { s with history, clock := s.clock + 1 } := by
  unfold fire
  constructor
  · intro done
    split at done
    · cases done
    · rename_i next fires
      split at done
      · cases done
      · rename_i history appends
        cases done
        exact ⟨next, history, fires, appends, rfl⟩
  · rintro ⟨next, history, fires, appends, rfl⟩
    simp only [fires, appends]

theorem goto_ok_iff {index : Nat} : s.goto index = .ok s' ↔
    ∃ history, s.history.goto index = .ok history ∧ s' = { s with history } := by
  unfold goto
  cases s.history.goto index <;> simp [eq_comm]

theorem isDeadlocked_iff : s.isDeadlocked = true ↔ s.enabled = [] := by
  simp [isDeadlocked, enabled, Net.isDeadlocked, Net.enabledIds]

/-! ### Random steps -/

/-- The ways in which a random step ends. -/
inductive RandomStep (s : Session) : Except SessionError (Option String) → Session → Prop where
  | idle : s.enabled = [] → RandomStep s (.ok none) s
  | fired {id : String} {random : Random} {next : Session} : id ∈ s.enabled →
      { s with random }.fire id = .ok next → RandomStep s (.ok (some id)) next
  | failed {id : String} {random : Random} {cause : SessionError} : id ∈ s.enabled →
      { s with random }.fire id = .error cause → RandomStep s (.error cause) { s with random }

/-- A random step draws among the enabled transitions, if there are any. -/
theorem choose_eq (some : s.enabled ≠ []) : s.choose =
    (s.enabled[(s.random.below s.enabled.length).1]?,
      { s with random := (s.random.below s.enabled.length).2 }) := by
  unfold choose
  split
  · contradiction
  · rename_i id rest enabled
    rw [enabled, List.length_cons]

theorem choose_cases (few : s.enabled.length ≤ UInt32.size) :
    (s.enabled = [] ∧ s.choose = (none, s)) ∨
      ∃ id random, id ∈ s.enabled ∧ s.choose = (some id, { s with random }) := by
  by_cases none : s.enabled = []
  · exact .inl ⟨none, by simp only [choose, none]⟩
  · have inside : (s.random.below s.enabled.length).1 < s.enabled.length :=
      s.random.below_lt (List.length_pos_iff.mpr none) few
    refine .inr ⟨_, (s.random.below s.enabled.length).2, List.getElem_mem inside, ?_⟩
    rw [choose_eq none, List.getElem?_eq_getElem inside]

theorem stepRandom_of_enabled_nil (none : s.enabled = []) : s.stepRandom = (.ok .none, s) := by
  simp only [stepRandom, choose, none]

/-- While there are no more choices than words, a random step ends in no other way. -/
theorem stepRandom_ways (few : s.enabled.length ≤ UInt32.size)
    {outcome : Except SessionError (Option String)} (step : s.stepRandom = (outcome, s')) :
    s.RandomStep outcome s' := by
  rcases choose_cases few with ⟨none, chosen⟩ | ⟨id, random, member, chosen⟩
  · simp only [stepRandom, chosen] at step
    cases step
    exact .idle none
  · cases fires : { s with random }.fire id with
    | error cause =>
      simp only [stepRandom, chosen, fires] at step
      cases step
      exact .failed member fires
    | ok next =>
      simp only [stepRandom, chosen, fires] at step
      cases step
      exact .fired member fires

/-! ### Operations -/

/-- An operation that leaves the model alone. -/
inductive Move where
  | fire (id : String)
  | stepRandom
  | run (steps : Nat)
  | goto (index : Nat)
  | reset

inductive Operation where
  | move (move : Move)
  | edit (change : Model → Model)

/-- The session after an attempt: a failure leaves it as it was. -/
def settle (s : Session) :
    Except SessionError Session → Except SessionError Unit × Session
  | .ok next => (.ok (), next)
  | .error cause => (.error cause, s)

/-- How a move ends, and the session after it. -/
def play (s : Session) : Move → Except SessionError Unit × Session
  | .fire id => s.settle (s.fire id)
  | .stepRandom => (s.stepRandom.1.map fun _ => (), s.stepRandom.2)
  | .run steps => ((s.run steps).1.map fun _ => (), (s.run steps).2)
  | .goto index => s.settle (s.goto index)
  | .reset => (.ok (), s.reset)

/-- How an operation ends, and the session after it. -/
def perform (s : Session) : Operation → Except SessionError Unit × Session
  | .move move => s.play move
  | .edit change => s.settle (s.edit change)

/-- The session after some moves, each of which may fail. -/
def playAll (s : Session) (moves : List Move) : Session :=
  moves.foldl (fun s move => (s.play move).2) s

/-- The session after some operations, each of which may fail. -/
def performAll (s : Session) (operations : List Operation) : Session :=
  operations.foldl (fun s operation => (s.perform operation).2) s

theorem settle_preserves {property : Session → Prop} {attempt : Except SessionError Session}
    (initial : property s) (succeeded : ∀ s', attempt = .ok s' → property s') :
    property (s.settle attempt).2 := by
  cases attempt with
  | error cause => exact initial
  | ok next => exact succeeded next rfl

section Preservation

variable {property : Session → Prop}
  (few : ∀ {s}, property s → s.enabled.length ≤ UInt32.size)
  (fired : ∀ {s s' id}, property s → s.fire id = .ok s' → property s')
  (drawn : ∀ {s : Session} (random : Random), property s → property { s with random })
include few fired drawn

theorem stepRandom_preserves {outcome : Except SessionError (Option String)}
    (initial : property s) (step : s.stepRandom = (outcome, s')) : property s' := by
  cases stepRandom_ways (few initial) step with
  | idle => exact initial
  | fired _ fires => exact fired (drawn _ initial) fires
  | failed => exact drawn _ initial

/-- A run keeps what its steps keep, whether it ends early, in a failure or in time. -/
theorem run_preserves (initial : property s) (steps : Nat) : property (s.run steps).2 := by
  suffices ∀ ids, property (run.go steps s ids).2 from this []
  induction steps generalizing s with
  | zero => exact fun _ => initial
  | succ steps ih =>
    intro ids
    unfold run.go
    cases step : s.stepRandom with
    | mk outcome next =>
      have kept := stepRandom_preserves few fired drawn initial step
      match outcome with
      | .error _ => exact kept
      | .ok none => exact kept
      | .ok (some id) => exact ih kept (id :: ids)

section Progress

variable (fires : ∀ {s id}, property s → id ∈ s.enabled → ∃ s', s.fire id = .ok s')
include fires

omit fired in
theorem stepRandom_ok (initial : property s) : ∃ chosen, s.stepRandom.1 = .ok chosen := by
  cases step : s.stepRandom with
  | mk outcome next =>
    cases stepRandom_ways (few initial) step with
    | idle => exact ⟨_, rfl⟩
    | fired => exact ⟨_, rfl⟩
    | @failed id random cause member failed =>
      obtain ⟨_, done⟩ := fires (drawn random initial) member
      cases failed.symm.trans done

/-- Where every enabled transition fires, a run ends well, and ends early only where
nothing is enabled. -/
theorem run_ends (initial : property s) (steps : Nat) :
    ∃ summary, (s.run steps).1 = .ok summary ∧
      summary.deadlocked = (s.run steps).2.isDeadlocked ∧
      (summary.fired.length = steps ∨ summary.deadlocked = true) := by
  suffices ∀ ids, ∃ summary, (run.go steps s ids).1 = .ok summary ∧
      summary.deadlocked = (run.go steps s ids).2.isDeadlocked ∧
      (summary.fired.length = ids.length + steps ∨ summary.deadlocked = true) by
    simpa [run] using this []
  induction steps generalizing s with
  | zero => exact fun ids => ⟨_, rfl, rfl, .inl List.length_reverse⟩
  | succ steps ih =>
    intro ids
    obtain ⟨chosen, ok⟩ := stepRandom_ok few drawn fires initial
    unfold run.go
    cases step : s.stepRandom with
    | mk outcome next =>
      cases stepRandom_ways (few initial) step with
      | idle none => exact ⟨_, rfl, (isDeadlocked_iff.mpr none).symm, .inr rfl⟩
      | failed => cases step ▸ ok
      | @fired id random _ member done =>
        obtain ⟨summary, ended, dead, length⟩ :=
          ih (fired (drawn random initial) done) (id :: ids)
        refine ⟨summary, ended, dead, length.imp_left fun all => ?_⟩
        rw [all, List.length_cons]
        omega

end Progress

variable (moved : ∀ {s s' index}, property s → s.goto index = .ok s' → property s')
  (cleared : ∀ {s}, property s → property s.reset)
include moved cleared

theorem play_preserves (initial : property s) (move : Move) : property (s.play move).2 := by
  cases move with
  | fire id => exact settle_preserves initial fun _ fires => fired initial fires
  | stepRandom => exact stepRandom_preserves few fired drawn initial rfl
  | run steps => exact run_preserves few fired drawn initial steps
  | goto index => exact settle_preserves initial fun _ goes => moved initial goes
  | reset => exact cleared initial

/-- What firings, draws, moves of the cursor and resets preserve holds after any moves. -/
theorem playAll_preserves (initial : property s) (moves : List Move) :
    property (s.playAll moves) := by
  induction moves generalizing s with
  | nil => exact initial
  | cons move rest ih => exact ih (play_preserves few fired drawn moved cleared initial move)

end Preservation

end Session

end TokenGame
