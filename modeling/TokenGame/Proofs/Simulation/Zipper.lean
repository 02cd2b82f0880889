import TokenGame.Proofs.Simulation.InPlace

/-! A history is a zipper: an entry between those before it and those after it. Adding an
entry forgets what came after, and going back and forth moves entries from one side to the
other. -/
namespace TokenGame

/-- An entry with those before it and those after it, the nearest first. -/
structure Zipper where
  past : List Entry
  present : Entry
  future : List Entry
  deriving DecidableEq, Repr

namespace Zipper

variable {z : Zipper}

/-- All entries in the order in which they were made. -/
def entries (z : Zipper) : List Entry := z.past.reverse ++ z.present :: z.future

def append (z : Zipper) (e : Entry) : Zipper := ⟨z.present :: z.past, e, []⟩

def back? (z : Zipper) : Option Zipper :=
  match z.past with
  | [] => none
  | e :: past => some ⟨past, e, z.present :: z.future⟩

def forward? (z : Zipper) : Option Zipper :=
  match z.future with
  | [] => none
  | e :: future => some ⟨z.present :: z.past, e, future⟩

/-- So many steps in one direction. -/
def steps? (step? : Zipper → Option Zipper) : Nat → Zipper → Option Zipper
  | 0, z => some z
  | n + 1, z => (step? z).bind (steps? step? n)

/-- Goes to where `index` entries are past. -/
def goto? (z : Zipper) (index : Nat) : Option Zipper :=
  if index ≤ z.past.length then z.steps? back? (z.past.length - index)
  else z.steps? forward? (index - z.past.length)

/-- How a move ends, if it has somewhere to go, and the zipper after it. -/
def move (z : Zipper) (cause : HistoryError) :
    Option Zipper → Except HistoryError (Option Entry) × Option Zipper
  | some z' => (.ok (some z'.present), some z')
  | none => (.error cause, some z)

/-- How an operation ends, and the zipper after it. There is none before the start. -/
def perform : Option Zipper → History.Operation → Except HistoryError (Option Entry) × Option Zipper
  | none, .start m time => (.ok (some ⟨none, m, time⟩), some ⟨[], ⟨none, m, time⟩, []⟩)
  | none, .append _ _ _ | none, .stepBack | none, .stepForward => (.error .empty, none)
  | none, .goto index => (.error (.indexOutOfRange index 0), none)
  | some z, .start _ _ => (.error .alreadyInitialized, some z)
  | some z, .append fired m time =>
    (.ok (some ⟨some fired, m, time⟩), some (z.append ⟨some fired, m, time⟩))
  | some z, .goto index => z.move (.indexOutOfRange index z.entries.length) (z.goto? index)
  | some z, .stepBack => z.move (.indexOutOfRange 0 z.entries.length) z.back?
  | some z, .stepForward =>
    z.move (.indexOutOfRange (z.past.length + 1) z.entries.length) z.forward?
  | _, .clear => (.ok none, none)

/-! ### Moves keep the entries -/

theorem length_entries (z : Zipper) :
    z.entries.length = z.past.length + 1 + z.future.length := by
  simp only [entries, List.length_append, List.length_reverse, List.length_cons]
  omega

/-- Where a move to a position leads: only the split changes, and only positions behind all
entries are out of reach. -/
inductive Leads (z : Zipper) (index : Nat) : Option Zipper → Prop where
  | inside {z' : Zipper} : z'.entries = z.entries → z'.past.length = index → Leads z index (some z')
  | outside : z.entries.length ≤ index → Leads z index none

theorem Leads.trans {z' : Zipper} {index : Nat} {target : Option Zipper}
    (same : z'.entries = z.entries) (leads : z'.Leads index target) : z.Leads index target := by
  cases leads with
  | inside same' there => exact .inside (same'.trans same) there
  | outside beyond => exact .outside (same ▸ beyond)

theorem back?_leads {index : Nat} (more : z.past.length = index + 1) : z.Leads index z.back? := by
  obtain ⟨past, present, future⟩ := z
  cases past with
  | nil => cases more
  | cons e past => exact .inside (by simp [entries]) (Nat.succ.inj more)

theorem forward?_leads (z : Zipper) : z.Leads (z.past.length + 1) z.forward? := by
  obtain ⟨past, present, future⟩ := z
  cases future with
  | nil => exact .outside (by simp [length_entries])
  | cons e future => exact .inside (by simp [entries]) rfl

theorem steps_back_leads {index n : Nat} (there : z.past.length = index + n) :
    z.Leads index (z.steps? back? n) := by
  induction n generalizing z with
  | zero => exact .inside rfl there
  | succ n ih =>
    have first : z.Leads (index + n) z.back? := back?_leads there
    rw [steps?]
    generalize z.back? = next at first
    cases first with
    | inside same shorter => exact (ih shorter).trans same
    | outside beyond =>
      rw [length_entries] at beyond
      omega

theorem steps_forward_leads (z : Zipper) (n : Nat) :
    z.Leads (z.past.length + n) (z.steps? forward? n) := by
  induction n generalizing z with
  | zero => exact .inside rfl rfl
  | succ n ih =>
    have first := z.forward?_leads
    rw [steps?]
    generalize z.forward? = next at first
    cases first with
    | @inside z' same longer =>
      have later := ih z'
      rw [longer, Nat.add_assoc, Nat.add_comm 1 n] at later
      exact later.trans same
    | outside last => exact .outside (by omega)

theorem goto?_leads (z : Zipper) (index : Nat) : z.Leads index (z.goto? index) := by
  unfold goto?
  split
  · rename_i behind
    exact steps_back_leads (Nat.add_sub_cancel' behind).symm
  · rename_i ahead
    have later := z.steps_forward_leads (index - z.past.length)
    rwa [Nat.add_sub_cancel' (Nat.le_of_not_le ahead)] at later

/-! ### The history of a zipper -/

/-- The entries in a row, with the position of the present one. -/
def flatten : Option Zipper → History
  | none => .empty
  | some z => ⟨z.entries.toArray, some z.past.length⟩

theorem flatten_inside (zipper : Option Zipper) (c : Nat)
    (here : (flatten zipper).cursor = some c) : c < (flatten zipper).size := by
  cases zipper with
  | none => cases here
  | some z =>
    cases here
    simp only [flatten, History.size, List.size_toArray, length_entries]
    omega

theorem flatten_current (z : Zipper) : (flatten (some z)).current? = some z.present := by
  simp [flatten, History.current?, entries]

theorem flatten_append (z : Zipper) (fired : String) (m : Marking) (time : Nat) :
    (flatten (some z)).append fired m time =
      .ok (flatten (some (z.append ⟨some fired, m, time⟩))) := by
  rw [History.append_eq rfl (flatten_inside (some z) _ rfl)]
  have kept : z.entries.take (z.past.length + 1) = z.past.reverse ++ [z.present] := by
    rw [entries, List.append_cons, List.take_left' (by simp)]
  have shrunk : z.entries.toArray.shrink (z.past.length + 1) =
      (z.past.reverse ++ [z.present]).toArray := by
    rw [← kept]
    simp
  simp only [flatten, shrunk]
  simp [append, entries]

/-- A move between the entries of a zipper is the move of the cursor over them. -/
theorem perform_move {operation : History.Operation} {index : Nat} {target : Option Zipper}
    {cause : HistoryError}
    (goes : (flatten (some z)).attempt operation = (flatten (some z)).goto index)
    (leads : z.Leads index target)
    (blame : target = none → cause = .indexOutOfRange index z.entries.length) :
    (flatten (some z)).perform operation =
      ((z.move cause target).1, flatten (z.move cause target).2) := by
  rw [History.perform, goes]
  cases leads with
  | @inside z' same there =>
    have bound : index < z.entries.length := by
      rw [← same, length_entries]
      omega
    have moved : (flatten (some z)).goto index = .ok (flatten (some z')) := by
      simp [flatten, History.goto, bound, same, there]
    simp only [moved, flatten_current, move]
  | outside beyond =>
    have stuck : (flatten (some z)).goto index =
        .error (.indexOutOfRange index z.entries.length) := by
      simp [flatten, History.goto, Nat.not_lt.mpr beyond]
    simp only [stuck, move, blame rfl]

/-- An operation does to the history of a zipper what it does to the zipper. -/
theorem perform_flatten (zipper : Option Zipper) (operation : History.Operation) :
    (flatten zipper).perform operation =
      ((perform zipper operation).1, flatten (perform zipper operation).2) := by
  cases zipper with
  | none => cases operation <;> rfl
  | some z =>
    cases operation with
    | start m time =>
      have started : (flatten (some z)).start m time = .error .alreadyInitialized := by
        simp [flatten, History.start, History.isEmpty, entries]
      simp only [History.perform, History.attempt, started, perform]
    | append fired m time =>
      simp only [History.perform, History.attempt, flatten_append, flatten_current, perform]
      rfl
    | goto index => exact perform_move rfl (z.goto?_leads index) fun _ => rfl
    | stepBack =>
      cases before : z.past with
      | nil =>
        simp [History.perform, History.attempt, History.stepBack, flatten, perform, back?, before,
          move]
      | cons e past =>
        have goes : (flatten (some z)).stepBack = (flatten (some z)).goto past.length := by
          simp [History.stepBack, flatten, before]
        have some : z.back? ≠ none := by simp [back?, before]
        exact perform_move goes (back?_leads (by simp [before])) fun none => absurd none some
    | stepForward => exact perform_move rfl z.forward?_leads fun _ => rfl
    | clear => rfl

end Zipper

namespace History

variable {h next : History} {operation : Operation}

/-- The cursor is at an entry, if there is one, and exactly the first entry is not fired. -/
structure Sound (h : History) : Prop where
  pointed : h.cursor = none ↔ h.entries = #[]
  inside : ∀ c, h.cursor = some c → c < h.size
  first : ∀ i e, h.entries[i]? = some e → (e.fired = none ↔ i = 0)

theorem sound_empty : empty.Sound where
  pointed := by simp [empty]
  inside := nofun
  first := by simp [empty]

theorem Sound.change (sound : h.Sound) (change : h.Change operation next) : next.Sound := by
  cases change with
  | started m time =>
    refine ⟨by simp [single], ?_, ?_⟩
    · rintro _ ⟨⟩
      exact Nat.zero_lt_one
    · intro i e found
      simp only [single, List.getElem?_toArray, List.getElem?_singleton] at found
      split at found <;> cases found
      simp [*]
  | @added c fired m time here inside =>
    have kept : c + 1 ≤ h.entries.size := inside
    refine ⟨by simp, ?_, ?_⟩
    · rintro _ ⟨⟩
      simp [size, kept]
    · intro i e found
      rw [getElem?_branch inside] at found
      split at found
      · cases found
        simp [*]
      · split at found
        · exact sound.first i e found
        · cases found
  | @moved _ c inside =>
    refine ⟨?_, ?_, sound.first⟩
    · have some : h.entries ≠ #[] := Array.ne_empty_of_size_pos (Nat.zero_lt_of_lt inside)
      simp [some]
    · rintro _ ⟨⟩
      exact inside
  | cleared => exact sound_empty

theorem Sound.perform (sound : h.Sound) (operation : Operation) :
    (h.perform operation).2.Sound := by
  unfold History.perform
  split
  · rename_i done
    exact sound.change (change_of_attempt sound.inside done)
  · exact sound

/-- Going to an entry and adding one there keeps the entries up to it, and no others. -/
theorem perform_goto_append {i : Nat} {e : Entry} (found : h.entries[i]? = some e) (fired : String)
    (m : Marking) (time : Nat) :
    ∃ h', inTurn History.perform h [.goto i, .append fired m time] =
        ([.ok (some e), .ok (some ⟨some fired, m, time⟩)], h') ∧
      h'.size = i + 2 ∧ (∀ j ≤ i, h'.entries[j]? = h.entries[j]?) ∧
      h'.entries[i + 1]? = some ⟨some fired, m, time⟩ ∧ h'.cursor = some (i + 1) := by
  obtain ⟨inside, rfl⟩ := Array.getElem?_eq_some_iff.mp found
  have branch := getElem?_branch inside ⟨some fired, m, time⟩
  have kept : i + 1 ≤ h.entries.size := inside
  have went : h.perform (.goto i) = (.ok (some h.entries[i]), { h with cursor := some i }) := by
    simp [History.perform, attempt, goto, inside, current?]
  have appended := append_eq (h := { h with cursor := some i }) rfl inside fired m time
  have added : History.perform { h with cursor := some i } (.append fired m time) =
      (.ok (some ⟨some fired, m, time⟩),
        ⟨(h.entries.shrink (i + 1)).push ⟨some fired, m, time⟩, some (i + 1)⟩) := by
    simp only [History.perform, attempt, appended, current?, Option.bind_some, branch, if_pos]
  refine ⟨⟨(h.entries.shrink (i + 1)).push ⟨some fired, m, time⟩, some (i + 1)⟩,
    ?_, ?_, ?_, ?_, rfl⟩
  · simp only [inTurn, went, added]
  · simp [size, kept]
  · intro j upto
    rw [branch, if_neg (by omega), if_pos upto]
  · rw [branch, if_pos rfl]

/-- From the empty history on, whatever is done, operations end as they do on a zipper and
leave its history, also when they are carried out write by write. So the cursor is at an entry
once there is one, nothing is read or subtracted that is not there, and going back to an entry
and adding one there replaces exactly those behind it. -/
theorem operations_on_zipper (operations : List Operation) :
    let zipped := inTurn Zipper.perform none operations
    let h := Zipper.flatten zipped.2
    inTurn perform empty operations = (zipped.1, h) ∧
    inTurn (fun h operation => (InPlace.perform operation).on h) empty operations =
      (zipped.1.map (·.mapError .error), h) ∧
    h.Sound ∧
    ∀ i e, h.entries[i]? = some e → ∀ fired m time,
      ∃ h', inTurn perform h [.goto i, .append fired m time] =
          ([.ok (some e), .ok (some ⟨some fired, m, time⟩)], h') ∧
        h'.size = i + 2 ∧ (∀ j ≤ i, h'.entries[j]? = h.entries[j]?) ∧
        h'.entries[i + 1]? = some ⟨some fired, m, time⟩ ∧ h'.cursor = some (i + 1) := by
  intro zipped h
  have onValues : inTurn perform empty operations = (zipped.1, h) := by
    have follows := inTurn_follows Zipper.flatten id Zipper.perform_flatten none operations
    rwa [List.map_id] at follows
  refine ⟨onValues, ?_, ?_, fun i e found => perform_goto_append found⟩
  · refine inTurn_follows Zipper.flatten (Except.mapError Stop.error) ?_ none operations
    intro zipper operation
    rw [InPlace.perform_on (Zipper.flatten_inside zipper), Zipper.perform_flatten]
    rfl
  · have sound : (inTurn perform empty operations).2.Sound :=
      inTurn_preserves (fun _ operation kept => kept.perform operation) sound_empty operations
    rwa [onValues] at sound

/-- Three operations fail, and the two entries behind the first one are replaced. -/
theorem operations_on_zipper_branch :
    let m := Marking.ofList [1]
    let operations : List Operation :=
      [.stepBack, .start m 5, .append "a" m 6, .start m 7, .append "b" m 7, .goto 3, .stepBack]
    let h := Zipper.flatten (inTurn Zipper.perform none operations).2
    (inTurn perform empty operations).1 =
      [.error .empty, .ok (some ⟨none, m, 5⟩), .ok (some ⟨some "a", m, 6⟩),
        .error .alreadyInitialized, .ok (some ⟨some "b", m, 7⟩), .error (.indexOutOfRange 3 3),
        .ok (some ⟨some "a", m, 6⟩)] ∧
    h.entries[0]? = some ⟨none, m, 5⟩ ∧ h.size = 3 ∧
    ∃ h', (inTurn perform h [.goto 0, .append "c" m 8]).2 = h' ∧ h'.size = 2 := by
  intro m operations h
  obtain ⟨followed, _, _, branches⟩ := operations_on_zipper operations
  obtain ⟨h', replaced, size, _⟩ := branches 0 ⟨none, m, 5⟩ rfl "c" m 8
  exact ⟨by rw [followed]; rfl, rfl, rfl, h', by rw [replaced], size⟩

end History

end TokenGame
