import TokenGame.Log
import TokenGame.Marking

/-! The firings of a simulation, with a cursor that can go back and forth. Adding
an entry in the middle starts a new branch: the entries after the cursor are
dropped. -/
namespace TokenGame

inductive HistoryError where
  | alreadyInitialized
  | empty
  | indexOutOfRange (index length : Nat)
  deriving DecidableEq, Repr

def HistoryError.message : HistoryError → String
  | .alreadyInitialized => "history is already initialized"
  | .empty => "history is empty"
  | .indexOutOfRange index length =>
    s!"history index {index} is out of range (length {length})"

/-- A marking and the transition that led to it, except for the first one. -/
structure Entry where
  fired : Option String
  marking : Marking
  /-- When the entry was made, as the number of the reading of the clock. -/
  time : Nat
  deriving DecidableEq, Repr, Inhabited

structure History where
  entries : Array Entry
  cursor : Option Nat
  deriving DecidableEq, Repr

namespace History

def empty : History := ⟨#[], none⟩

/-- The history that holds a start marking only. -/
def single (m : Marking) (time : Nat) : History := ⟨#[⟨none, m, time⟩], some 0⟩

def size (h : History) : Nat := h.entries.size

def isEmpty (h : History) : Bool := h.entries.isEmpty

/-- The entry at the cursor. -/
def current? (h : History) : Option Entry := h.cursor.bind fun c => h.entries[c]?

/-- Puts the start marking into an empty history. Without a clock the time is 0. -/
def start (h : History) (m : Marking) (time : Nat := 0) : Except HistoryError History :=
  if h.isEmpty then .ok (single m time) else .error .alreadyInitialized

/-- Adds an entry after the cursor, drops what followed, and moves to it. -/
def append (h : History) (fired : String) (m : Marking) (time : Nat := 0) :
    Except HistoryError History :=
  match h.cursor with
  | none => .error .empty
  | some c =>
    .ok ⟨(h.entries.shrink (c + 1)).push ⟨some fired, m, time⟩, some (min h.entries.size (c + 1))⟩

/-- The record made when an entry is added in the middle. -/
def appendLog (h : History) : Log :=
  match h.cursor with
  | none => []
  | some c =>
    let dropped := h.entries.size - (c + 1)
    if 0 < dropped then [⟨.debug, s!"branching at entry {c}, dropping {dropped} entries"⟩] else []

def goto (h : History) (index : Nat) : Except HistoryError History :=
  if index < h.entries.size then .ok { h with cursor := some index }
  else .error (.indexOutOfRange index h.entries.size)

def stepBack (h : History) : Except HistoryError History :=
  match h.cursor with
  | none => .error .empty
  | some 0 => .error (.indexOutOfRange 0 h.entries.size)
  | some (c + 1) => h.goto c

def stepForward (h : History) : Except HistoryError History :=
  match h.cursor with
  | none => .error .empty
  | some c => h.goto (c + 1)

/-- An entry that was added is the current one. -/
theorem current?_append {h next : History} {fired : String} {m : Marking} {time : Nat}
    (inside : ∀ c, h.cursor = some c → c < h.size) (step : h.append fired m time = .ok next) :
    next.current? = some ⟨some fired, m, time⟩ := by
  unfold append at step
  split at step
  · cases step
  · rename_i c at_c
    cases step
    have room : c + 1 ≤ h.entries.size := inside c at_c
    simp [current?, Array.getElem?_push, Nat.min_eq_left room, Nat.min_eq_right room]

end History

end TokenGame
