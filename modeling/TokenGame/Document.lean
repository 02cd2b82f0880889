import TokenGame.Count

/-! What data formats have in common. A document of a format can be read as one of
the kinds of values that models, requests and reports are made of; how each kind
is written is the format's business. -/
namespace TokenGame

/-- Why a document cannot be read as a value: it denotes no value at all, or one
of another kind. -/
inductive DecodeError where
  | malformed
  | mismatch
  deriving DecidableEq, Repr

abbrev Decoded (α : Type) := Except DecodeError α

/-- Something wrong in a record, after some number of fields. A record is read as it
is written, so of two faults the one after fewer fields is met. -/
structure Fault where
  position : Nat
  cause : DecodeError
  deriving DecidableEq, Repr

def Fault.earlier (a b : Fault) : Fault := if b.position < a.position then b else a

/-- What reading some fields of a record gives: a value, or the first fault. -/
inductive Attempt (α : Type) where
  | value (a : α)
  | fault (f : Fault)
  deriving DecidableEq, Repr

namespace Attempt

variable {α β : Type}

def apply : Attempt (α → β) → Attempt α → Attempt β
  | .value f, .value a => .value (f a)
  | .value _, .fault f => .fault f
  | .fault f, .value _ => .fault f
  | .fault f, .fault g => .fault (f.earlier g)

instance : Applicative Attempt where
  pure := .value
  seq f a := f.apply (a ())

@[simp] theorem map_value (f : α → β) (a : α) : f <$> Attempt.value a = .value (f a) := rfl

@[simp] theorem value_seq_value (f : α → β) (a : α) :
    Attempt.value f <*> Attempt.value a = .value (f a) := rfl

/-- A value that is read after some number of fields. -/
def ofDecoded (position : Nat) : Decoded α → Attempt α
  | .ok a => .value a
  | .error cause => .fault ⟨position, cause⟩

@[simp] theorem ofDecoded_ok (position : Nat) (a : α) : ofDecoded position (.ok a) = .value a := rfl

def toDecoded : Attempt α → Decoded α
  | .value a => .ok a
  | .fault f => .error f.cause

@[simp] theorem toDecoded_value (a : α) : (Attempt.value a).toDecoded = .ok a := rfl

end Attempt

/-- A value in a record, after some number of fields. -/
structure Written (δ : Type) where
  position : Nat
  value : δ
  deriving Repr

/-- The fields of a record, in the order in which the record's type declares them;
a field that is left out is `none`. -/
structure Fields (δ : Type) where
  values : List (Option (Written δ))
  /-- How many fields are written, declared or not. -/
  size : Nat
  /-- The record was written as a list, where a field is known by its position. -/
  positional : Bool
  /-- What is wrong with the record, whatever its fields hold. -/
  fault : Option Fault := none

class Document (δ : Type) where
  bool : δ → Decoded Bool
  /-- A number that is a 64-bit word. -/
  word : δ → Decoded Nat
  text : δ → Decoded String
  /-- One of a fixed set of names. -/
  variant : δ → Decoded String
  option : δ → Decoded (Option δ)
  list : δ → Decoded (List δ)
  /-- Entries by key, in the order in which they are written. -/
  map : δ → Decoded (List (Decoded String × δ))
  /-- A record of the named type. Each field is given with all its spellings; it
  may be written once, and fields that are not declared are passed over. -/
  record : (type : String) → (fields : List (List String)) → δ → Decoded (Fields δ)

namespace Fields

variable {δ : Type}

def get? (f : Fields δ) (index : Nat) : Option (Written δ) := (f.values[index]?).join

/-- A field that is missing is missed at the end of the record. -/
def missing (f : Fields δ) : Attempt α := .fault ⟨f.size, .mismatch⟩

/-- A field that has to be written. -/
def required (f : Fields δ) (index : Nat) (read : δ → Decoded α) : Attempt α :=
  match f.get? index with
  | some w => .ofDecoded w.position (read w.value)
  | none => f.missing

/-- A field that has a value of its own when it is left out. -/
def defaulted (f : Fields δ) (index : Nat) (read : δ → Decoded α) (value : α) : Attempt α :=
  match f.get? index with
  | some w => .ofDecoded w.position (read w.value)
  | none => .value value

/-- A field that may be left out where fields are named. -/
def named (f : Fields δ) (index : Nat) (read : δ → Decoded (Option α)) : Attempt (Option α) :=
  match f.get? index with
  | some w => .ofDecoded w.position (read w.value)
  | none => if f.positional then f.missing else .value none

/-- The record's value, once its fields have been read. -/
def complete (f : Fields δ) (fields : Attempt α) : Decoded α :=
  match f.fault with
  | none => fields.toDecoded
  | some fault => (Attempt.apply (.fault fault : Attempt (α → α)) fields).toDecoded

/-- Puts the fields from a position on where they are declared. A field that is
written twice is a fault, and nothing is read after a fault. -/
def place (declared : List (List String)) (position : Nat) (f : Fields δ) :
    List (Decoded String × δ) → Fields δ
  | [] => f
  | (.error cause, _) :: _ => { f with fault := some ⟨position, cause⟩ }
  | (.ok key, d) :: rest =>
    match declared.findIdx? (·.contains key) with
    | none => place declared (position + 1) f rest
    | some index =>
      if (f.get? index).isSome then { f with fault := some ⟨position, .mismatch⟩ }
      else
        let values := f.values.set index (some ⟨position, d⟩)
        place declared (position + 1) { f with values } rest

def ofNamed (declared : List (List String)) (written : List (Decoded String × δ)) : Fields δ :=
  place declared 0
    { values := declared.map fun _ => none, size := written.length, positional := false } written

/-- Takes fields by position; the last ones may be left off. Formats differ in what
they say about surplus items. -/
def ofPositions (declared : List (List String)) (items : List δ) (surplus : Option DecodeError) :
    Fields δ where
  values := declared.mapIdx fun index _ => (items[index]?).map (Written.mk index)
  size := items.length
  positional := true
  fault := if declared.length < items.length then surplus.map (Fault.mk declared.length) else none

end Fields

namespace Document

variable {δ : Type} [Document δ]

def count (d : δ) : Decoded Count := (word d).map Nat.toUInt64

/-- A value that may be absent. -/
def optional (read : δ → Decoded α) (d : δ) : Decoded (Option α) := do
  match ← option d with
  | some inner => return some (← read inner)
  | none => return none

def listOf (read : δ → Decoded α) (d : δ) : Decoded (List α) := do
  (← list d).mapM read

def mapOf (read : δ → Decoded α) (d : δ) : Decoded (List (String × α)) := do
  (← map d).mapM fun e => do return (← e.1, ← read e.2)

end Document

end TokenGame
