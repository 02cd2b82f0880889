import TokenGame.Json.Document
import TokenGame.Proofs.Document

/-! What JSON documents are read as: each kind of value by its own constructor, and an object as
a record by the names of its fields. -/
namespace TokenGame

open Fields (valuesOf Decodes Defaulted)

variable {α : Type}

namespace Json

/-! ### Values -/

theorem text_eq_ok_iff {v : Json} {s : String} : Document.text v = .ok s ↔ v = .string s := by
  rcases v with _ | _ | _ | _ | (_ | text) | _ | _ <;> simp [Document.text, Json.string]

theorem word_eq_ok_iff {v : Json} {n : Nat} :
    Document.word v = .ok n ↔ v = .natural n ∧ n < Count.limit := by
  cases v with
  | natural m =>
    by_cases small : m < Count.limit
    · simp only [Document.word, small, if_true, Except.ok.injEq, natural.injEq]
      exact ⟨fun same => ⟨same, same ▸ small⟩, And.left⟩
    · simp only [Document.word, small, if_false, reduceCtorEq, natural.injEq, false_iff]
      rintro ⟨rfl, inside⟩
      exact small inside
  | _ => simp [Document.word]

theorem word_natural {n : Nat} (small : n < Count.limit) :
    Document.word (Json.natural n) = .ok n :=
  word_eq_ok_iff.mpr ⟨rfl, small⟩

theorem optional_of_ne_null {v : Json} (present : v ≠ .null) (read : Json → Decoded α) :
    Document.optional read v = (read v).map some := by
  have inner : Document.option v = .ok (some v) := by
    cases v with
    | null => exact absurd rfl present
    | _ => rfl
  cases decoded : read v <;>
    simp [Document.optional, inner, decoded, Except.map, bind, Except.bind, pure, Except.pure]

theorem optional_eq_none_iff {read : Json → Decoded α} {v : Json} :
    Document.optional read v = .ok none ↔ v = .null := by
  by_cases null : v = .null
  · simp only [null, iff_true]
    rfl
  · rw [optional_of_ne_null null]
    cases read v <;> simp [Except.map, null]

theorem optional_eq_some_iff {read : Json → Decoded α} {v : Json} {a : α} :
    Document.optional read v = .ok (some a) ↔ v ≠ .null ∧ read v = .ok a := by
  by_cases null : v = .null
  · rw [optional_eq_none_iff.mpr null]
    simp [null]
  · rw [optional_of_ne_null null]
    cases read v <;> simp [Except.map, null]

/-- A value that is written as null would be read as absent. -/
theorem optional_option {read : Json → Decoded α} {write : α → Json} {o : Option α}
    (present : ∀ a, write a ≠ .null) (each : ∀ a ∈ o, read (write a) = .ok a) :
    Document.optional read (.option write o) = .ok o := by
  cases o with
  | none => exact optional_eq_none_iff.mpr rfl
  | some a => exact optional_eq_some_iff.mpr ⟨present a, each a rfl⟩

theorem mapM_eq_ok_iff {read : Json → Decoded α} {items : List Json} {parts : List α} :
    items.mapM read = .ok parts ↔ List.Forall₂ (Decodes read) parts items := by
  induction items generalizing parts with
  | nil => cases parts <;> simp [pure, Except.pure]
  | cons v items ih =>
    rw [List.mapM_cons]
    cases head : read v with
    | error cause => cases parts <;> simp [head, Decodes, bind, Except.bind]
    | ok a =>
      cases tail : items.mapM read with
      | error cause => cases parts <;> simp [head, Decodes, bind, Except.bind, ← ih, tail]
      | ok as =>
        cases parts <;> simp [head, Decodes, bind, Except.bind, pure, Except.pure, ← ih, tail]

/-- A list holds the parts, in their order. -/
def ListOf (written : α → Json → Prop) (parts : List α) (v : Json) : Prop :=
  ∃ items, v = .list items ∧ List.Forall₂ written parts items

theorem listOf_eq_ok_iff {read : Json → Decoded α} {parts : List α} {v : Json} :
    Document.listOf read v = .ok parts ↔ ListOf (Decodes read) parts v := by
  cases v with
  | list items =>
    have listed : Document.listOf read (.list items) = items.mapM read := rfl
    simp [listed, ListOf, mapM_eq_ok_iff]
  | _ => simp [Document.listOf, Document.list, ListOf, bind, Except.bind]

theorem mapOf_record {read : Json → Decoded α} {write : α → Json}
    (each : ∀ a, read (write a) = .ok a) (items : List (String × α)) :
    Document.mapOf read (.record (items.map fun e => (e.1, write e.2))) = .ok items := by
  have all : (entries ((items.map fun e => (e.1, write e.2)).map fun f => (some f.1, f.2))).mapM
      (fun e => do return (← e.1, ← read e.2)) = .ok items := by
    induction items with
    | nil => rfl
    | cons e items ih =>
      have head : (do return (← key (some e.1), ← read (write e.2))) = .ok e := by
        rw [each]
        rfl
      simp only [entries, List.map_cons, List.mapM_cons, head] at ih ⊢
      rw [ih]
      rfl
  exact all

/-! ### Objects -/

theorem entries_eq_map_ok_iff {fields : List (Option String × Json)}
    {named : List (String × Json)} : entries fields = named.map (fun f => (.ok f.1, f.2)) ↔
      Json.object fields = .record named := by
  simp only [entries, record, object.injEq]
  induction fields generalizing named with
  | nil => cases named <;> simp
  | cons field fields ih =>
    have unread : key none = .error .malformed := rfl
    have read (name : String) : key (some name) = .ok name := rfl
    obtain ⟨_ | name, v⟩ := field <;> cases named <;> simp [unread, read, ih, Prod.ext_iff]

/-- An object is read as a record only if all names are texts. -/
theorem record_of_complete {declared : List (List String)} {fields : List (Option String × Json)}
    {attempt : Attempt α} {a : α}
    (read : (Fields.ofNamed declared (entries fields)).complete attempt = .ok a) :
    ∃ named, Json.object fields = .record named := by
  obtain ⟨sound, _⟩ := Fields.complete_eq_ok_iff.mp read
  obtain ⟨named, same, _⟩ := Fields.fault_ofNamed_eq_none_iff.mp sound
  exact ⟨named, entries_eq_map_ok_iff.mp same⟩

/-- What a record is read as whose fields have one name each. -/
theorem decode_record_iff {names : List String} (distinct : names.Nodup)
    {fields : List (String × Json)} {read : Fields Json → Attempt α} {a : α} {written : Prop}
    (once : written → ∀ name ∈ names, (valuesOf name fields).length ≤ 1)
    (each : ∀ f : Fields Json, f.ByName names fields → (read f = .value a ↔ written))
    (type : String) :
    (Document.record type (names.map ([·])) (Json.record fields) >>=
      fun f => f.complete (read f)) = .ok a ↔ written := by
  have record : Document.record type (names.map ([·])) (Json.record fields) =
      .ok (Fields.ofNamed (names.map ([·])) (fields.map fun f => (.ok f.1, f.2))) := by
    rw [← entries_eq_map_ok_iff.mpr (rfl : Json.object _ = .record fields)]
    rfl
  rw [record]
  exact Fields.complete_byName_iff distinct once each

/-- A record whose fields are written once each is read if its fields are. -/
theorem decode_record {names : List String} (distinct : names.Nodup)
    {fields : List (String × Json)} (once : ∀ name ∈ names, (valuesOf name fields).length ≤ 1)
    {read : Fields Json → Attempt α} {a : α}
    (each : ∀ f : Fields Json, f.ByName names fields → read f = .value a) (type : String) :
    (Document.record type (names.map ([·])) (Json.record fields) >>=
      fun f => f.complete (read f)) = .ok a :=
  (decode_record_iff distinct (fun _ => once)
    (fun f byName => iff_of_true (each f byName) trivial) type).mpr trivial

end Json

/-- A value is read as absent if its field is left out or null. -/
theorem Fields.Defaulted.absent_iff {read : Json → Decoded α}
    {o : Option α} {values : List Json}
    (field : Defaulted none (Decodes (Document.optional read)) o values) :
    o.isSome = false ↔ values = [] ∨ values = [.null] := by
  obtain ⟨v, rfl, decodes⟩ | ⟨rfl, rfl⟩ := field
  · cases o with
    | none =>
      obtain rfl := Json.optional_eq_none_iff.mp decodes
      simp
    | some a =>
      have present := (Json.optional_eq_some_iff.mp decodes).1
      simp [present]
  · simp

end TokenGame
