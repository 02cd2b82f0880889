import Mathlib.Data.List.Nodup
import TokenGame.Document

/-! What reading a record by names gives. If no declared field is written twice, every declared
field holds what is written for it, whatever the order of the fields and whatever other fields
there are; otherwise the record is refused. -/
namespace TokenGame

namespace Attempt

variable {α β : Type}

theorem map_eq_value_iff {f : α → β} {a : Attempt α} {b : β} :
    f <$> a = .value b ↔ ∃ x, a = .value x ∧ f x = b := by
  cases a with
  | value x => simp
  | fault cause =>
    have faulty : f <$> (.fault cause : Attempt α) = .fault cause := rfl
    simp [faulty]

theorem seq_eq_value_iff {f : Attempt (α → β)} {a : Attempt α} {b : β} :
    f <*> a = .value b ↔ ∃ g x, f = .value g ∧ a = .value x ∧ g x = b := by
  have applied : f <*> a = f.apply a := rfl
  cases f <;> cases a <;> simp [applied, apply]

end Attempt

namespace Fields

variable {δ α : Type}

/-- What is written for a field. -/
def value? (f : Fields δ) (index : Nat) : Option δ := (f.get? index).map Written.value

/-- Where a record's type declares a field. -/
def declaredAt? (declared : List (List String)) (key : String) : Option Nat :=
  declared.findIdx? (·.contains key)

/-- The value written for the declared field with an index. -/
def written? (declared : List (List String)) (fields : List (String × δ)) (index : Nat) :
    Option δ :=
  (fields.find? fun f => declaredAt? declared f.1 == some index).map Prod.snd

/-- The fields of a record were read as they are written, without a fault. -/
structure Reads (f : Fields δ) (declared : List (List String)) (fields : List (String × δ)) :
    Prop where
  named : f.positional = false
  sound : f.fault = none
  value : ∀ index, f.value? index = written? declared fields index

theorem value?_set (f : Fields δ) (i j position : Nat) (d : δ) (inside : i < f.values.length) :
    value? { f with values := f.values.set i (some ⟨position, d⟩) } j =
      if i = j then some d else f.value? j := by
  by_cases same : i = j
  · subst same
    simp [value?, get?, inside]
  · simp [value?, get?, same]

theorem written?_cons (declared : List (List String)) (key : String) (d : δ)
    (fields : List (String × δ)) (i : Nat) : written? declared ((key, d) :: fields) i =
      if declaredAt? declared key = some i then some d else written? declared fields i := by
  by_cases known : declaredAt? declared key = some i <;> simp [written?, known]

theorem written?_eq_none {declared : List (List String)} {fields : List (String × δ)} {i : Nat}
    (absent : i ∉ fields.filterMap (declaredAt? declared ·.1)) :
    written? declared fields i = none := by
  simpa [written?] using absent

/-- Fields that are placed after others keep them and add what is written. -/
theorem place_reads {declared : List (List String)} {fields : List (String × δ)} {f : Fields δ}
    (named : f.positional = false) (sound : f.fault = none)
    (sized : f.values.length = declared.length)
    (once : (fields.filterMap (declaredAt? declared ·.1)).Nodup)
    (fresh : ∀ i ∈ fields.filterMap (declaredAt? declared ·.1), f.value? i = none)
    (position : Nat) :
    let read := place declared position f (fields.map fun f => (.ok f.1, f.2))
    read.positional = false ∧ read.fault = none ∧
      ∀ i, read.value? i = (written? declared fields i).or (f.value? i) := by
  induction fields generalizing f position with
  | nil => exact ⟨named, sound, fun _ => rfl⟩
  | cons entry fields ih =>
    obtain ⟨key, d⟩ := entry
    cases known : declaredAt? declared key with
    | none =>
      simp only [List.filterMap_cons, known] at once fresh
      have placed := ih named sound sized once fresh (position + 1)
      have skipped : declared.findIdx? (·.contains key) = none := known
      simpa only [List.map_cons, place, skipped, written?_cons, known, reduceCtorEq,
        if_false] using placed
    | some index =>
      simp only [List.filterMap_cons, known, List.nodup_cons, List.forall_mem_cons] at once fresh
      have found : declared.findIdx? (·.contains key) = some index := known
      have inside : index < f.values.length := by
        rw [sized]
        exact (List.findIdx?_eq_some_iff_findIdx_eq.mp found).1
      have free : (f.get? index).isSome = false := by
        simpa [value?] using fresh.1
      have kept := fun i => value?_set f index i position d inside
      have placed := ih (f := { f with values := f.values.set index (some ⟨position, d⟩) }) named
        sound (by simpa using sized) once.2 ?_ (position + 1)
      · simp only [List.map_cons, place, found, free, Bool.false_eq_true, if_false]
        refine ⟨placed.1, placed.2.1, fun i => ?_⟩
        rw [placed.2.2, kept, written?_cons, known]
        by_cases same : index = i
        · subst same
          simp [written?_eq_none once.1]
        · simp [same]
      · intro i later
        have other : index ≠ i := by
          rintro rfl
          exact once.1 later
        rw [kept, if_neg other]
        exact fresh.2 i later

theorem value?_blank (declared : List (List String)) (size i : Nat) :
    value? (⟨declared.map fun _ => none, size, false, none⟩ : Fields δ) i = none := by
  simp only [value?, get?, List.getElem?_map]
  cases declared[i]? <;> rfl

/-- A record is read as it is written if no declared field is written twice. -/
theorem ofNamed_reads {declared : List (List String)} {fields : List (String × δ)}
    (once : (fields.filterMap (declaredAt? declared ·.1)).Nodup) :
    (ofNamed declared (fields.map fun f => (.ok f.1, f.2))).Reads declared fields := by
  obtain ⟨named, sound, values⟩ := place_reads (f := ⟨declared.map fun _ => none, _, false, none⟩)
    rfl rfl (by simp) once (fun i _ => value?_blank declared _ i) 0
  refine ⟨named, sound, fun i => ?_⟩
  rw [ofNamed, values i, value?_blank, Option.or_none]

namespace Reads

variable {f : Fields δ} {declared : List (List String)} {fields : List (String × δ)} {d : δ}
  {read : δ → Decoded α} {a : α} (reads : f.Reads declared fields)
include reads

theorem required {index : Nat} (found : written? declared fields index = some d)
    (decoded : read d = .ok a) : f.required index read = .value a := by
  have held := reads.value index
  rw [found, value?, Option.map_eq_some_iff] at held
  obtain ⟨w, got, rfl⟩ := held
  simp [Fields.required, got, decoded]

theorem defaulted {index : Nat} (found : written? declared fields index = some d)
    (decoded : read d = .ok a) (default : α) : f.defaulted index read default = .value a := by
  have held := reads.value index
  rw [found, value?, Option.map_eq_some_iff] at held
  obtain ⟨w, got, rfl⟩ := held
  simp [Fields.defaulted, got, decoded]

theorem omitted {index : Nat} (absent : written? declared fields index = none) (default : α) :
    f.defaulted index read default = .value default := by
  have held := reads.value index
  rw [absent, value?, Option.map_eq_none_iff] at held
  simp [Fields.defaulted, held]

theorem complete (a : α) : f.complete (.value a) = .ok a := by
  simp [Fields.complete, reads.sound]

end Reads

/-! ### Refused records -/

theorem complete_eq_ok_iff {f : Fields δ} {fields : Attempt α} {a : α} :
    f.complete fields = .ok a ↔ f.fault = none ∧ fields = .value a := by
  unfold complete
  cases f.fault with
  | none => cases fields <;> simp [Attempt.toDecoded]
  | some fault => cases fields <;> simp [Attempt.apply, Attempt.toDecoded]

/-- Without a fault every key was read, and no declared field was written twice. -/
theorem place_sound {declared : List (List String)} {written : List (Decoded String × δ)}
    {f : Fields δ} (sized : f.values.length = declared.length) {position : Nat}
    (sound : (place declared position f written).fault = none) :
    ∃ fields : List (String × δ), written = fields.map (fun f => (.ok f.1, f.2)) ∧
      (fields.filterMap (declaredAt? declared ·.1)).Nodup ∧
      ∀ i ∈ fields.filterMap (declaredAt? declared ·.1), f.value? i = none := by
  induction written generalizing f position with
  | nil => exact ⟨[], rfl, .nil, by simp⟩
  | cons entry written ih =>
    obtain ⟨key | key, d⟩ := entry
    · cases sound
    · cases known : declaredAt? declared key with
      | none =>
        have skipped : declared.findIdx? (·.contains key) = none := known
        simp only [place, skipped] at sound
        obtain ⟨fields, rfl, once, fresh⟩ := ih sized sound
        exact ⟨(key, d) :: fields, rfl, by simpa [known] using once, by simpa [known] using fresh⟩
      | some index =>
        have found : declared.findIdx? (·.contains key) = some index := known
        have inside : index < f.values.length := by
          rw [sized]
          exact (List.findIdx?_eq_some_iff_findIdx_eq.mp found).1
        simp only [place, found] at sound
        split at sound
        · cases sound
        · rename_i free
          obtain ⟨fields, rfl, once, fresh⟩ := ih (by simpa using sized) sound
          have kept := fun i => value?_set f index i position d inside
          have apart : index ∉ fields.filterMap (declaredAt? declared ·.1) := by
            intro later
            have none := fresh index later
            rw [kept, if_pos rfl] at none
            cases none
          refine ⟨(key, d) :: fields, rfl, ?_, ?_⟩
          · simpa [known] using ⟨by simpa using apart, once⟩
          · intro i member
            simp only [List.filterMap_cons, known, List.mem_cons] at member
            rcases member with rfl | later
            · simpa [value?] using free
            · have other : index ≠ i := by
                rintro rfl
                exact apart later
              have none := fresh i later
              rwa [kept, if_neg other] at none

/-- A record that is read by names has no fault if every key is a text and no declared field is
written twice. -/
theorem fault_ofNamed_eq_none_iff {declared : List (List String)}
    {written : List (Decoded String × δ)} : (ofNamed declared written).fault = none ↔
      ∃ fields : List (String × δ), written = fields.map (fun f => (.ok f.1, f.2)) ∧
        (fields.filterMap (declaredAt? declared ·.1)).Nodup := by
  constructor
  · intro sound
    obtain ⟨fields, same, once, _⟩ := place_sound (by simp) sound
    exact ⟨fields, same, once⟩
  · rintro ⟨fields, rfl, once⟩
    exact (ofNamed_reads once).sound

theorem fault_ofNamed_map_eq_none_iff {declared : List (List String)}
    {fields : List (String × δ)} :
    (ofNamed declared (fields.map fun f => (.ok f.1, f.2))).fault = none ↔
      (fields.filterMap (declaredAt? declared ·.1)).Nodup := by
  have entry : Function.Injective fun f : String × δ => ((.ok f.1 : Decoded String), f.2) := by
    rintro ⟨name, d⟩ ⟨name', d'⟩ same
    cases same
    rfl
  rw [fault_ofNamed_eq_none_iff]
  constructor
  · rintro ⟨fields', same, once⟩
    rwa [entry.list_map same]
  · exact fun once => ⟨fields, rfl, once⟩

/-! ### Records whose fields have one name each -/

/-- The values that are written under a name. -/
def valuesOf (name : String) (fields : List (String × δ)) : List δ :=
  (fields.filter (·.1 == name)).map Prod.snd

variable {names : List String} {fields : List (String × δ)}

theorem declaredAt?_names (distinct : names.Nodup) {key : String} {i : Nat} :
    declaredAt? (names.map ([·])) key = some i ↔ names[i]? = some key := by
  rw [declaredAt?, List.findIdx?_map, List.findIdx?_eq_some_iff_getElem]
  constructor
  · rintro ⟨inside, same, _⟩
    have equal : key = names[i] := by simpa using same
    rw [List.getElem?_eq_getElem inside, equal]
  · intro found
    obtain ⟨inside, rfl⟩ := List.getElem?_eq_some_iff.mp found
    refine ⟨inside, by simp, fun j earlier same => ?_⟩
    have equal : names[i] = names[j] := by simpa using same
    have := (List.Nodup.getElem_inj_iff distinct).mp equal
    omega

theorem written?_names (distinct : names.Nodup) {name : String} {i : Nat}
    (declared : names[i]? = some name) :
    written? (names.map ([·])) fields i = (valuesOf name fields).head? := by
  have same : (fun f : String × δ => declaredAt? (names.map ([·])) f.1 == some i) =
      fun f => f.1 == name := by
    funext f
    rw [Bool.eq_iff_iff, beq_iff_eq, beq_iff_eq, declaredAt?_names distinct, declared,
      Option.some_inj, eq_comm]
  rw [written?, same, valuesOf, List.head?_map, List.head?_filter]

/-- No field is written twice if there is at most one value under each name. -/
theorem nodup_names (distinct : names.Nodup) :
    (fields.filterMap (declaredAt? (names.map ([·])) ·.1)).Nodup ↔
      ∀ name ∈ names, (valuesOf name fields).length ≤ 1 := by
  have counted {name : String} {i : Nat} (declared : names[i]? = some name) :
      (fields.filterMap (declaredAt? (names.map ([·])) ·.1)).count i =
        (valuesOf name fields).length := by
    rw [List.count_filterMap, valuesOf, List.length_map, ← List.countP_eq_length_filter]
    refine List.countP_congr fun f _ => ?_
    rw [beq_iff_eq, beq_iff_eq, declaredAt?_names distinct, declared, Option.some_inj, eq_comm]
  rw [List.nodup_iff_count_le_one]
  constructor
  · intro once name member
    obtain ⟨i, declared⟩ := List.getElem?_of_mem member
    rw [← counted declared]
    exact once i
  · intro once i
    cases declared : names[i]? with
    | some name =>
      rw [counted declared]
      exact once name (List.mem_of_getElem? declared)
    | none =>
      have absent : i ∉ fields.filterMap (declaredAt? (names.map ([·])) ·.1) := by
        simp [declaredAt?_names distinct, declared]
      rw [List.count_eq_zero_of_not_mem absent]
      exact Nat.zero_le 1

/-- Reading the document gives the value. -/
def Decodes (read : δ → Decoded α) (a : α) (d : δ) : Prop := read d = .ok a

/-- The values of a field that is written once, with such a value. -/
def Once (written : α → δ → Prop) (a : α) (values : List δ) : Prop :=
  ∃ d, values = [d] ∧ written a d

/-- The values of a field that is written once, or not at all if it holds its default. -/
def Defaulted (default : α) (written : α → δ → Prop) (a : α) (values : List δ) : Prop :=
  Once written a values ∨ values = [] ∧ a = default

theorem Once.length_le {written : α → δ → Prop} {a : α} {values : List δ}
    (field : Once written a values) : values.length ≤ 1 := by
  obtain ⟨d, rfl, _⟩ := field
  exact Nat.le_refl 1

theorem Defaulted.length_le {default a : α} {written : α → δ → Prop} {values : List δ}
    (field : Defaulted default written a values) : values.length ≤ 1 := by
  obtain once | ⟨rfl, _⟩ := field
  · exact once.length_le
  · exact Nat.zero_le 1

/-- The fields of a record were read by their names, and none is written twice. -/
structure ByName (f : Fields δ) (names : List String) (fields : List (String × δ)) : Prop where
  distinct : names.Nodup
  once : ∀ name ∈ names, (valuesOf name fields).length ≤ 1
  reads : f.Reads (names.map ([·])) fields

namespace ByName

variable {f : Fields δ} {read : δ → Decoded α} {name : String} {i : Nat}
  (byName : f.ByName names fields) (declared : names[i]? = some name)
include byName declared

/-- A field is left out, or its only value is held. -/
theorem get?_cases : (f.get? i = none ∧ valuesOf name fields = []) ∨
    ∃ w, f.get? i = some w ∧ valuesOf name fields = [w.value] := by
  have once := byName.once name (List.mem_of_getElem? declared)
  have held := byName.reads.value i
  rw [written?_names byName.distinct declared, value?] at held
  generalize valuesOf name fields = values at once held
  rcases values with _ | ⟨d, _ | ⟨_, rest⟩⟩
  · exact .inl ⟨by simpa using held, rfl⟩
  · obtain ⟨w, got, rfl⟩ := Option.map_eq_some_iff.mp held
    exact .inr ⟨w, got, rfl⟩
  · simp at once

theorem required_iff (a : α) : f.required i read = .value a ↔
    Once (Decodes read) a (valuesOf name fields) := by
  obtain ⟨absent, values⟩ | ⟨w, got, values⟩ := byName.get?_cases declared
  · simp [Fields.required, absent, missing, Once, values]
  · cases decoded : read w.value <;>
      simp [Fields.required, got, Once, Decodes, values, decoded, Attempt.ofDecoded]

theorem defaulted_iff (default a : α) : f.defaulted i read default = .value a ↔
    Defaulted default (Decodes read) a (valuesOf name fields) := by
  obtain ⟨absent, values⟩ | ⟨w, got, values⟩ := byName.get?_cases declared
  · simp [Fields.defaulted, absent, Defaulted, Once, values, eq_comm]
  · cases decoded : read w.value <;>
      simp [Fields.defaulted, got, Defaulted, Once, Decodes, values, decoded, Attempt.ofDecoded]

/-- Where fields are named, a field that may be left out is absent by default. -/
theorem named_iff {read : δ → Decoded (Option α)} (a : Option α) : f.named i read = .value a ↔
    Defaulted none (Decodes read) a (valuesOf name fields) := by
  have same : f.named i read = f.defaulted i read none := by
    unfold Fields.named Fields.defaulted
    rw [byName.reads.named]
    rfl
  rw [same, byName.defaulted_iff declared]

end ByName

/-- What a record is read as, from what its fields are read as. -/
theorem complete_byName_iff (distinct : names.Nodup) {read : Fields δ → Attempt α} {a : α}
    {written : Prop} (once : written → ∀ name ∈ names, (valuesOf name fields).length ≤ 1)
    (each : ∀ f : Fields δ, f.ByName names fields → (read f = .value a ↔ written)) :
    let f := ofNamed (names.map ([·])) (fields.map fun f => (.ok f.1, f.2))
    f.complete (read f) = .ok a ↔ written := by
  intro f
  rw [complete_eq_ok_iff]
  constructor
  · rintro ⟨sound, value⟩
    have nodup := fault_ofNamed_map_eq_none_iff.mp sound
    exact (each f ⟨distinct, (nodup_names distinct).mp nodup, ofNamed_reads nodup⟩).mp value
  · intro wrote
    have reads := ofNamed_reads ((nodup_names distinct).mpr (once wrote))
    exact ⟨reads.sound, (each f ⟨distinct, once wrote, reads⟩).mpr wrote⟩

end Fields

end TokenGame
