import TokenGame.Proofs.Codec.Model
import TokenGame.Proofs.Json.Document

/-! Which JSON objects are read as a model, and as which. The order of the fields does not
matter, fields that are not known are passed over, and a field that holds its default may be left
out. An object is refused if a required field is missing, a known field is repeated, or a count is
not written in plain digits or is too large. -/
namespace TokenGame

open Fields (valuesOf Decodes Once Defaulted)

variable {α : Type}

namespace Json

theorem count_eq_ok_iff {v : Json} {n : Count} : Document.count v = .ok n ↔ v = n.toJson := by
  constructor
  · intro read
    cases word : Document.word v with
    | error cause => simp [Document.count, word, Except.map] at read
    | ok m =>
      obtain ⟨rfl, small⟩ := word_eq_ok_iff.mp word
      obtain rfl : m.toUInt64 = n := by simpa [Document.count, word, Except.map] using read
      have same : m.toUInt64.toNat = m := UInt64.toNat_ofNat_of_lt small
      rw [Count.toJson, same]
  · rintro rfl
    exact scheme.count_source n

theorem label_eq_ok_iff {v : Json} {label : Option String} :
    Document.optional Document.text v = .ok label ↔ v = .option .string label := by
  cases label with
  | none => exact optional_eq_none_iff
  | some text =>
    rw [optional_eq_some_iff, text_eq_ok_iff]
    exact and_iff_right_of_imp fun same => by simp [same, Json.string]

/-! ### Faults -/

/-- A number that is no count: it has a sign, a fraction or an exponent, or is too large. -/
def NoCount (v : Json) : Prop :=
  ∃ chars, Number.Numeral chars v ∧
    ('-' ∈ chars ∨ '.' ∈ chars ∨ 'e' ∈ chars ∨ 'E' ∈ chars ∨ Count.limit ≤ Number.value chars)

theorem NoCount.ne_toJson {v : Json} (outside : NoCount v) (n : Count) : v ≠ n.toJson := by
  rintro same
  obtain ⟨chars, numeral, cause⟩ := outside
  cases numeral with
  | decimal => cases same
  | natural whole =>
    have digit {c : Char} (member : c ∈ chars) : c.isDigit = true := whole.1.2 c member
    rcases cause with mark | mark | mark | mark | large
    · cases digit mark
    · cases digit mark
    · cases digit mark
    · cases digit mark
    · have small := n.toNat_lt_limit
      obtain same := natural.inj same
      omega

/-- The names of a record's fields, those that have to be written, and those that hold counts. -/
structure Shape where
  names : List String
  required : List String
  counts : List String

namespace Shape

/-- An object that is no record of that shape. -/
inductive Faulty (s : Shape) : Json → Prop where
  /-- A name that is not a text. -/
  | unreadable {fields : List (Option String × Json)} {v : Json} : (none, v) ∈ fields →
      Faulty s (.object fields)
  | missing {fields : List (String × Json)} {name : String} : name ∈ s.required →
      valuesOf name fields = [] → Faulty s (.record fields)
  | repeated {fields : List (String × Json)} {name : String} : name ∈ s.names →
      1 < (valuesOf name fields).length → Faulty s (.record fields)
  | miscounted {fields : List (String × Json)} {name : String} {v : Json} : name ∈ s.counts →
      v ∈ valuesOf name fields → NoCount v → Faulty s (.record fields)

structure Fits (s : Shape) (fields : List (String × Json)) : Prop where
  once : ∀ name ∈ s.names, (valuesOf name fields).length ≤ 1
  present : ∀ name ∈ s.required, valuesOf name fields ≠ []
  counted : ∀ name ∈ s.counts, ∀ v ∈ valuesOf name fields, ∃ n : Count, v = n.toJson

/-- Faulty objects are refused by a reader that takes only records of the shape. -/
theorem Faulty.refused {s : Shape} {decode : Json → Decoded α}
    (named : ∀ {fields a}, decode (.object fields) = .ok a → ∃ named, .object fields = record named)
    (fits : ∀ {fields a}, decode (record fields) = .ok a → s.Fits fields) {v : Json}
    (faulty : s.Faulty v) (a : α) : decode v ≠ .ok a := by
  intro read
  cases faulty with
  | @unreadable fields v member =>
    obtain ⟨texts, same⟩ := named read
    rw [object.inj same, List.mem_map] at member
    obtain ⟨f, _, equal⟩ := member
    cases equal
  | missing member absent => exact (fits read).present _ member absent
  | repeated member twice => exact Nat.not_le.mpr twice ((fits read).once _ member)
  | miscounted member held outside =>
    obtain ⟨n, same⟩ := (fits read).counted _ member _ held
    exact outside.ne_toJson n same

end Shape

/-! ### Fields -/

/-- An object with such fields, all of whose names are texts. -/
def RecordOf (written : α → List (String × Json) → Prop) (a : α) (v : Json) : Prop :=
  ∃ fields, v = .record fields ∧ written a fields

end Json

theorem Fields.Defaulted.counted {default n : Count} {values : List Json}
    (field : Defaulted default (fun n v => v = n.toJson) n values) :
    ∀ v ∈ values, ∃ n : Count, v = n.toJson := by
  obtain ⟨v, rfl, wrote⟩ | ⟨rfl, _⟩ := field
  · simpa using ⟨n, wrote⟩
  · simp

/-- What is held in the lists of a field was read as parts. -/
theorem Fields.Defaulted.part {written : α → Json → Prop} {parts : List α}
    {values items : List Json} {v : Json}
    (field : Defaulted [] (Json.ListOf written) parts values) (held : .list items ∈ values)
    (member : v ∈ items) : ∃ a, written a v := by
  obtain ⟨_, rfl, items', rfl, all⟩ | ⟨rfl, _⟩ := field
  · obtain rfl : items = items' := by simpa using held
    clear held
    induction all with
    | nil => cases member
    | cons wrote _ ih =>
      rcases List.mem_cons.mp member with rfl | later
      · exact ⟨_, wrote⟩
      · exact ih later
  · cases held

theorem Fields.Defaulted.decoded {written : α → List (String × Json) → Prop}
    {decode : Json → Decoded α} {parts : List α} {values : List Json}
    (field : Defaulted [] (Json.ListOf (Json.RecordOf written)) parts values)
    (each : ∀ {a fields}, decode (Json.record fields) = .ok a ↔ written a fields) :
    Defaulted [] (Json.ListOf (Decodes decode)) parts values := by
  refine field.imp_left ?_
  rintro ⟨v, same, items, rfl, all⟩
  refine ⟨_, same, items, rfl, all.imp ?_⟩
  rintro a _ ⟨fields, rfl, wrote⟩
  exact each.mpr wrote

namespace Fields.ByName

variable {names : List String} {fields : List (String × Json)} {f : Fields Json} {i : Nat}
  {name : String} (byName : f.ByName names fields) (declared : names[i]? = some name)
include byName declared

theorem required_text_iff (s : String) :
    f.required i Document.text = .value s ↔ valuesOf name fields = [.string s] := by
  rw [byName.required_iff declared]
  simp [Once, Decodes, Json.text_eq_ok_iff]

theorem defaulted_label_iff (label : Option String) :
    f.defaulted i (Document.optional Document.text) none = .value label ↔
      Defaulted none (fun label v => v = .option .string label) label (valuesOf name fields) := by
  rw [byName.defaulted_iff declared]
  simp [Defaulted, Once, Decodes, Json.label_eq_ok_iff]

theorem defaulted_count_iff (default n : Count) :
    f.defaulted i Document.count default = .value n ↔
      Defaulted default (fun n v => v = Count.toJson n) n (valuesOf name fields) := by
  rw [byName.defaulted_iff declared]
  simp [Defaulted, Once, Decodes, Json.count_eq_ok_iff]

theorem defaulted_list_iff (read : Json → Decoded α) (parts : List α) :
    f.defaulted i (Document.listOf read) [] = .value parts ↔
      Defaulted [] (Json.ListOf (Decodes read)) parts (valuesOf name fields) := by
  rw [byName.defaulted_iff declared]
  simp [Defaulted, Once, Decodes, Json.listOf_eq_ok_iff]

end Fields.ByName

/-! ### Places, transitions and arcs -/

/-- How the fields of a place are written. An absent label may also be null. -/
structure Place.WrittenIn (p : Place) (fields : List (String × Json)) : Prop where
  id : valuesOf "id" fields = [.string p.id]
  label : Defaulted none (fun label v => v = .option .string label) p.label
    (valuesOf "label" fields)
  tokens : Defaulted 0 (fun n v => v = Count.toJson n) p.tokens (valuesOf "tokens" fields)

structure Transition.WrittenIn (t : Transition) (fields : List (String × Json)) : Prop where
  id : valuesOf "id" fields = [.string t.id]
  label : Defaulted none (fun label v => v = .option .string label) t.label
    (valuesOf "label" fields)

structure Arc.WrittenIn (a : Arc) (fields : List (String × Json)) : Prop where
  id : valuesOf "id" fields = [.string a.id]
  src : valuesOf "src" fields = [.string a.src]
  dst : valuesOf "dst" fields = [.string a.dst]
  weight : Defaulted 1 (fun n v => v = Count.toJson n) a.weight (valuesOf "weight" fields)

def Place.shape : Json.Shape := ⟨["id", "label", "tokens"], ["id"], ["tokens"]⟩

def Transition.shape : Json.Shape := ⟨["id", "label"], ["id"], []⟩

def Arc.shape : Json.Shape := ⟨["id", "src", "dst", "weight"], ["id", "src", "dst"], ["weight"]⟩

theorem Place.WrittenIn.fits {p : Place} {fields : List (String × Json)}
    (wrote : p.WrittenIn fields) : Place.shape.Fits fields := by
  obtain ⟨id, label, tokens⟩ := wrote
  constructor <;> simp only [Place.shape, List.forall_mem_cons]
  · exact ⟨by simp [id], label.length_le, tokens.length_le, by simp⟩
  · simp [id]
  · exact ⟨tokens.counted, by simp⟩

theorem Transition.WrittenIn.fits {t : Transition} {fields : List (String × Json)}
    (wrote : t.WrittenIn fields) : Transition.shape.Fits fields := by
  obtain ⟨id, label⟩ := wrote
  constructor <;> simp only [Transition.shape, List.forall_mem_cons]
  · exact ⟨by simp [id], label.length_le, by simp⟩
  · simp [id]
  · simp

theorem Arc.WrittenIn.fits {a : Arc} {fields : List (String × Json)}
    (wrote : a.WrittenIn fields) : Arc.shape.Fits fields := by
  obtain ⟨id, src, dst, weight⟩ := wrote
  constructor <;> simp only [Arc.shape, List.forall_mem_cons]
  · exact ⟨by simp [id], by simp [src], by simp [dst], weight.length_le, by simp⟩
  · simp [id, src, dst]
  · exact ⟨weight.counted, by simp⟩

theorem Place.decode_record_iff {p : Place} {fields : List (String × Json)} :
    decode (Json.record fields) = .ok p ↔ p.WrittenIn fields := by
  refine Json.decode_record_iff (by decide : Place.shape.names.Nodup) (fun wrote => wrote.fits.once)
    (fun f byName => ?_) "Place"
  have id := byName.required_text_iff (i := 0) rfl
  have label := byName.defaulted_label_iff (i := 1) rfl
  have tokens := byName.defaulted_count_iff (i := 2) rfl 0
  simp only [Attempt.seq_eq_value_iff, Attempt.map_eq_value_iff, id, label, tokens]
  constructor
  · rintro ⟨_, tokens, ⟨_, label, ⟨id, named, rfl⟩, labelled, rfl⟩, counted, rfl⟩
    exact ⟨named, labelled, counted⟩
  · rintro ⟨named, labelled, counted⟩
    exact ⟨_, _, ⟨_, _, ⟨_, named, rfl⟩, labelled, rfl⟩, counted, rfl⟩

theorem Transition.decode_record_iff {t : Transition} {fields : List (String × Json)} :
    decode (Json.record fields) = .ok t ↔ t.WrittenIn fields := by
  refine Json.decode_record_iff (by decide : Transition.shape.names.Nodup)
    (fun wrote => wrote.fits.once) (fun f byName => ?_) "Transition"
  have id := byName.required_text_iff (i := 0) rfl
  have label := byName.defaulted_label_iff (i := 1) rfl
  simp only [Attempt.seq_eq_value_iff, Attempt.map_eq_value_iff, id, label]
  constructor
  · rintro ⟨_, label, ⟨id, named, rfl⟩, labelled, rfl⟩
    exact ⟨named, labelled⟩
  · rintro ⟨named, labelled⟩
    exact ⟨_, _, ⟨_, named, rfl⟩, labelled, rfl⟩

theorem Arc.decode_record_iff {a : Arc} {fields : List (String × Json)} :
    decode (Json.record fields) = .ok a ↔ a.WrittenIn fields := by
  refine Json.decode_record_iff (by decide : Arc.shape.names.Nodup) (fun wrote => wrote.fits.once)
    (fun f byName => ?_) "Arc"
  have id := byName.required_text_iff (i := 0) rfl
  have src := byName.required_text_iff (i := 1) rfl
  have dst := byName.required_text_iff (i := 2) rfl
  have weight := byName.defaulted_count_iff (i := 3) rfl 1
  simp only [Attempt.seq_eq_value_iff, Attempt.map_eq_value_iff, id, src, dst, weight]
  constructor
  · rintro ⟨_, weight, ⟨_, dst, ⟨_, src, ⟨id, named, rfl⟩, starts, rfl⟩, ends, rfl⟩, weighs, rfl⟩
    exact ⟨named, starts, ends, weighs⟩
  · rintro ⟨named, starts, ends, weighs⟩
    exact ⟨_, _, ⟨_, _, ⟨_, _, ⟨_, named, rfl⟩, starts, rfl⟩, ends, rfl⟩, weighs, rfl⟩

/-! ### Models -/

namespace Model

/-- The parts of a model are written in three lists. -/
structure PartsIn (place : Place → Json → Prop) (transition : Transition → Json → Prop)
    (arc : Arc → Json → Prop) (m : Model) (fields : List (String × Json)) : Prop where
  places : Defaulted [] (Json.ListOf place) m.places (valuesOf "places" fields)
  transitions : Defaulted [] (Json.ListOf transition) m.transitions
    (valuesOf "transitions" fields)
  arcs : Defaulted [] (Json.ListOf arc) m.arcs (valuesOf "arcs" fields)

/-- How a model is written as an object, and its parts as objects in its lists. -/
def WrittenAs : Model → Json → Prop :=
  Json.RecordOf (PartsIn (Json.RecordOf Place.WrittenIn) (Json.RecordOf Transition.WrittenIn)
    (Json.RecordOf Arc.WrittenIn))

def shape : Json.Shape := ⟨["places", "transitions", "arcs"], [], []⟩

variable {m : Model} {fields : List (String × Json)}

theorem PartsIn.fits {place : Place → Json → Prop} {transition : Transition → Json → Prop}
    {arc : Arc → Json → Prop} (wrote : PartsIn place transition arc m fields) :
    shape.Fits fields := by
  constructor <;> simp only [shape, List.forall_mem_cons]
  · exact ⟨wrote.places.length_le, wrote.transitions.length_le, wrote.arcs.length_le, by simp⟩
  · simp
  · simp

theorem decode_record_iff : decode (Json.record fields) = .ok m ↔
    PartsIn (Decodes Place.decode) (Decodes Transition.decode) (Decodes Arc.decode) m fields := by
  refine Json.decode_record_iff (by decide : shape.names.Nodup) (fun wrote => wrote.fits.once)
    (fun f byName => ?_) "NetModel"
  have places := byName.defaulted_list_iff (i := 0) rfl Place.decode
  have transitions := byName.defaulted_list_iff (i := 1) rfl Transition.decode
  have arcs := byName.defaulted_list_iff (i := 2) rfl Arc.decode
  simp only [Attempt.seq_eq_value_iff, Attempt.map_eq_value_iff, places, transitions, arcs]
  constructor
  · rintro ⟨_, arcs, ⟨_, transitions, ⟨places, first, rfl⟩, second, rfl⟩, third, rfl⟩
    exact ⟨first, second, third⟩
  · rintro ⟨first, second, third⟩
    exact ⟨_, _, ⟨_, _, ⟨_, first, rfl⟩, second, rfl⟩, third, rfl⟩

theorem WrittenAs.decode_eq {v : Json} (wrote : m.WrittenAs v) : decode v = .ok m := by
  obtain ⟨fields, rfl, places, transitions, arcs⟩ := wrote
  exact decode_record_iff.mpr ⟨places.decoded Place.decode_record_iff,
    transitions.decoded Transition.decode_record_iff, arcs.decoded Arc.decode_record_iff⟩

/-- An object that is no model, by its own fields or by those of a part. -/
inductive Faulty : Json → Prop where
  | itself {v : Json} : shape.Faulty v → Faulty v
  | place {fields : List (String × Json)} {items : List Json} {v : Json} :
      .list items ∈ valuesOf "places" fields → v ∈ items → Place.shape.Faulty v →
      Faulty (.record fields)
  | transition {fields : List (String × Json)} {items : List Json} {v : Json} :
      .list items ∈ valuesOf "transitions" fields → v ∈ items → Transition.shape.Faulty v →
      Faulty (.record fields)
  | arc {fields : List (String × Json)} {items : List Json} {v : Json} :
      .list items ∈ valuesOf "arcs" fields → v ∈ items → Arc.shape.Faulty v →
      Faulty (.record fields)

theorem Faulty.refused {v : Json} (faulty : Faulty v) (m : Model) : decode v ≠ .ok m := by
  cases faulty with
  | itself faulty =>
    exact faulty.refused Json.record_of_complete (fun read => (decode_record_iff.mp read).fits) m
  | place held member faulty =>
    intro read
    obtain ⟨p, part⟩ := (decode_record_iff.mp read).places.part held member
    exact faulty.refused Json.record_of_complete
      (fun read => (Place.decode_record_iff.mp read).fits) p part
  | transition held member faulty =>
    intro read
    obtain ⟨t, part⟩ := (decode_record_iff.mp read).transitions.part held member
    exact faulty.refused Json.record_of_complete
      (fun read => (Transition.decode_record_iff.mp read).fits) t part
  | arc held member faulty =>
    intro read
    obtain ⟨a, part⟩ := (decode_record_iff.mp read).arcs.part held member
    exact faulty.refused Json.record_of_complete
      (fun read => (Arc.decode_record_iff.mp read).fits) a part

/-- A model is read from every text of every object for it, whatever the order of the fields,
whatever other fields there are, and whether or not defaults are written. A text is refused if a
required field is missing in one of its objects, a known field is repeated, or a count has a sign,
a fraction or an exponent, or is too large. -/
theorem ofText_object {text : String} {v : Json} (spelled : Json.Represents text.toList v) :
    (∀ m : Model, m.WrittenAs v → ofText .json text = .ok m) ∧
      (Faulty v → ofText .json text = .error .json) := by
  have parsed := spelled.parse?_eq
  constructor
  · intro m wrote
    simp [ofText, Reader.ofText, Reader.ofJson, Reader.decodeJson, reader, parsed, wrote.decode_eq]
  · intro faulty
    cases read : decode v with
    | ok m => exact absurd read (faulty.refused m)
    | error cause =>
      simp [ofText, Reader.ofText, Reader.ofJson, Reader.decodeJson, reader, parsed, read]

/-- One place without a label and without tokens: there are unknown fields, one of them twice,
and lists and a count are left out. -/
def scattered : Json :=
  .record [("x", .decimal "1e9"), ("arcs", .list []), ("places", .list [
    .record [("label", .null), ("y", .list []), ("id", .string "p"), ("y", .bool true)]])]

def scatteredText : String :=
  "\x7b\"x\":1e9,\"arcs\":[],\"places\":[\x7b\"label\":null,\"y\":[],\"id\":\"p\",\"y\":true\x7d]\x7d"

/-- A place with a count that has an exponent. -/
def miscounted : Json :=
  .record [("places", .list [.record [("id", .string "p"), ("tokens", .decimal "1e9")]])]

def miscountedText : String := "\x7b\"places\":[\x7b\"id\":\"p\",\"tokens\":1e9\x7d]\x7d"

theorem numeral_power : Json.Number.Numeral "1e9".toList (.decimal "1e9") := by
  have whole : Json.Number.IsWhole ['1'] := by simp [Json.Number.IsWhole, Json.Number.IsDigits]
  have digits : Json.Number.IsDigits ['9'] := by simp [Json.Number.IsDigits]
  have power := Json.Number.IsExponent.power (e := 'e') (.inl rfl) (.inl rfl) digits
  simpa using Json.Number.Numeral.decimal (.inl rfl) whole .absent power (by simp)

theorem scattered_plain : scattered.Plain := by
  apply Json.plain_record
  have place : (Json.record [("label", .null), ("y", .list []), ("id", .string "p"),
      ("y", .bool true)]).Plain := by
    apply Json.plain_record
    simp only [List.forall_mem_cons]
    exact ⟨.null, .list (by simp), .text "p", .bool true, by simp⟩
  simp only [List.forall_mem_cons]
  exact ⟨.decimal numeral_power, .list (by simp), .list (by simpa using place), by simp⟩

theorem miscounted_plain : miscounted.Plain := by
  apply Json.plain_record
  have place : (Json.record [("id", .string "p"), ("tokens", .decimal "1e9")]).Plain := by
    apply Json.plain_record
    simp only [List.forall_mem_cons]
    exact ⟨.text "p", .decimal numeral_power, by simp⟩
  simp only [List.forall_mem_cons]
  exact ⟨.list (by simpa using place), by simp⟩

theorem ofText_object_scattered :
    ofText .json scatteredText = .ok ⟨[⟨"p", none, 0⟩], [], []⟩ ∧
      ofText .json miscountedText = .error .json := by
  have wrote : WrittenAs ⟨[⟨"p", none, 0⟩], [], []⟩ scattered := by
    have place : Place.WrittenIn ⟨"p", none, 0⟩ [("label", .null), ("y", .list []),
        ("id", .string "p"), ("y", .bool true)] :=
      ⟨rfl, .inl ⟨_, rfl, rfl⟩, .inr ⟨rfl, rfl⟩⟩
    exact ⟨_, rfl, .inl ⟨_, rfl, _, rfl, .cons ⟨_, rfl, place⟩ .nil⟩, .inr ⟨rfl, rfl⟩,
      .inl ⟨_, rfl, _, rfl, .nil⟩⟩
  have faulty : Faulty miscounted := by
    have tokens : Json.NoCount (.decimal "1e9") := ⟨_, numeral_power, by decide +kernel⟩
    exact .place (.head _) (.head _) (.miscounted (.head _) (.head _) tokens)
  have first : scattered.compact = scatteredText := by decide +kernel
  have second : miscounted.compact = miscountedText := by decide +kernel
  rw [← first, ← second]
  exact ⟨(ofText_object scattered_plain.represents_compact).1 _ wrote,
    (ofText_object miscounted_plain.represents_compact).2 faulty⟩

end Model

end TokenGame
