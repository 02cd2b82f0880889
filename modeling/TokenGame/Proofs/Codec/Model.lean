import TokenGame.Codec.Text
import TokenGame.Proofs.Document
import TokenGame.Proofs.Json.RoundTrip
import TokenGame.Proofs.Ron.RoundTrip

/-! Models read back from the documents they are written as. What a format has to do for this
is said once, and both formats do it. -/
namespace TokenGame

/-- How a format writes the parts of a model, and what it reads from them. -/
structure Scheme (ω δ : Type) [Document δ] where
  /-- What a written document is read from. -/
  source : ω → δ
  text : String → ω
  count : Count → ω
  /-- A text that may be absent, and is not. -/
  present : String → ω
  list : List ω → ω
  record : List (String × ω) → ω
  text_source (s : String) : Document.text (source (text s)) = .ok s
  count_source (n : Count) : Document.count (source (count n)) = .ok n
  present_source (s : String) :
    Document.optional Document.text (source (present s)) = .ok (some s)
  list_source (items : List ω) : Document.list (source (list items)) = .ok (items.map source)
  /-- A record is read from fields that its type declares. -/
  record_source (type : String) (declared : List (List String)) (fields : List (String × ω)) :
    (∀ f ∈ fields, declared.any (·.contains f.1) = true) →
    Document.record type declared (source (record fields)) =
      .ok (Fields.ofNamed declared (fields.map fun f => (.ok f.1, source f.2)))

namespace Scheme

variable {ω δ : Type} [Document δ] (w : Scheme ω δ)

def label : Option String → List (String × ω)
  | some text => [("label", w.present text)]
  | none => []

def place (p : Place) : ω :=
  w.record ([("id", w.text p.id)] ++ w.label p.label ++ [("tokens", w.count p.tokens)])

def transition (t : Transition) : ω := w.record ([("id", w.text t.id)] ++ w.label t.label)

def arc (a : Arc) : ω :=
  w.record [("id", w.text a.id), ("src", w.text a.src), ("dst", w.text a.dst),
    ("weight", w.count a.weight)]

def model (m : Model) : ω :=
  w.record [("places", w.list (m.places.map w.place)),
    ("transitions", w.list (m.transitions.map w.transition)), ("arcs", w.list (m.arcs.map w.arc))]

/-- A record whose fields are declared, each once, is read as it is written. -/
theorem record_reads (type : String) (declared : List (List String)) (fields : List (String × ω))
    (known : ∀ f ∈ fields, declared.any (·.contains f.1) = true)
    (once : (fields.filterMap (Fields.declaredAt? declared ·.1)).Nodup) :
    ∃ f, Document.record type declared (w.source (w.record fields)) = .ok f ∧
      f.Reads declared (fields.map fun g => (g.1, w.source g.2)) := by
  refine ⟨_, w.record_source type declared fields known, ?_⟩
  have sources : ((fields.map fun g => (g.1, w.source g.2)).filterMap
      (Fields.declaredAt? declared ·.1)).Nodup := by
    simpa [Function.comp_def] using once
  simpa [Function.comp_def] using Fields.ofNamed_reads sources

/-- A label is read if it is written, and is absent if it is not. -/
theorem defaulted_label {f : Fields δ} {declared : List (List String)} {fields : List (String × δ)}
    (reads : f.Reads declared fields) {index : Nat} {label : Option String}
    (found : Fields.written? declared fields index = label.map fun s => w.source (w.present s)) :
    f.defaulted index (Document.optional Document.text) none = .value label := by
  cases label with
  | none => exact reads.omitted found none
  | some text => exact reads.defaulted found (w.present_source text) none

theorem decode_place (p : Place) : Place.decode (w.source (w.place p)) = .ok p := by
  obtain ⟨id, label, tokens⟩ := p
  have known : ∀ f ∈ [("id", w.text id)] ++ w.label label ++ [("tokens", w.count tokens)],
      [["id"], ["label"], ["tokens"]].any (·.contains f.1) = true := by
    cases label <;> simp [Scheme.label]
  -- The fields are declared at different positions, whether or not there is a label.
  obtain ⟨f, record, reads⟩ := w.record_reads "Place" _ _ known (by
    cases label with
    | none => exact (show [0, 2].Nodup by decide)
    | some => exact (show [0, 1, 2].Nodup by decide))
  have named : f.required 0 Document.text = .value id :=
    reads.required rfl (w.text_source id)
  have labelled : f.defaulted 1 (Document.optional Document.text) none = .value label :=
    w.defaulted_label reads (by cases label <;> rfl)
  have counted : f.defaulted 2 Document.count 0 = .value tokens := by
    cases label <;> exact reads.defaulted rfl (w.count_source tokens) 0
  rw [Place.decode, place, record]
  simp [bind, Except.bind, named, labelled, counted, reads.complete]

theorem decode_transition (t : Transition) :
    Transition.decode (w.source (w.transition t)) = .ok t := by
  obtain ⟨id, label⟩ := t
  have known : ∀ f ∈ [("id", w.text id)] ++ w.label label,
      [["id"], ["label"]].any (·.contains f.1) = true := by
    cases label <;> simp [Scheme.label]
  obtain ⟨f, record, reads⟩ := w.record_reads "Transition" _ _ known (by
    cases label with
    | none => exact (show [0].Nodup by decide)
    | some => exact (show [0, 1].Nodup by decide))
  have named : f.required 0 Document.text = .value id :=
    reads.required rfl (w.text_source id)
  have labelled : f.defaulted 1 (Document.optional Document.text) none = .value label :=
    w.defaulted_label reads (by cases label <;> rfl)
  rw [Transition.decode, transition, record]
  simp [bind, Except.bind, named, labelled, reads.complete]

theorem decode_arc (a : Arc) : Arc.decode (w.source (w.arc a)) = .ok a := by
  have once : [0, 1, 2, 3].Nodup := by decide
  obtain ⟨f, record, reads⟩ := w.record_reads "Arc" [["id"], ["src"], ["dst"], ["weight"]]
    [("id", w.text a.id), ("src", w.text a.src), ("dst", w.text a.dst),
      ("weight", w.count a.weight)] (by simp) once
  have named : f.required 0 Document.text = .value a.id :=
    reads.required rfl (w.text_source a.id)
  have starts : f.required 1 Document.text = .value a.src :=
    reads.required rfl (w.text_source a.src)
  have ends : f.required 2 Document.text = .value a.dst :=
    reads.required rfl (w.text_source a.dst)
  have weighted : f.defaulted 3 Document.count 1 = .value a.weight :=
    reads.defaulted rfl (w.count_source a.weight) 1
  rw [Arc.decode, arc, record]
  simp [bind, Except.bind, named, starts, ends, weighted, reads.complete]

theorem listOf_source {α : Type} {write : α → ω} {read : δ → Decoded α}
    (each : ∀ a, read (w.source (write a)) = .ok a) (as : List α) :
    Document.listOf read (w.source (w.list (as.map write))) = .ok as := by
  have all : ((as.map write).map w.source).mapM read = .ok as := by
    induction as with
    | nil => rfl
    | cons a as ih =>
      rw [List.map_cons, List.map_cons, List.mapM_cons, each, ih]
      rfl
  rw [Document.listOf, w.list_source]
  exact all

/-- A model is decoded from what it is written as. -/
theorem decode_model (m : Model) : Model.decode (w.source (w.model m)) = .ok m := by
  have once : [0, 1, 2].Nodup := by decide
  obtain ⟨f, record, reads⟩ := w.record_reads "NetModel" [["places"], ["transitions"], ["arcs"]]
    [("places", w.list (m.places.map w.place)),
      ("transitions", w.list (m.transitions.map w.transition)),
      ("arcs", w.list (m.arcs.map w.arc))] (by simp) once
  have places : f.defaulted 0 (Document.listOf Place.decode) [] = .value m.places :=
    reads.defaulted rfl (w.listOf_source w.decode_place m.places) []
  have transitions : f.defaulted 1 (Document.listOf Transition.decode) [] =
      .value m.transitions :=
    reads.defaulted rfl (w.listOf_source w.decode_transition m.transitions) []
  have arcs : f.defaulted 2 (Document.listOf Arc.decode) [] = .value m.arcs :=
    reads.defaulted rfl (w.listOf_source w.decode_arc m.arcs) []
  rw [Model.decode, model, record]
  simp [bind, Except.bind, places, transitions, arcs, reads.complete]

end Scheme

/-! ### JSON -/

namespace Json

def scheme : Scheme Json Json where
  source := id
  text := .string
  count := Count.toJson
  present := .string
  list := .list
  record := .record
  text_source _ := rfl
  count_source n := by
    have word : Document.word n.toJson = .ok n.toNat := if_pos n.toNat_lt_limit
    simp [Document.count, word, Except.map]
  present_source _ := rfl
  list_source items := by simp [Document.list]
  record_source type declared fields _ := by
    simp [Document.record, decodeRecord, Json.record, entries, key, Function.comp_def]

theorem scheme_label (label : Option String) : scheme.label label = labelField label := by
  cases label <;> rfl

theorem scheme_model (m : Model) : scheme.model m = m.toJson := by
  have places : scheme.place = Place.toJson := by
    funext p
    simp only [Scheme.place, scheme_label]
    rfl
  have transitions : scheme.transition = Transition.toJson := by
    funext t
    simp only [Scheme.transition, scheme_label]
    rfl
  rw [Scheme.model, places, transitions]
  rfl

theorem plain_record {fields : List (String × Json)} (each : ∀ f ∈ fields, Plain f.2) :
    Plain (.record fields) := by
  apply Plain.object <;> rw [List.forall_mem_map]
  · exact fun _ _ => rfl
  · exact each

theorem plain_label (label : Option String) : ∀ f ∈ labelField label, Plain f.2 := by
  cases label with
  | none => simp [labelField]
  | some text => simp [labelField, Json.string, Plain.text]

end Json

theorem Place.plain_toJson (p : Place) : p.toJson.Plain := by
  apply Json.plain_record
  have label := Json.plain_label p.label
  simp only [List.forall_mem_append, List.forall_mem_singleton]
  exact ⟨⟨.text _, label⟩, .natural _⟩

theorem Transition.plain_toJson (t : Transition) : t.toJson.Plain := by
  apply Json.plain_record
  have label := Json.plain_label t.label
  simp only [List.forall_mem_append, List.forall_mem_singleton]
  exact ⟨.text _, label⟩

theorem Arc.plain_toJson (a : Arc) : a.toJson.Plain := by
  apply Json.plain_record
  simp only [List.forall_mem_cons]
  exact ⟨.text _, .text _, .text _, .natural _, by simp⟩

theorem Model.plain_toJson (m : Model) : m.toJson.Plain := by
  apply Json.plain_record
  simp only [List.forall_mem_cons]
  refine ⟨.list ?_, .list ?_, .list ?_, by simp⟩ <;> rw [List.forall_mem_map]
  · exact fun p _ => p.plain_toJson
  · exact fun t _ => t.plain_toJson
  · exact fun a _ => a.plain_toJson

/-! ### RON -/

namespace Ron

def scheme : Scheme Ron Source where
  source v := { extensions := {}, value := v }
  text := .text
  count := Count.toRon
  present s := .option (some (.text s))
  list := .list
  record := .struct none
  text_source _ := rfl
  count_source n := by
    have word : Document.word ({ extensions := {}, value := n.toRon } : Source) = .ok n.toNat := by
      simp [Document.word, Count.toRon, natural, Number.word?_repr n.toNat_lt]
    simp [Document.count, word, Except.map]
  present_source _ := rfl
  list_source items := rfl
  record_source type declared fields known := by
    have extra : fields.filter (fun f => !declared.any (·.contains f.1)) = [] := by
      simpa using known
    have read (s : Source) : s.fields declared fields =
        .ok (Fields.ofNamed declared (fields.map fun f => (.ok f.1, s.sub f.2))) := by
      simp only [Source.fields, extra, fieldsAreClear, if_true]
    exact read _

theorem scheme_label (label : Option String) : scheme.label label = labelFieldRon label := by
  cases label <;> rfl

theorem scheme_model (m : Model) : scheme.model m = m.toRon := by
  have places : scheme.place = Place.toRon := by
    funext p
    simp only [Scheme.place, scheme_label]
    rfl
  have transitions : scheme.transition = Transition.toRon := by
    funext t
    simp only [Scheme.transition, scheme_label]
    rfl
  rw [Scheme.model, places, transitions]
  rfl

theorem plain_struct {depth : Nat} {fields : List (String × Ron)} (nonempty : fields ≠ [])
    (each : ∀ f ∈ fields, isWord f.1 = true ∧ Plain depth f.2) :
    Plain (depth + 2) (.struct none fields) :=
  .struct nonempty (fun f member => (each f member).1) fun f member => (each f member).2

theorem plain_label (label : Option String) :
    ∀ f ∈ labelFieldRon label, isWord f.1 = true ∧ Plain 1 f.2 := by
  cases label with
  | none => simp [labelFieldRon]
  | some text =>
    simp only [labelFieldRon, List.forall_mem_singleton]
    exact ⟨by decide, .option (.text text)⟩

theorem plain_count {depth : Nat} (n : Count) : Plain depth n.toRon := .natural n.toNat_lt

end Ron

theorem Place.plain_toRon (p : Place) : Ron.Plain 3 p.toRon := by
  apply Ron.plain_struct (by simp)
  have label := Ron.plain_label p.label
  simp only [List.forall_mem_append, List.forall_mem_singleton]
  exact ⟨⟨⟨by decide, .text _⟩, label⟩, by decide, Ron.plain_count _⟩

theorem Transition.plain_toRon (t : Transition) : Ron.Plain 3 t.toRon := by
  apply Ron.plain_struct (by simp)
  have label := Ron.plain_label t.label
  simp only [List.forall_mem_append, List.forall_mem_singleton]
  exact ⟨⟨by decide, .text _⟩, label⟩

theorem Arc.plain_toRon (a : Arc) : Ron.Plain 3 a.toRon := by
  apply Ron.plain_struct (by simp)
  simp only [List.forall_mem_cons]
  exact ⟨⟨by decide, .text _⟩, ⟨by decide, .text _⟩, ⟨by decide, .text _⟩,
    ⟨by decide, Ron.plain_count _⟩, by simp⟩

theorem Model.plain_toRon (m : Model) : Ron.Plain 7 m.toRon := by
  apply Ron.plain_struct (by simp)
  simp only [List.forall_mem_cons]
  refine ⟨⟨by decide, .list ?_⟩, ⟨by decide, .list ?_⟩, ⟨by decide, .list ?_⟩, by simp⟩ <;>
    rw [List.forall_mem_map]
  · exact fun p _ => p.plain_toRon
  · exact fun t _ => t.plain_toRon
  · exact fun a _ => a.plain_toRon

namespace Model

/-- In every format a model is read back from its text. -/
theorem ofText_toText (m : Model) (format : Format) : ofText format (m.toText format) = .ok m := by
  cases format with
  | json =>
    have parsed := Json.parse?_pretty m.plain_toJson
    have decoded : decode m.toJson = .ok m := Json.scheme_model m ▸ Json.scheme.decode_model m
    simp [ofText, toText, Reader.ofText, Reader.ofJson, Reader.decodeJson, reader, parsed, decoded]
  | ron =>
    have parsed := Ron.parse?_pretty m.plain_toRon (by decide)
    have decoded : decode ({ extensions := {}, value := m.toRon } : Ron.Source) = .ok m :=
      Ron.scheme_model m ▸ Ron.scheme.decode_model m
    simp [ofText, toText, Reader.ofText, Reader.ofRon, reader, parsed, decoded]

end Model

end TokenGame
