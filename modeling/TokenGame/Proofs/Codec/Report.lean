import TokenGame.Command.Batch
import TokenGame.Proofs.Codec.Model
import TokenGame.Proofs.FileTree
import TokenGame.Proofs.Json.Document
import TokenGame.Proofs.Net.TokensById

/-! Findings and reports read back from their JSON texts. A value that may be absent is written as
null or left out, and both are read as its absence. -/
namespace TokenGame

open Fields (valuesOf Decodes Once Defaulted)

variable {α : Type}

theorem Count.decode_toJson (n : Count) : Document.count n.toJson = .ok n :=
  Json.scheme.count_source n

theorem Verdict.decode_toJson (v : Verdict) : decode v.toJson = .ok v := by
  cases v <;> rfl

theorem TokenMap.decode_toJson (m : TokenMap) : decode m.toJson = .ok m := by
  rw [decode, toJson, Json.mapOf_record Count.decode_toJson]
  exact congrArg Except.ok m.ofList_entries

theorem Witness.decode_toJson {w : Witness} (small : w.depth < Count.limit) :
    decode w.toJson = .ok w := by
  refine Json.decode_record (by decide : ["marking", "depth", "trace"].Nodup) (by simp [valuesOf])
    (fun f byName => ?_) "Witness"
  have marking := (byName.required_iff (i := 0) rfl w.marking).mpr
    ⟨_, rfl, w.marking.decode_toJson⟩
  have depth := (byName.required_iff (i := 1) rfl w.depth).mpr ⟨_, rfl, Json.word_natural small⟩
  have trace := (byName.required_iff (i := 2) rfl w.trace).mpr
    ⟨_, rfl, Json.scheme.listOf_source Json.scheme.text_source w.trace⟩
  rw [marking, depth, trace]
  rfl

/-! ### Place verdicts -/

namespace PlaceVerdict

/-- What the fields of a place's verdict are read as. -/
structure HeldIn (v : PlaceVerdict) (fields : List (String × Json)) : Prop where
  place : Once (Decodes Document.text) v.place (valuesOf "place" fields)
  maxTokens : Once (Decodes Document.count) v.maxTokens (valuesOf "maxTokens" fields)
  kBounded : Defaulted none (Decodes (Document.optional Verdict.decode)) v.kBounded
    (valuesOf "kBounded" fields)
  safe : Once (Decodes Verdict.decode) v.safe (valuesOf "safe" fields)

theorem decode_record_iff {v : PlaceVerdict} {fields : List (String × Json)} :
    decode (Json.record fields) = .ok v ↔ v.HeldIn fields := by
  refine Json.decode_record_iff (by decide : ["place", "maxTokens", "kBounded", "safe"].Nodup)
    (fun held => ?_) (fun f byName => ?_) "PlaceVerdict"
  · simp only [List.forall_mem_cons]
    exact ⟨held.place.length_le, held.maxTokens.length_le, held.kBounded.length_le,
      held.safe.length_le, by simp⟩
  · simp only [Attempt.seq_eq_value_iff, Attempt.map_eq_value_iff, byName.required_iff (i := 0) rfl,
      byName.required_iff (i := 1) rfl, byName.named_iff (i := 2) rfl,
      byName.required_iff (i := 3) rfl]
    constructor
    · rintro ⟨_, _, ⟨_, _, ⟨_, _, ⟨_, place, rfl⟩, maxTokens, rfl⟩, kBounded, rfl⟩, safe, rfl⟩
      exact ⟨place, maxTokens, kBounded, safe⟩
    · rintro ⟨place, maxTokens, kBounded, safe⟩
      exact ⟨_, _, ⟨_, _, ⟨_, _, ⟨_, place, rfl⟩, maxTokens, rfl⟩, kBounded, rfl⟩, safe, rfl⟩

/-- A verdict that is absent is left out. -/
theorem exists_heldIn (v : PlaceVerdict) : ∃ fields, v.toJson = .record fields ∧ v.HeldIn fields ∧
    valuesOf "kBounded" fields = v.kBounded.toList.map Verdict.toJson := by
  obtain ⟨place, maxTokens, kBounded, safe⟩ := v
  have counted := Count.decode_toJson maxTokens
  have judged := safe.decode_toJson
  cases kBounded with
  | none =>
    exact ⟨_, rfl, ⟨⟨_, rfl, rfl⟩, ⟨_, rfl, counted⟩, .inr ⟨rfl, rfl⟩, ⟨_, rfl, judged⟩⟩, rfl⟩
  | some verdict =>
    have bounded : Document.optional Verdict.decode verdict.toJson = .ok (some verdict) :=
      Json.optional_eq_some_iff.mpr ⟨nofun, verdict.decode_toJson⟩
    exact ⟨_, rfl, ⟨⟨_, rfl, rfl⟩, ⟨_, rfl, counted⟩, .inl ⟨_, rfl, bounded⟩, ⟨_, rfl, judged⟩⟩,
      rfl⟩

theorem decode_toJson (v : PlaceVerdict) : decode v.toJson = .ok v := by
  obtain ⟨fields, same, held, _⟩ := v.exists_heldIn
  rw [same]
  exact decode_record_iff.mpr held

end PlaceVerdict

/-! ### Findings -/

namespace Findings

/-- What the fields of findings are read as. -/
structure HeldIn (f : Findings) (fields : List (String × Json)) : Prop where
  deadlocked : Once (Decodes Document.bool) f.deadlocked (valuesOf "deadlocked" fields)
  isKBounded : Defaulted none (Decodes (Document.optional Verdict.decode)) f.isKBounded
    (valuesOf "isKBounded" fields)
  isSafe : Once (Decodes Verdict.decode) f.isSafe (valuesOf "isSafe" fields)
  bound : Defaulted none (Decodes (Document.optional Document.count)) f.bound
    (valuesOf "bound" fields)
  perPlaceMax : Once (Decodes TokenMap.decode) f.perPlaceMax (valuesOf "perPlaceMax" fields)
  placeVerdicts : Once (Decodes (Document.listOf PlaceVerdict.decode)) f.placeVerdicts
    (valuesOf "placeVerdicts" fields)
  minimalKObserved : Once (Decodes Document.count) f.minimalKObserved
    (valuesOf "minimalKObserved" fields)
  exploredStates : Once (Decodes Document.word) f.exploredStates (valuesOf "exploredStates" fields)
  depthReached : Once (Decodes Document.word) f.depthReached (valuesOf "depthReached" fields)
  hitLimits : Once (Decodes Document.bool) f.hitLimits (valuesOf "hitLimits" fields)
  k : Defaulted none (Decodes (Document.optional Document.count)) f.k (valuesOf "k" fields)
  deadlockWitness : Defaulted none (Decodes (Document.optional Witness.decode)) f.deadlockWitness
    (valuesOf "deadlockWitness" fields)
  kWitness : Defaulted none (Decodes (Document.optional Witness.decode)) f.kWitness
    (valuesOf "kWitness" fields)
  unsafeWitness : Defaulted none (Decodes (Document.optional Witness.decode)) f.unsafeWitness
    (valuesOf "unsafeWitness" fields)

def names : List String :=
  ["deadlocked", "isKBounded", "isSafe", "bound", "perPlaceMax", "placeVerdicts",
    "minimalKObserved", "exploredStates", "depthReached", "hitLimits", "k", "deadlockWitness",
    "kWitness", "unsafeWitness"]

theorem decode_record_iff {f : Findings} {fields : List (String × Json)} :
    decode (Json.record fields) = .ok f ↔ f.HeldIn fields := by
  refine Json.decode_record_iff (by decide : names.Nodup) (fun held => ?_) (fun f byName => ?_)
    "ExploreReport"
  · simp only [names, List.forall_mem_cons]
    exact ⟨held.deadlocked.length_le, held.isKBounded.length_le, held.isSafe.length_le,
      held.bound.length_le, held.perPlaceMax.length_le, held.placeVerdicts.length_le,
      held.minimalKObserved.length_le, held.exploredStates.length_le, held.depthReached.length_le,
      held.hitLimits.length_le, held.k.length_le, held.deadlockWitness.length_le,
      held.kWitness.length_le, held.unsafeWitness.length_le, by simp⟩
  · simp only [Attempt.seq_eq_value_iff, Attempt.map_eq_value_iff, byName.required_iff (i := 0) rfl,
      byName.named_iff (i := 1) rfl, byName.required_iff (i := 2) rfl,
      byName.named_iff (i := 3) rfl, byName.required_iff (i := 4) rfl,
      byName.required_iff (i := 5) rfl, byName.required_iff (i := 6) rfl,
      byName.required_iff (i := 7) rfl, byName.required_iff (i := 8) rfl,
      byName.required_iff (i := 9) rfl, byName.named_iff (i := 10) rfl,
      byName.named_iff (i := 11) rfl, byName.named_iff (i := 12) rfl,
      byName.named_iff (i := 13) rfl]
    -- The field that is read last stands outermost.
    constructor
    · rintro ⟨_, _, ⟨_, _, ⟨_, _, ⟨_, _, ⟨_, _, ⟨_, _, ⟨_, _, ⟨_, _, ⟨_, _, ⟨_, _, ⟨_, _, ⟨_, _,
        ⟨_, _, ⟨_, deadlocked, rfl⟩, isKBounded, rfl⟩, isSafe, rfl⟩, bound, rfl⟩, perPlaceMax, rfl⟩,
        placeVerdicts, rfl⟩, minimalKObserved, rfl⟩, exploredStates, rfl⟩, depthReached, rfl⟩,
        hitLimits, rfl⟩, k, rfl⟩, deadlockWitness, rfl⟩, kWitness, rfl⟩, unsafeWitness, rfl⟩
      exact ⟨deadlocked, isKBounded, isSafe, bound, perPlaceMax, placeVerdicts, minimalKObserved,
        exploredStates, depthReached, hitLimits, k, deadlockWitness, kWitness, unsafeWitness⟩
    · rintro ⟨deadlocked, isKBounded, isSafe, bound, perPlaceMax, placeVerdicts, minimalKObserved,
        exploredStates, depthReached, hitLimits, k, deadlockWitness, kWitness, unsafeWitness⟩
      exact ⟨_, _, ⟨_, _, ⟨_, _, ⟨_, _, ⟨_, _, ⟨_, _, ⟨_, _, ⟨_, _, ⟨_, _, ⟨_, _, ⟨_, _, ⟨_, _,
        ⟨_, _, ⟨_, deadlocked, rfl⟩, isKBounded, rfl⟩, isSafe, rfl⟩, bound, rfl⟩, perPlaceMax, rfl⟩,
        placeVerdicts, rfl⟩, minimalKObserved, rfl⟩, exploredStates, rfl⟩, depthReached, rfl⟩,
        hitLimits, rfl⟩, k, rfl⟩, deadlockWitness, rfl⟩, kWitness, rfl⟩, unsafeWitness, rfl⟩

/-- All numbers are 64-bit words. -/
structure InWords (f : Findings) : Prop where
  exploredStates : f.exploredStates < Count.limit
  depthReached : f.depthReached < Count.limit
  deadlockWitness : ∀ w ∈ f.deadlockWitness, w.depth < Count.limit
  kWitness : ∀ w ∈ f.kWitness, w.depth < Count.limit
  unsafeWitness : ∀ w ∈ f.unsafeWitness, w.depth < Count.limit

theorem decode_toJson {f : Findings} (words : f.InWords) : decode f.toJson = .ok f := by
  have verdict : Document.optional Verdict.decode (Json.option Verdict.toJson f.isKBounded) =
      .ok f.isKBounded :=
    Json.optional_option (fun _ => nofun) fun v _ => v.decode_toJson
  have count (o : Option Count) : Document.optional Document.count (Json.option Count.toJson o) =
      .ok o :=
    Json.optional_option (fun _ => nofun) fun n _ => Count.decode_toJson n
  have witness {o : Option Witness} (small : ∀ w ∈ o, w.depth < Count.limit) :
      Document.optional Witness.decode (Json.option Witness.toJson o) = .ok o :=
    Json.optional_option (fun _ => nofun) fun w member => Witness.decode_toJson (small w member)
  refine decode_record_iff.mpr ?_
  constructor
  case deadlocked => exact ⟨_, rfl, rfl⟩
  case isKBounded => exact .inl ⟨_, rfl, verdict⟩
  case isSafe => exact ⟨_, rfl, f.isSafe.decode_toJson⟩
  case bound => exact .inl ⟨_, rfl, count f.bound⟩
  case perPlaceMax => exact ⟨_, rfl, f.perPlaceMax.decode_toJson⟩
  case placeVerdicts =>
    exact ⟨_, rfl, Json.scheme.listOf_source PlaceVerdict.decode_toJson f.placeVerdicts⟩
  case minimalKObserved => exact ⟨_, rfl, Count.decode_toJson f.minimalKObserved⟩
  case exploredStates => exact ⟨_, rfl, Json.word_natural words.exploredStates⟩
  case depthReached => exact ⟨_, rfl, Json.word_natural words.depthReached⟩
  case hitLimits => exact ⟨_, rfl, rfl⟩
  case k => exact .inl ⟨_, rfl, count f.k⟩
  case deadlockWitness => exact .inl ⟨_, rfl, witness words.deadlockWitness⟩
  case kWitness => exact .inl ⟨_, rfl, witness words.kWitness⟩
  case unsafeWitness => exact .inl ⟨_, rfl, witness words.unsafeWitness⟩

/-- The fields that may be absent, and whether they are present. -/
def optionals (f : Findings) : List (String × Bool) :=
  [("isKBounded", f.isKBounded.isSome), ("bound", f.bound.isSome), ("k", f.k.isSome),
    ("deadlockWitness", f.deadlockWitness.isSome), ("kWitness", f.kWitness.isSome),
    ("unsafeWitness", f.unsafeWitness.isSome)]

theorem HeldIn.absent_iff {f : Findings} {fields : List (String × Json)} (held : f.HeldIn fields) :
    ∀ o ∈ f.optionals, o.2 = false ↔ valuesOf o.1 fields = [] ∨ valuesOf o.1 fields = [.null] := by
  simp only [optionals, List.forall_mem_cons]
  exact ⟨held.isKBounded.absent_iff, held.bound.absent_iff, held.k.absent_iff,
    held.deadlockWitness.absent_iff, held.kWitness.absent_iff, held.unsafeWitness.absent_iff,
    by simp⟩

end Findings

/-! ### Reports -/

theorem Duration.decode_toJson {d : Duration} (seconds : d.seconds < Count.limit)
    (nanoseconds : d.nanoseconds < 1000000000) : decode d.toJson = .ok d := by
  have word : d.nanoseconds < Count.limit := nanoseconds.trans (by decide)
  have pair : (Document.record "Duration" [["secs"], ["nanos"]] d.toJson >>= fun f =>
      f.complete (Prod.mk <$> f.required 0 Document.word <*> f.required 1 Document.word)) =
        .ok (d.seconds, d.nanoseconds) := by
    refine Json.decode_record (by decide : ["secs", "nanos"].Nodup) (by simp [valuesOf])
      (fun f byName => ?_) "Duration"
    have first := (byName.required_iff (i := 0) rfl d.seconds).mpr
      ⟨_, rfl, Json.word_natural seconds⟩
    have second := (byName.required_iff (i := 1) rfl d.nanoseconds).mpr
      ⟨_, rfl, Json.word_natural word⟩
    rw [first, second]
    rfl
  have carry : d.nanoseconds / 1000000000 = 0 := Nat.div_eq_of_lt nanoseconds
  have rest : d.nanoseconds % 1000000000 = d.nanoseconds := Nat.mod_eq_of_lt nanoseconds
  have narrow : d.nanoseconds < UInt32.size := nanoseconds.trans (by decide)
  rw [decode, ← bind_assoc, pair]
  simp [bind, Except.bind, carry, rest, narrow, seconds, pure, Except.pure]

namespace Report

/-- All numbers are words, and the nanoseconds are less than a second. -/
structure InWords (r : Report) : Prop where
  seconds : r.time.seconds < Count.limit
  nanoseconds : r.time.nanoseconds < 1000000000
  result : r.result.InWords

theorem decode_toJson {r : Report} (words : r.InWords) : decode r.toJson = .ok r := by
  refine Json.decode_record (by decide : ["net_name", "analysis_time", "result"].Nodup)
    (by simp [valuesOf]) (fun f byName => ?_) "Report"
  have name := (byName.required_iff (i := 0) rfl r.netName).mpr
    ⟨_, rfl, Json.scheme.text_source r.netName⟩
  have time := (byName.required_iff (i := 1) rfl r.time).mpr
    ⟨_, rfl, Duration.decode_toJson words.seconds words.nanoseconds⟩
  have result := (byName.required_iff (i := 2) rfl r.result).mpr
    ⟨_, rfl, Findings.decode_toJson words.result⟩
  rw [name, time, result]
  rfl

end Report

/-! ### Texts -/

namespace Json

theorem plain_option {write : α → Json} (each : ∀ a, (write a).Plain) (o : Option α) :
    (Json.option write o).Plain := by
  cases o with
  | none => exact .null
  | some a => exact each a

theorem plain_list {write : α → Json} (each : ∀ a, (write a).Plain) (items : List α) :
    (Json.list (items.map write)).Plain := by
  refine .list ?_
  rw [List.forall_mem_map]
  exact fun a _ => each a

/-- The value is read from both texts of a document. -/
def ReadBack (decode : Json → Decoded α) (v : Json) (a : α) : Prop :=
  ∀ text ∈ [v.compact, v.pretty], (parse? text).map decode = some (.ok a)

theorem Plain.readBack {decode : Json → Decoded α} {v : Json} {a : α} (plain : v.Plain)
    (decoded : decode v = .ok a) : ReadBack decode v a := by
  simp [ReadBack, parse?_compact plain, parse?_pretty plain, decoded]

end Json

theorem Count.plain_toJson (n : Count) : n.toJson.Plain := .natural _

theorem Verdict.plain_toJson (v : Verdict) : v.toJson.Plain := .text _

theorem TokenMap.plain_toJson (m : TokenMap) : m.toJson.Plain := by
  apply Json.plain_record
  rw [List.forall_mem_map]
  exact fun e _ => Count.plain_toJson e.2

theorem Witness.plain_toJson (w : Witness) : w.toJson.Plain := by
  apply Json.plain_record
  simp only [List.forall_mem_cons]
  exact ⟨w.marking.plain_toJson, .natural _, Json.plain_list (fun _ => .text _) w.trace, by simp⟩

theorem PlaceVerdict.plain_toJson (v : PlaceVerdict) : v.toJson.Plain := by
  apply Json.plain_record
  simp only [List.forall_mem_append, List.forall_mem_cons]
  refine ⟨⟨⟨.text _, Count.plain_toJson _, by simp⟩, ?_⟩, v.safe.plain_toJson, by simp⟩
  cases v.kBounded with
  | none => simp
  | some verdict => simpa using verdict.plain_toJson

theorem Findings.plain_toJson (f : Findings) : f.toJson.Plain := by
  apply Json.plain_record
  simp only [List.forall_mem_cons]
  exact ⟨.bool _, Json.plain_option Verdict.plain_toJson _, f.isSafe.plain_toJson,
    Json.plain_option Count.plain_toJson _, f.perPlaceMax.plain_toJson,
    Json.plain_list PlaceVerdict.plain_toJson _, Count.plain_toJson _, .natural _, .natural _,
    .bool _, Json.plain_option Count.plain_toJson _, Json.plain_option Witness.plain_toJson _,
    Json.plain_option Witness.plain_toJson _, Json.plain_option Witness.plain_toJson _, by simp⟩

theorem Report.plain_toJson (r : Report) : r.toJson.Plain := by
  have time : r.time.toJson.Plain := by
    apply Json.plain_record
    simp only [List.forall_mem_cons]
    exact ⟨.natural _, .natural _, by simp⟩
  apply Json.plain_record
  simp only [List.forall_mem_cons]
  exact ⟨.text _, time, r.result.plain_toJson, by simp⟩

namespace Report

/-- Where a report was saved, it is read; only the null device keeps nothing. -/
def KeptAt (r : Report) (p : Path) : Prop :=
  ∀ files : FileTree,
    let o := Action.performAll { files } (Batch.save r p)
    o.succeeds = true →
      (∃ text, o.files.read (p.extend ".json") = .ok text ∧
        (Json.parse? text).map decode = some (.ok r)) ∨ o.files.isNull (p.extend ".json") = true

theorem InWords.keptAt {r : Report} (words : r.InWords) (p : Path) : r.KeptAt p := by
  intro files o done
  -- The JSON text is written last, after the text for people.
  refine (Action.read_performAll rfl done).imp_left fun read => ⟨_, read, ?_⟩
  exact r.plain_toJson.readBack (decode_toJson words) _ (by simp)

/-- Findings and reports are read back from their JSON texts, and saved reports from their files,
unless the file is the null device. A verdict about a place that is absent is left out. In every
object that is read, a value is absent if its field is left out or null. -/
theorem saved_reports_read_back :
    (∀ f : Findings, f.InWords → Json.ReadBack Findings.decode f.toJson f) ∧
      (∀ r : Report, r.InWords → Json.ReadBack decode r.toJson r ∧ ∀ p, r.KeptAt p) ∧
      (∀ v : PlaceVerdict, ∃ fields, v.toJson = .record fields ∧
        PlaceVerdict.decode (Json.record fields) = .ok v ∧
        valuesOf "kBounded" fields = v.kBounded.toList.map Verdict.toJson) ∧
      (∀ (v : PlaceVerdict) (fields : List (String × Json)),
        PlaceVerdict.decode (Json.record fields) = .ok v →
          (v.kBounded.isSome = false ↔
            valuesOf "kBounded" fields = [] ∨ valuesOf "kBounded" fields = [.null])) ∧
      ∀ (f : Findings) (fields : List (String × Json)),
        Findings.decode (Json.record fields) = .ok f →
          ∀ o ∈ f.optionals, o.2 = false ↔
            valuesOf o.1 fields = [] ∨ valuesOf o.1 fields = [.null] := by
  refine ⟨?_, ?_, ?_, ?_, ?_⟩
  · exact fun f words => f.plain_toJson.readBack (Findings.decode_toJson words)
  · exact fun r words => ⟨r.plain_toJson.readBack (decode_toJson words), words.keptAt⟩
  · intro v
    obtain ⟨fields, same, held, left⟩ := v.exists_heldIn
    exact ⟨fields, same, PlaceVerdict.decode_record_iff.mpr held, left⟩
  · exact fun v fields read => (PlaceVerdict.decode_record_iff.mp read).kBounded.absent_iff
  · exact fun f fields read => (Findings.decode_record_iff.mp read).absent_iff

/-- No bound was asked for, ids need escapes, and numbers are as large as they can be. -/
def stuck : Report where
  netName := "a \"b\"\n"
  time := ⟨18446744073709551615, 999999999⟩
  result :=
    { deadlocked := true
      isKBounded := none
      isSafe := .no
      bound := none
      perPlaceMax := .ofList [("\\ é", 18446744073709551615), ("", 0)]
      placeVerdicts := [⟨"\\ é", 18446744073709551615, none, .no⟩, ⟨"", 0, none, .unknown⟩]
      minimalKObserved := 18446744073709551615
      exploredStates := 18446744073709551615
      depthReached := 18446744073709551615
      hitLimits := true
      k := none
      deadlockWitness := some ⟨.empty, 18446744073709551615, ["\x00", ""]⟩
      kWitness := none
      unsafeWitness := some ⟨.ofList [("\\ é", 2)], 1, ["\u200b"]⟩ }

theorem stuck_inWords : stuck.InWords := by
  constructor
  · decide
  · decide
  · constructor <;> simp [stuck, Count.limit, UInt64.size]

/-- What a system with an empty directory to work in holds after the report was saved there. -/
def stuckSaved : Outcome :=
  Action.performAll { files := .empty } (Batch.save stuck ⟨"stuck.report"⟩)

theorem saved_reports_read_back_stuck :
    Json.ReadBack Findings.decode stuck.result.toJson stuck.result ∧
      Json.ReadBack decode stuck.toJson stuck ∧
      (stuckSaved.succeeds = true ∧
        ∃ text, stuckSaved.files.read ⟨"stuck.report.json"⟩ = .ok text ∧
          (Json.parse? text).map decode = some (.ok stuck)) ∧
      (∃ fields, PlaceVerdict.toJson ⟨"", 0, none, .unknown⟩ = .record fields ∧
        (valuesOf "kBounded" fields = [] ∨ valuesOf "kBounded" fields = [.null])) ∧
      ∃ fields, stuck.result.toJson = .record fields ∧
        (valuesOf "kWitness" fields = [] ∨ valuesOf "kWitness" fields = [.null]) := by
  have done : stuckSaved.succeeds = true := by decide +kernel
  have file : stuckSaved.files.isNull ⟨"stuck.report.json"⟩ ≠ true := by decide +kernel
  obtain ⟨findings, reports, verdicts, left, null⟩ := saved_reports_read_back
  obtain ⟨texts, kept⟩ := reports stuck stuck_inWords
  have saved := (kept _ .empty done).resolve_right file
  refine ⟨findings _ stuck_inWords.result, texts, ⟨done, saved⟩, ?_, ?_⟩
  · obtain ⟨fields, same, read, _⟩ := verdicts ⟨"", 0, none, .unknown⟩
    exact ⟨fields, same, (left _ fields read).mp rfl⟩
  · have read := Findings.decode_toJson stuck_inWords.result
    have listed : ("kWitness", false) ∈ stuck.result.optionals := by decide
    exact ⟨_, rfl, (null stuck.result _ read _ listed).mp rfl⟩

end Report

end TokenGame
