import Mathlib.Data.List.Nodup
import TokenGame.Command.Run
import TokenGame.Proofs.Codec.Report
import TokenGame.Proofs.FileTree

/-! The reports of a batch. A report is saved under the stem of its net's path, so the nets of one
stem share two files, which hold the report of the last of them; every report is kept exactly if
no two nets have one stem. -/
namespace TokenGame

/-- The name of its net can be read from a report's JSON text. -/
theorem Report.netName_of_pretty {r other : Report}
    (same : r.toJson.pretty = other.toJson.pretty) : r.netName = other.netName := by
  have parsed := Json.parse?_pretty r.plain_toJson
  rw [same, Json.parse?_pretty other.plain_toJson] at parsed
  simp_all [toJson, Json.record, Json.string]

namespace Plan

theorem files_perform (p : Plan) (files : FileTree) :
    (p.perform files).files = (Action.performAll { files } p.actions).files := by
  unfold perform
  dsimp only
  split <;> rfl

theorem perform_succeeds {p : Plan} {files : FileTree}
    (done : (p.perform files).succeeds = true) :
    (Action.performAll { files } p.actions).succeeds = true ∧ p.failure = none := by
  unfold perform at done
  dsimp only at done
  split at done
  · rename_i failed
    simp [Outcome.succeeds, failed] at done
  · rename_i failed
    simpa [Outcome.succeeds, failed] using done

end Plan

namespace Batch

/-- The stem that a net's report is named after. -/
def reportStem (net : Path) : String := net.stem?.getD "net"

/-- What follows the stem in the names of a report's files. -/
def endings : List String := [".report", ".report.json"]

theorem reportPath_eq (dir net : Path) :
    reportPath dir net = dir.child (reportStem net ++ ".report") := rfl

theorem extend_reportPath (dir net : Path) :
    (reportPath dir net).extend ".json" = dir.child (reportStem net ++ ".report.json") := by
  rw [reportPath_eq, Path.extend_child, String.append_assoc]
  rfl

theorem noSlash_reportStem (net : Path) : '/' ∉ (reportStem net).toList := by
  unfold reportStem
  cases stemmed : net.stem? with
  | none => decide
  | some stem => exact Path.noSlash_stem stemmed

theorem isName_report (net : Path) {ending : String} (member : ending ∈ endings) :
    Path.IsName (reportStem net ++ ending) := by
  have long : 7 ≤ ending.length := by
    revert ending
    decide
  have plain : '/' ∉ ending.toList := by
    revert ending
    decide
  have apart (other : String) (short : other.length < 7) : reportStem net ++ ending ≠ other := by
    rintro rfl
    rw [String.length_append] at short
    omega
  refine ⟨?_, apart "" (by decide), apart "." (by decide), apart ".." (by decide)⟩
  rw [String.toList_append, List.mem_append, not_or]
  exact ⟨noSlash_reportStem net, plain⟩

/-- The stem can be read from the name of a report's file: the two endings end differently. -/
theorem stem_of_name {stem other ending ending' : String} (member : ending ∈ endings)
    (member' : ending' ∈ endings) (same : stem ++ ending = other ++ ending') : stem = other := by
  have last := congrArg (fun name : String => name.toList.getLast?) same
  simp only [endings, List.mem_cons, List.not_mem_nil, or_false] at member member'
  rcases member with rfl | rfl <;> rcases member' with rfl | rfl
  · exact (String.append_left_inj _).mp same
  · simp [List.getLast?_append] at last
  · simp [List.getLast?_append] at last
  · exact (String.append_left_inj _).mp same

theorem save_writes (dir net : Path) (r : Report) : ∃ failure : FileError → Failure,
    save r (reportPath dir net) =
      [.write (dir.child (reportStem net ++ ".report")) r.fileText failure,
        .write (dir.child (reportStem net ++ ".report.json")) r.toJson.pretty failure] := by
  refine ⟨fun e => ⟨e.message, []⟩, ?_⟩
  rw [save, extend_reportPath]
  rfl

/-- Saving a report spares the files of every net with another stem. -/
theorem spares_resultActions (dir : Path) {net other : Path} {ending : String}
    (member : ending ∈ endings) (apart : reportStem other ≠ reportStem net)
    (report : Except Failure Report) :
    ∀ action ∈ resultActions (some dir) (other, report),
      action.Spares dir (reportStem net ++ ending) := by
  intro action taken
  cases report with
  | error failure =>
    obtain rfl := List.mem_singleton.mp taken
    trivial
  | ok r =>
    have spares {ending' : String} (member' : ending' ∈ endings) :
        ∃ name, Path.IsName name ∧ name ≠ reportStem net ++ ending ∧
          dir.child (reportStem other ++ ending') = dir.child name :=
      ⟨_, isName_report other member', fun same => apart (stem_of_name member' member same), rfl⟩
    obtain ⟨failure, saved⟩ := save_writes dir other r
    simp only [resultActions, saved, List.mem_cons, List.not_mem_nil, or_false] at taken
    rcases taken with rfl | rfl
    · exact spares (by decide)
    · exact spares (by decide)

/-- The two files of a net's report keep a report. -/
def Keeps (t : FileTree) (dir net : Path) (r : Report) : Prop :=
  t.Keeps (reportPath dir net) r.fileText ∧
    t.Keeps ((reportPath dir net).extend ".json") r.toJson.pretty

/-- The last net of a stem has its report kept. -/
theorem keeps_last {files : FileTree} {dir net : Path} {r : Report} {before after : List Result}
    (done : ((plan (some dir) (before ++ (net, .ok r) :: after)).perform files).succeeds = true)
    (last : ∀ x ∈ after, reportStem x.1 ≠ reportStem net) :
    Keeps ((plan (some dir) (before ++ (net, .ok r) :: after)).perform files).files dir net r := by
  have later {ending : String} (member : ending ∈ endings) :
      ∀ action ∈ after.flatMap (resultActions (some dir)),
        action.Spares dir (reportStem net ++ ending) := by
    intro action taken
    obtain ⟨⟨other, report⟩, result, taken⟩ := List.mem_flatMap.mp taken
    exact spares_resultActions dir member (last _ result) report action taken
  obtain ⟨failure, saved⟩ := save_writes dir net r
  have actions : (plan (some dir) (before ++ (net, .ok r) :: after)).actions =
      (makeOutput (some dir) ++ before.flatMap (resultActions (some dir))) ++
        (save r (reportPath dir net) ++ after.flatMap (resultActions (some dir))) := by
    simp [plan, resultActions]
  obtain ⟨performed, _⟩ := Plan.perform_succeeds done
  rw [Keeps, Plan.files_perform, extend_reportPath, reportPath_eq]
  rw [actions, saved, List.cons_append, List.cons_append, List.nil_append] at performed ⊢
  constructor
  · refine Action.keeps_last_write (isName_report net (by decide)) ?_ performed
    refine List.forall_mem_cons.mpr ⟨?_, later (by decide)⟩
    refine ⟨_, isName_report net (by decide), fun same => ?_, rfl⟩
    have := (String.append_right_inj _).mp same
    revert this
    decide
  · rw [List.append_cons] at performed ⊢
    exact Action.keeps_last_write (isName_report net (by decide)) (later (by decide)) performed

/-- A report about the net at a path: it bears the path, and its result is what the service answers
about the model in the file. -/
structure ReportOf (settings : ExploreSettings) (limits : Limits) (read : Reading) (net : Path)
    (r : Report) : Prop where
  name : r.netName = net.text
  result : ∃ model, Model.ofFile net (read net) = .ok model ∧
    Service.bounds settings (request limits model) = .ok r.result

theorem analyze_ok {settings : ExploreSettings} {limits : Limits} {read : Reading} {net : Path}
    {findings : Findings} (analyzed : analyze settings limits read net = .ok findings) :
    ∃ model, Model.ofFile net (read net) = .ok model ∧
      Service.bounds settings (request limits model) = .ok findings := by
  unfold analyze loadModel at analyzed
  cases loaded : Model.ofFile net (read net) with
  | error e => simp [loaded, bind, Except.bind] at analyzed
  | ok model =>
    refine ⟨model, rfl, ?_⟩
    simp only [loaded, bind, Except.bind, explore] at analyzed
    split at analyzed
    · rename_i answered
      rw [answered, Except.ok.inj analyzed]
    · cases analyzed

theorem fails_of_failure? {results : List Result} (none : failure? results = none) :
    ∀ x ∈ results, fails x = false := by
  unfold failure? at none
  dsimp only at none
  split at none
  · rename_i all
    simpa [List.filter_eq_nil_iff] using all
  · cases none

/-- The two files of a net's report hold a report: its text, and its JSON text. -/
def Holds (t : FileTree) (dir net : Path) (r : Report) : Prop :=
  t.read (reportPath dir net) = .ok r.fileText ∧
    t.read ((reportPath dir net).extend ".json") = .ok r.toJson.pretty

/-- Neither of the two files of a net's report is the null device, which keeps nothing. -/
def Stored (t : FileTree) (dir net : Path) : Prop :=
  t.isNull (reportPath dir net) = false ∧ t.isNull ((reportPath dir net).extend ".json") = false

theorem Keeps.holds {t : FileTree} {dir net : Path} {r : Report} (kept : Keeps t dir net r)
    (stored : Stored t dir net) : Holds t dir net r :=
  ⟨kept.1.read.resolve_right (by simp [stored.1]), kept.2.read.resolve_right (by simp [stored.2])⟩

/-- Nets of one stem share their files. -/
theorem holds_congr {t : FileTree} {dir net other : Path} {r : Report}
    (same : reportStem net = reportStem other) : Holds t dir net r ↔ Holds t dir other r := by
  simp only [Holds, reportPath_eq, same]

/-- Reports in the same files bear the same name. -/
theorem Holds.netName_eq {t : FileTree} {dir net : Path} {r other : Report}
    (held : Holds t dir net r) (held' : Holds t dir net other) : r.netName = other.netName :=
  Report.netName_of_pretty (Except.ok.inj (held.2.symm.trans held'.2))

/-- The last of some nets that has the stem of a net. -/
def IsLast (nets : List Path) (net last : Path) : Prop :=
  ∃ before after, nets = before ++ last :: after ∧ reportStem last = reportStem net ∧
    ∀ other ∈ after, reportStem other ≠ reportStem net

theorem IsLast.mem {nets : List Path} {net last : Path} (isLast : IsLast nets net last) :
    last ∈ nets := by
  obtain ⟨before, after, rfl, _⟩ := isLast
  simp

theorem IsLast.stem_eq {nets : List Path} {net last : Path} (isLast : IsLast nets net last) :
    reportStem last = reportStem net := by
  obtain ⟨_, _, _, same, _⟩ := isLast
  exact same

theorem exists_isLast {nets : List Path} {net : Path} (member : net ∈ nets) :
    ∃ last, IsLast nets net last := by
  have some : (nets.reverse.find? fun other => reportStem other = reportStem net).isSome := by
    simp only [List.find?_isSome, List.mem_reverse, decide_eq_true_eq]
    exact ⟨net, member, rfl⟩
  obtain ⟨last, found⟩ := Option.isSome_iff_exists.mp some
  obtain ⟨same, after, before, split, others⟩ := List.find?_eq_some_iff_append.mp found
  refine ⟨last, before.reverse, after.reverse, ?_, by simpa using same, by simpa using others⟩
  simpa using congrArg List.reverse split

/-- In a batch that succeeds, the last net of a stem has its report kept. -/
theorem explorePlan_keeps {settings : ExploreSettings} {read : Reading} {time : Path → Duration}
    {nets : List Path} {limits : Limits} {dir net last : Path} {files : FileTree}
    (done : ((Command.explorePlan settings read time nets limits
      (some dir)).perform files).succeeds = true) (isLast : IsLast nets net last) :
    ∃ r, ReportOf settings limits read last r ∧ Keeps ((Command.explorePlan settings read time
      nets limits (some dir)).perform files).files dir last r := by
  obtain ⟨before, after, split, same, others⟩ := isLast
  let outcome (p : Path) : Result := result p (analyze settings limits read p) (time p)
  have none := fails_of_failure? (Plan.perform_succeeds done).2
  have passed : fails (outcome last) = false := none _ (List.mem_map_of_mem (by simp [split]))
  cases analyzed : analyze settings limits read last with
  | error failure => simp [outcome, result, analyzed, fails, Except.map] at passed
  | ok findings =>
    let r : Report := { netName := last.text, time := time last, result := findings }
    have results : nets.map outcome =
        before.map outcome ++ (last, .ok r) :: after.map outcome := by
      simp [split, outcome, result, analyzed, Except.map, r]
    refine ⟨r, ⟨rfl, analyze_ok analyzed⟩, ?_⟩
    unfold Command.explorePlan at done ⊢
    rw [results] at done ⊢
    refine keeps_last done fun x taken => ?_
    obtain ⟨other, later, rfl⟩ := List.mem_map.mp taken
    rw [same]
    exact others other later

end Batch

namespace Options

theorem run_explore {options : Options} {nets : List Path} {limits : Limits} {output : Option Path}
    (command : options.command = .explore nets limits output) {files : FileTree}
    {random : Random} {time : Path → Duration}
    (done : (options.run files random time).succeeds = true) :
    ∃ config, Config.load files.read options.config = .ok config ∧
      options.run files random time =
        (Command.explorePlan config.explore files.read time nets limits output).perform files := by
  unfold run plan at done ⊢
  cases loaded : Config.load files.read options.config with
  | error failure => simp [loaded, Plan.perform, Action.performAll, Outcome.succeeds] at done
  | ok config => exact ⟨config, rfl, by simp only [command, Command.plan]⟩

theorem run_keeps {options : Options} {nets : List Path} {limits : Limits} {dir : Path}
    (command : options.command = .explore nets limits (some dir)) {files : FileTree}
    {random : Random} {time : Path → Duration}
    (done : (options.run files random time).succeeds = true) :
    ∃ config, Config.load files.read options.config = .ok config ∧
      ∀ net last, Batch.IsLast nets net last → ∃ r,
        Batch.ReportOf config.explore limits files.read last r ∧
          Batch.Keeps (options.run files random time).files dir last r := by
  obtain ⟨config, loaded, ran⟩ := run_explore command done
  rw [ran] at done ⊢
  exact ⟨config, loaded, fun net last isLast => Batch.explorePlan_keeps done isLast⟩

/-- A batch that succeeds leaves in the files of every stem the report of the last net that has it.
So of nets with different paths every report is kept exactly if no two of the nets have one
stem. -/
theorem explore_keeps_last_of_stem {options : Options} {nets : List Path} {limits : Limits}
    {dir : Path} (command : options.command = .explore nets limits (some dir)) {files : FileTree}
    {random : Random} {time : Path → Duration}
    (done : (options.run files random time).succeeds = true)
    (stored : ∀ p ∈ nets, Batch.Stored (options.run files random time).files dir p) :
    ∃ config, Config.load files.read options.config = .ok config ∧
      (∀ p ∈ nets, ∃ last r, Batch.IsLast nets p last ∧
        Batch.ReportOf config.explore limits files.read last r ∧
        Batch.Holds (options.run files random time).files dir p r) ∧
      (nets.Nodup →
        ((∀ p ∈ nets, ∃ r, Batch.ReportOf config.explore limits files.read p r ∧
          Batch.Holds (options.run files random time).files dir p r) ↔
          (nets.map Batch.reportStem).Nodup)) := by
  obtain ⟨config, loaded, keeps⟩ := run_keeps command done
  have kept : ∀ p ∈ nets, ∃ last r, Batch.IsLast nets p last ∧
      Batch.ReportOf config.explore limits files.read last r ∧
      Batch.Holds (options.run files random time).files dir p r := by
    intro p member
    obtain ⟨last, isLast⟩ := Batch.exists_isLast member
    obtain ⟨r, about, keeps⟩ := keeps p last isLast
    have held := keeps.holds (stored last isLast.mem)
    exact ⟨last, r, isLast, about, (Batch.holds_congr isLast.stem_eq).mp held⟩
  refine ⟨config, loaded, kept, fun distinct => ⟨fun all => ?_, fun apart p member => ?_⟩⟩
  · -- two nets of one stem share their files, and a report bears the path of one net only
    refine distinct.map_on fun p member q member' same => ?_
    obtain ⟨r, about, held⟩ := all p member
    obtain ⟨r', about', held'⟩ := all q member'
    have name := held.netName_eq ((Batch.holds_congr same).mpr held')
    rw [about.name, about'.name] at name
    cases p
    cases q
    exact congrArg Path.mk name
  · obtain ⟨last, r, isLast, about, held⟩ := kept p member
    obtain rfl := List.inj_on_of_nodup_map apart isLast.mem member isLast.stem_eq
    exact ⟨r, about, held⟩

end Options

namespace Batch

/-- The paths of two nets, each in a directory of its own. -/
def pairNets (first second : String) : List Path := [⟨"a/" ++ first⟩, ⟨"b/" ++ second⟩]

/-- A system in which both are the empty net. -/
def pairFiles (first second : String) : FileTree :=
  { FileTree.empty with nodes := FileTree.empty.nodes ++
      [(["tmp", "work", "a"], .directory), (["tmp", "work", "a", first], .file "\x7b\x7d"),
        (["tmp", "work", "b"], .directory), (["tmp", "work", "b", second], .file "\x7b\x7d")] }

def pairOptions (first second : String) : Options :=
  ⟨⟨"pn.toml"⟩, .explore (pairNets first second) {} (some ⟨"out"⟩)⟩

/-- Both are explored, and the reports go to a new directory. -/
def pairRun (first second : String) : Outcome :=
  (pairOptions first second).run (pairFiles first second) (.ofSeed 0) fun _ => {}

end Batch

namespace Options

open Batch

theorem explore_keeps_last_of_stem_pair :
    (pairRun "net.json" "other.json").succeeds = true ∧
      ∀ p ∈ pairNets "net.json" "other.json", ∃ r,
        ReportOf {} {} (pairFiles "net.json" "other.json").read p r ∧
          Holds (pairRun "net.json" "other.json").files ⟨"out"⟩ p r := by
  have done : (pairRun "net.json" "other.json").succeeds = true := by decide +kernel
  have stored : ∀ p ∈ pairNets "net.json" "other.json",
      (pairRun "net.json" "other.json").files.isNull (reportPath ⟨"out"⟩ p) = false ∧
        (pairRun "net.json" "other.json").files.isNull
          ((reportPath ⟨"out"⟩ p).extend ".json") = false := by decide +kernel
  have default : Config.load (pairFiles "net.json" "other.json").read ⟨"pn.toml"⟩ = .ok {} := by
    decide +kernel
  have command : (pairOptions "net.json" "other.json").command =
      .explore (pairNets "net.json" "other.json") {} (some ⟨"out"⟩) := rfl
  obtain ⟨config, loaded, _, all⟩ := explore_keeps_last_of_stem command done stored
  obtain rfl : config = {} := Except.ok.inj (loaded.symm.trans default)
  exact ⟨done, (all (by decide)).mpr (by decide +kernel)⟩

end Options

/-! ### A report that is lost -/

def FileNode.isFile : FileNode → Bool
  | .file _ => true
  | .directory => false
  | .null => false

/-- If some paths lead to all files, nothing else is read from any path. -/
theorem FileTree.read_listed {t : FileTree} {paths : List Path}
    (listed : (t.nodes.filter (·.2.isFile)).map (.ok ·.1) = paths.map t.locate) {p : Path}
    {text : String} (read : t.read p = .ok text) :
    text = "" ∨ ∃ q ∈ paths, t.read q = .ok text := by
  rcases read_eq_ok_iff.mp read with found | ⟨_, empty⟩
  · obtain ⟨names, _, here⟩ := lookup_eq_ok_iff.mp found
    have below : names ≠ [] := by
      rintro rfl
      cases here
    have member : (names, .file text) ∈ t.nodes := by
      obtain ⟨entry, kept, same⟩ : ∃ entry, t.nodes.find? (·.1 == names) = some entry ∧
          entry.2 = .file text := by simpa [node?, below] using here
      have first : entry.1 = names := by simpa using List.find?_some kept
      have := List.mem_of_find?_eq_some kept
      rwa [← first, ← same]
    have kept : (names, .file text) ∈ t.nodes.filter (·.2.isFile) :=
      List.mem_filter.mpr ⟨member, rfl⟩
    have shown : .ok names ∈ paths.map t.locate := listed ▸ List.mem_map_of_mem kept
    obtain ⟨q, path, located⟩ := List.mem_map.mp shown
    exact .inr ⟨q, path, read_eq_ok_iff.mpr (.inl (lookup_eq_ok_iff.mpr ⟨names, located, here⟩))⟩
  · exact .inl empty

namespace Report

/-- The JSON text of a report opens an object with fields. -/
theorem toList_pretty (r : Report) : ∃ rest, r.toJson.pretty.toList = '{' :: '\n' :: rest := by
  simp [toJson, Json.record, Json.pretty, Json.prettyAt, Json.prettyFields, Json.newline]

theorem pretty_ne_fileText (r other : Report) : r.toJson.pretty ≠ other.fileText := by
  obtain ⟨rest, opens⟩ := r.toList_pretty
  intro same
  rw [same] at opens
  simp [fileText, text, lines] at opens

end Report

namespace Options

open Batch

/-- Nets with different paths and one stem: the batch succeeds, and no file of the system holds a
report that bears the first path. -/
theorem explore_loses_report_of_stem :
    (pairNets "net.json" "net.json").Nodup ∧ (pairRun "net.json" "net.json").succeeds = true ∧
      ∀ r : Report, r.netName = "a/net.json" →
        ∀ p, (pairRun "net.json" "net.json").files.read p ≠ .ok r.toJson.pretty := by
  have done : (pairRun "net.json" "net.json").succeeds = true := by decide +kernel
  have listed : ((pairRun "net.json" "net.json").files.nodes.filter (·.2.isFile)).map (.ok ·.1) =
      List.map (pairRun "net.json" "net.json").files.locate
        [⟨"a/net.json"⟩, ⟨"b/net.json"⟩, ⟨"out/net.report"⟩, ⟨"out/net.report.json"⟩] := by
    decide +kernel
  have inputs : ∀ p ∈ pairNets "net.json" "net.json",
      (pairRun "net.json" "net.json").files.read p = .ok "\x7b\x7d" := by decide +kernel
  have command : (pairOptions "net.json" "net.json").command =
      .explore (pairNets "net.json" "net.json") {} (some ⟨"out"⟩) := rfl
  have isLast : IsLast (pairNets "net.json" "net.json") ⟨"b/net.json"⟩ ⟨"b/net.json"⟩ :=
    ⟨[⟨"a/net.json"⟩], [], rfl, rfl, nofun⟩
  have stored : Stored (pairRun "net.json" "net.json").files ⟨"out"⟩ ⟨"b/net.json"⟩ :=
    ⟨by decide +kernel, by decide +kernel⟩
  obtain ⟨config, _, keeps⟩ := run_keeps command done
  obtain ⟨last, about, keeps⟩ := keeps _ _ isLast
  obtain ⟨text, json⟩ := keeps.holds stored
  refine ⟨by decide, done, fun r name p read => ?_⟩
  obtain ⟨rest, opens⟩ := r.toList_pretty
  rcases FileTree.read_listed listed read with empty | ⟨q, path, same⟩
  · simp [empty] at opens
  · simp only [List.mem_cons, List.not_mem_nil, or_false] at path
    rcases path with rfl | rfl | rfl | rfl
    · simp [Except.ok.inj (same.symm.trans (inputs _ (by decide)))] at opens
    · simp [Except.ok.inj (same.symm.trans (inputs _ (by decide)))] at opens
    · exact r.pretty_ne_fileText last (Except.ok.inj (same.symm.trans text))
    · have bears := Report.netName_of_pretty (Except.ok.inj (same.symm.trans json))
      rw [name, about.name] at bears
      revert bears
      decide

end Options

end TokenGame
