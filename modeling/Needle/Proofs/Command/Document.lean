import Needle.Proofs.Command.Targets
import Needle.Proofs.Json.Pretty
import Needle.Proofs.Rule.RoundTrip
import Needle.Proofs.RuleSet.Naming

/-!
# A report as a document

A JSON document has a form for every part of a report but for a path that is no text. So a report is
written as one whole document exactly if every path that it tells is a text; otherwise the writer
stops before the first path that is none, and what follows in the report is lost.
-/
set_option autoImplicit false

namespace Needle

open Json

theorem Path.writable_toJson_iff {p : Path} : p.toJson.Writable ↔ (Utf8.decode? p.bytes).isSome := by
  unfold toJson
  cases Utf8.decode? p.bytes with
  | none =>
      constructor
      · intro writable
        cases writable
      · intro decoded
        contradiction
  | some text => exact ⟨fun _ => rfl, fun _ => .text text⟩

theorem FileReport.writable_toJson_iff {r : FileReport} :
    r.toJson.Writable ↔ (Utf8.decode? r.path.bytes).isSome := by
  rw [← Path.writable_toJson_iff]
  constructor
  · intro writable
    exact writable.field (f := ("path", r.path.toJson)) (by simp)
  · intro path
    have found := Json.writable_list r.found fun rule _ => rule.writable_toJson
    refine Json.writable_record _ fun f member => ?_
    simp only [List.mem_append, List.mem_cons, List.not_mem_nil, or_false] at member
    rcases member with (rfl | rfl) | error
    · exact path
    · exact found
    · cases cause : r.error with
      | none => simp [cause] at error
      | some text =>
          simp only [cause, List.mem_singleton] at error
          subst error
          exact .text text

namespace ScanReport

/-- Every path that a report tells is a text. -/
def Tellable (r : ScanReport) : Prop := ∀ file ∈ r.files, (Utf8.decode? file.path.bytes).isSome

theorem writable_toJson_iff {r : ScanReport} : r.toJson.Writable ↔ r.Tellable := by
  constructor
  · intro writable file member
    have files := writable.field (f := ("files", .arr (r.files.map FileReport.toJson))) (by simp)
    exact FileReport.writable_toJson_iff.mp (files.item (List.mem_map_of_mem member))
  · intro tellable
    have files := Json.writable_list r.files fun file member =>
      FileReport.writable_toJson_iff.mpr (tellable file member)
    refine Json.writable_record _ fun f member => ?_
    simp only [List.mem_cons, List.not_mem_nil, or_false] at member
    rcases member with rfl | rfl | rfl | rfl | rfl
    · exact .int _
    · exact .int _
    · exact .int _
    · exact .int _
    · exact files

theorem outcome_of_tellable {r : ScanReport} (tellable : r.Tellable) : ∃ doc,
    r.outcome .json = ⟨doc ++ "\n", none⟩ ∧ Json.ofText? doc = some r.toJson := by
  have writable := writable_toJson_iff.mpr tellable
  refine ⟨(Json.written (r.toJson.pretty 0)).1, ?_, Json.ofText?_pretty writable⟩
  have whole := Json.all_isSome_pretty writable 0
  unfold outcome Outcome.ofJson Json.written
  dsimp only
  rw [whole]

theorem outcome_of_not_tellable {r : ScanReport} (untellable : ¬ r.Tellable) :
    ∃ shorter e, r.outcome .json = ⟨shorter ++ " ", some e⟩ := by
  have unwritable : ¬ r.toJson.Writable := fun writable =>
    untellable (writable_toJson_iff.mp writable)
  obtain ⟨shorter, written⟩ := Json.written_of_not_writable unwritable
  refine ⟨shorter, .other "failed to write JSON output", ?_⟩
  have stops : Json.written (r.toJson.pretty 0) = (shorter ++ " ", false) := written
  unfold outcome Outcome.ofJson
  dsimp only
  rw [stops]

theorem told_of_failed {limit : Nat} {outcome : Path → FileOutcome} {items : List WalkItem}
    {path : Path} {size : Option Nat} (met : .visited path (.file size) ∈ items)
    (small : isLarge limit (path, size) = false) {e : Error}
    (failed : (outcome path).result = .error e) :
    ⟨path, (outcome path).found, some e.message⟩ ∈ (ofItems limit outcome items).files := by
  have among : (path, size) ∈ filesAmong items := List.mem_filterMap.mpr ⟨_, met, rfl⟩
  have scanned : (path, size) ∈ (filesAmong items).filter fun file => !isLarge limit file := by
    rw [List.mem_filter, small]
    exact ⟨among, rfl⟩
  apply List.mem_append_right
  apply List.mem_filterMap.mpr
  refine ⟨path, List.mem_map.mpr ⟨_, scanned, rfl⟩, ?_⟩
  unfold FileOutcome.report?
  rw [failed]

end ScanReport

namespace Program

variable {config : Config} {request : ScanRequest} {files : FileTree} {path : Path}
  {content : Bytes} {cause : IoError}

theorem fileOutcome_of_unread (opened : files.openObject path = .ok (.file content))
    (unread : files.readFile (Engine.shownPath path) = .error cause) (request : ScanRequest)
    (patterns : List Pattern) :
    (fileOutcome request patterns Code.success files path).result =
      .error (.fileRead path (Code.fileTrouble Code.couldNotOpenFile)) := by
  obtain ⟨plain, _⟩ := FileTree.find_of_openObject opened
  have begins : (ScanTarget.file path).refusal? files = none := by
    simp [ScanTarget.refusal?, opened, Plain.path, plain]
  unfold fileOutcome RuleSet.fileScan
  rw [begins, unread]
  exact Scan.conclude_proceed Code.couldNotOpenFile 0 (some path)

theorem not_tellable_of_unread (named : path ∈ request.targets)
    (opened : files.openObject path = .ok (.file content)) (unlinked : ¬ files.IsLink path)
    (small : content.length ≤ config.scan.maxFileSize)
    (unread : files.readFile (Engine.shownPath path) = .error cause)
    (nameless : Utf8.decode? path.bytes = none) (patterns : List Pattern) :
    ¬ (scanReport config request patterns files).Tellable := by
  intro tellable
  obtain ⟨seen, _⟩ := FileTree.walkFrom_opened (o := walkOptions config request) opened
  have met : .visited path (.file (files.size? path)) ∈
      request.targets.flatMap (files.walkFrom (walkOptions config request)) := by
    rw [List.mem_flatMap]
    refine ⟨path, named, ?_⟩
    rw [seen (Or.inr unlinked)]
    exact List.mem_cons_self
  have length : files.size? path = some content.length := by
    unfold FileTree.size?
    rw [(FileTree.ask_eq_ok_iff.mp opened).2]
  have fits : isLarge config.scan.maxFileSize (path, files.size? path) = false := by
    rw [length]
    exact isLarge_of_le small path
  have told := ScanReport.told_of_failed met fits
    (fileOutcome_of_unread opened unread request patterns)
  rw [← scanReport_eq] at told
  have decoded : (Utf8.decode? path.bytes).isSome := tellable _ told
  rw [nameless] at decoded
  contradiction

end Program

namespace Completion

open Program

/-- What a scan that is asked for JSON prints: nothing if it fails before there is a report, the
report as one whole document if every path in it is a text, and otherwise a text that breaks off
behind a blank; then the scan fails, however many other files there are to report on. -/
theorem scan_document (r : Request) (request : ScanRequest) (env : Environment) (time : String)
    (files : FileTree) (tempDir : Path) :
    let asked := { r with format := some .json, command := some (.scan request) }
    let done := ofRequest asked env time { files := files, tempDir := tempDir }
    done.exitCode ≠ 0 ∧ done.output = "" ∨
      ∃ config patterns, asked.loadConfig env files = .ok config ∧
        rulesRead config files request.origin = .ok patterns ∧
        let report := scanReport config request patterns files
        (report.Tellable → done.exitCode = 0 ∧
          ∃ doc, done.output = doc ++ "\n" ∧ Json.ofText? doc = some report.toJson) ∧
        (¬ report.Tellable → done.exitCode ≠ 0 ∧ ∃ shorter, done.output = shorter ++ " ") := by
  intro asked done
  rcases ofRequest_scan (r := asked) (h := { files := files, tempDir := tempDir }) rfl rfl env time
    with failed | ⟨config, patterns, loaded, read, printed, coded⟩
  · exact Or.inl failed
  · refine Or.inr ⟨config, patterns, loaded, read, ?_, ?_⟩
    · intro tellable
      obtain ⟨doc, outcome, whole⟩ := ScanReport.outcome_of_tellable tellable
      rw [show asked.format.getD .text = .json from rfl, outcome] at printed coded
      exact ⟨coded.mpr rfl, doc, printed, whole⟩
    · intro untellable
      obtain ⟨shorter, e, outcome⟩ := ScanReport.outcome_of_not_tellable untellable
      rw [show asked.format.getD .text = .json from rfl, outcome] at printed coded
      refine ⟨?_, shorter, printed⟩
      intro success
      cases coded.mp success

def unnamedFile : FileTree :=
  ⟨[([Utf8.encode "a"], .file (Utf8.encode "_r x")), ([[0xFF]], .file (Utf8.encode "x"))], []⟩

/-- A file whose name is no text has to be told, so what is printed is no document. -/
theorem scan_breaks_off :
    let request : ScanRequest :=
      ⟨.sources ["a"], [.ofText "a", RuleSet.noText], false, false, none, false, none⟩
    let asked : Request := { format := some .json, command := some (.scan request) }
    let done := ofRequest asked ⟨none, none, none⟩ ""
      { files := unnamedFile, tempDir := .ofText "" }
    done.output ≠ "" ∧ ∀ doc, done.output ≠ doc ++ "\n" := by
  intro request asked done
  have rule : unnamedFile.find .target (.ofText "a") = _ :=
    FileTree.find_file rfl rfl rfl ⟨by decide, by decide, by decide, by decide⟩ rfl
  have found (purpose : FileTree.Purpose) : unnamedFile.find purpose RuleSet.noText = _ :=
    FileTree.find_file rfl rfl rfl ⟨by decide, by decide, by simp, by decide⟩ rfl
  have opened : unnamedFile.openObject RuleSet.noText = .ok (.file (Utf8.encode "x")) := by
    unfold FileTree.openObject FileTree.stat
    rw [found]
    rfl
  have unlinked : ¬ unnamedFile.IsLink RuleSet.noText := by
    rintro ⟨l, target, link⟩
    cases (found .itself).symm.trans link
  have unread : unnamedFile.readFile (Engine.shownPath RuleSet.noText) = .error (.os .notFound) := by
    have missing : unnamedFile.find .target (.ofText "\uFFFD") = .error .notFound :=
      FileTree.find_missing rfl rfl rfl ⟨by decide, by decide, by decide, by decide⟩ rfl
    rw [RuleSet.shownPath_noText]
    unfold FileTree.readFile FileTree.read FileTree.stat
    rw [missing]
    rfl
  obtain ⟨patterns, printed, _⟩ := ofRequest_of_find rfl rfl rule (some .json) request.targets
  have untellable : ¬ (scanReport {} request patterns unnamedFile).Tellable :=
    not_tellable_of_unread (by simp [request]) opened unlinked (by decide) unread (by decide) patterns
  obtain ⟨shorter, e, outcome⟩ := ScanReport.outcome_of_not_tellable untellable
  have ends : done.output = shorter ++ " " := printed.trans (congrArg Outcome.text outcome)
  rw [ends]
  constructor
  · simp
  · intro doc same
    have last := congrArg (fun text => text.toList.getLast?) same
    simp at last

end Completion

end Needle
