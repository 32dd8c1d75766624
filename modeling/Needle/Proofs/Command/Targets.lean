import Needle.Proofs.Command.Accounting
import Needle.Proofs.Command.Scan
import Needle.Proofs.File.Walk

/-!
# Targets that are files

A report is a function of the items of the walks, and what it owes to one item can be told from the
rest. So a target that leads to a file adds one scanned, one skipped or one failed file to the
report; a link adds nothing where links are not followed, be it to a file and named as a target.
-/
set_option autoImplicit false

namespace Needle

namespace ScanReport

def toScan (limit : Nat) (among : List (Path × Option Nat)) : List Path :=
  (among.filter fun file => !isLarge limit file).map Prod.fst

def ofFiles (limit : Nat) (outcome : Path → FileOutcome) (failures : List FileReport)
    (among : List (Path × Option Nat)) : ScanReport :=
  let paths := toScan limit among
  let files := failures ++ paths.filterMap fun path => (outcome path).report? path
  { scanned := paths.countP fun path => (outcome path).succeeded
    matched := files.countP fun file => !file.found.isEmpty
    skipped := among.countP (isLarge limit)
    errors := failures.length + paths.countP fun path => !(outcome path).succeeded
    files := files }

/-- A report that accounts for one mention of a path more: the file is skipped, or it is scanned and
told with what it satisfies, or it is told with an error. -/
inductive OneMore (path : Path) (r : ScanReport) : ScanReport → Prop
  | skipped : OneMore path r { r with skipped := r.skipped + 1 }
  | scanned {first rest : List FileReport} (files : r.files = first ++ rest) (found : List Rule) :
      OneMore path r { r with
        scanned := r.scanned + 1
        matched := r.matched + if found.isEmpty then 0 else 1
        files := first ++ (if found.isEmpty then [] else [⟨path, found, none⟩]) ++ rest }
  | failed {first rest : List FileReport} (files : r.files = first ++ rest) (found : List Rule)
      (cause : String) :
      OneMore path r { r with
        errors := r.errors + 1
        matched := r.matched + if found.isEmpty then 0 else 1
        files := first ++ ⟨path, found, some cause⟩ :: rest }

theorem OneMore.total {path : Path} {r after : ScanReport} (more : r.OneMore path after) :
    after.scanned + after.skipped + after.errors = r.scanned + r.skipped + r.errors + 1 := by
  cases more with
  | skipped =>
      dsimp only
      omega
  | scanned files found =>
      dsimp only
      omega
  | failed files found cause =>
      dsimp only
      omega

variable {limit : Nat} {outcome : Path → FileOutcome} {failures : List FileReport} {path : Path}
  {before after : List (Path × Option Nat)}

theorem toScan_small {size : Option Nat} (small : isLarge limit (path, size) = false)
    (before after : List (Path × Option Nat)) : toScan limit (before ++ (path, size) :: after) =
      toScan limit before ++ [path] ++ toScan limit after := by
  simp [toScan, small]

theorem ofFiles_large {size : Option Nat} (large : isLarge limit (path, size) = true) :
    let r := ofFiles limit outcome failures (before ++ after)
    ofFiles limit outcome failures (before ++ (path, size) :: after) =
      { r with skipped := r.skipped + 1 } := by
  intro r
  simp [r, ofFiles, toScan, large]
  omega

theorem ofFiles_small (outcome : Path → FileOutcome) (failures : List FileReport)
    (before after : List (Path × Option Nat)) {size : Option Nat}
    (small : isLarge limit (path, size) = false) :
    let r := ofFiles limit outcome failures (before ++ after)
    let told := ((outcome path).report? path).toList
    ∃ first rest, r.files = first ++ rest ∧
      ofFiles limit outcome failures (before ++ (path, size) :: after) =
        { r with
          scanned := r.scanned + if (outcome path).succeeded then 1 else 0
          errors := r.errors + if (outcome path).succeeded then 0 else 1
          matched := r.matched + told.countP fun file => !file.found.isEmpty
          files := first ++ told ++ rest } := by
  intro r told
  let others (among : List (Path × Option Nat)) : List FileReport :=
    (toScan limit among).filterMap fun path => (outcome path).report? path
  refine ⟨failures ++ others before, others after, ?_, ?_⟩
  · simp [r, ofFiles, toScan, others]
  · have skipped : (before ++ (path, size) :: after).countP (isLarge limit) =
        (before ++ after).countP (isLarge limit) := by
      simp [small]
    have apart : toScan limit (before ++ after) = toScan limit before ++ toScan limit after := by
      simp [toScan]
    have one : [path].filterMap (fun path => (outcome path).report? path) = told := by
      rw [List.filterMap_cons]
      unfold told
      cases (outcome path).report? path with
      | none => rfl
      | some file => rfl
    unfold ofFiles
    rw [toScan_small small, skipped]
    simp only [r, ofFiles, apart, others, List.filterMap_append, one, List.countP_append,
      List.countP_singleton, List.append_assoc, ScanReport.mk.injEq, true_and, and_true]
    refine ⟨?scanned, ?matched, ?errors⟩
    case scanned => omega
    case matched => omega
    case errors =>
      cases (outcome path).succeeded with
      | true => simp
      | false =>
          simp only [Bool.not_false, if_true, Bool.false_eq_true, if_false]
          omega

theorem oneMore_ofFiles (size : Option Nat) :
    OneMore path (ofFiles limit outcome failures (before ++ after))
      (ofFiles limit outcome failures (before ++ (path, size) :: after)) := by
  cases large : isLarge limit (path, size) with
  | true =>
      rw [ofFiles_large large]
      exact .skipped
  | false =>
      obtain ⟨first, rest, files, more⟩ := ofFiles_small outcome failures before after large
      rw [more]
      unfold FileOutcome.report? FileOutcome.succeeded
      generalize outcome path = came
      obtain ⟨result, found⟩ := came
      cases result with
      | ok summary =>
          cases found with
          | nil => exact .scanned files []
          | cons rule others => exact .scanned files (rule :: others)
      | error e =>
          have told : first ++ [⟨path, found, some e.message⟩] ++ rest =
              first ++ ⟨path, found, some e.message⟩ :: rest := by simp
          cases found with
          | nil => exact told ▸ .failed files [] e.message
          | cons rule others => exact told ▸ .failed files (rule :: others) e.message

/-- The report on the items of some walks. -/
def ofItems (limit : Nat) (outcome : Path → FileOutcome) (items : List WalkItem) : ScanReport :=
  ofFiles limit outcome (items.filterMap WalkItem.failure?) (filesAmong items)

variable {first last : List WalkItem}

theorem ofItems_idle {item : WalkItem} (nothing : item.file? = none) (quiet : item.failure? = none) :
    ofItems limit outcome (first ++ [item] ++ last) = ofItems limit outcome (first ++ last) := by
  simp [ofItems, filesAmong, nothing, quiet]

theorem oneMore_ofItems (size : Option Nat) : OneMore path (ofItems limit outcome (first ++ last))
    (ofItems limit outcome (first ++ [.visited path (.file size)] ++ last)) := by
  have here : WalkItem.file? (.visited path (.file size)) = some (path, size) := rfl
  have quiet : WalkItem.failure? (.visited path (.file size)) = none := rfl
  simp only [ofItems, filesAmong, List.filterMap_append, List.filterMap_cons, here, quiet,
    List.append_assoc, List.singleton_append]
  exact oneMore_ofFiles size

end ScanReport

namespace Program

theorem survey_eq (config : Config) (request : ScanRequest) (files : FileTree) :
    survey config request files = Survey.ofWalks config (walksOf config request files) := by
  unfold survey Survey.ofWalks walksOf
  rw [List.foldl_map]

theorem Survey.Covers.report {s : Survey} {limit : Nat} {items : List WalkItem}
    (covers : s.Covers limit items) (outcome : Path → FileOutcome) :
    s.files.foldl (fun report path => report.tell path (outcome path)) s.report =
      .ofItems limit outcome items := by
  obtain ⟨sound, counted, scanned, skipped, files⟩ :=
    ScanReport.tells_files covers.sound outcome s.files
  have matched := sound.matched
  have split := List.length_eq_countP_add_countP (fun path => (outcome path).succeeded)
    (l := filesToScan limit items)
  simp only [Bool.not_eq_true, Bool.decide_eq_false] at split
  rw [covers.files, covers.scanned] at counted scanned
  rw [covers.errors] at counted
  rw [covers.skipped] at skipped
  rw [covers.told] at files
  rw [covers.files] at matched skipped files ⊢
  generalize List.foldl _ s.report _ = report at counted scanned skipped matched files ⊢
  have failed : report.errors = (items.filterMap WalkItem.failure?).length +
      (filesToScan limit items).countP fun path => !(outcome path).succeeded := by omega
  rw [Nat.zero_add] at scanned
  rw [files] at matched
  obtain ⟨_, _, _, _, _⟩ := report
  dsimp only at scanned matched skipped failed files
  rw [scanned, matched, skipped, failed, files]
  rfl

def walkOptions (config : Config) (request : ScanRequest) : FileTree.WalkOptions :=
  ⟨config.scan.followSymlinks, if request.deep then none else some 1⟩

/-- The report of a scan is the report on the items of its walks. -/
theorem scanReport_eq (config : Config) (request : ScanRequest) (patterns : List Pattern)
    (files : FileTree) :
    scanReport config request patterns files =
      .ofItems config.scan.maxFileSize (fileOutcome request patterns Code.success files)
        (request.targets.flatMap (files.walkFrom (walkOptions config request))) := by
  have items : (walksOf config request files).flatMap Prod.snd =
      request.targets.flatMap (files.walkFrom (walkOptions config request)) := by
    unfold walksOf
    rw [List.flatMap_map]
    rfl
  rw [← items]
  unfold scanReport
  rw [survey_eq]
  exact (Survey.covers_ofWalks config (walksOf config request files)).report _

theorem scanReport_target (config : Config) (request : ScanRequest) (patterns : List Pattern)
    (before after : List Path) {files : FileTree} {target : Path} {content : Bytes}
    (opened : files.openObject target = .ok (.file content)) :
    let others := scanReport config { request with targets := before ++ after } patterns files
    let report :=
      scanReport config { request with targets := before ++ target :: after } patterns files
    (config.scan.followSymlinks = true ∨ ¬ files.IsLink target → others.OneMore target report) ∧
      (config.scan.followSymlinks = false ∧ files.IsLink target → report = others) := by
  intro others report
  let walks := files.walkFrom (walkOptions config request)
  obtain ⟨seen, passed⟩ := FileTree.walkFrom_opened (o := walkOptions config request) opened
  have here : report = .ofItems config.scan.maxFileSize
      (fileOutcome request patterns Code.success files)
      (before.flatMap walks ++ walks target ++ after.flatMap walks) := by
    have reported := scanReport_eq config { request with targets := before ++ target :: after }
      patterns files
    rw [List.flatMap_append, List.flatMap_cons, ← List.append_assoc] at reported
    exact reported
  have there : others = .ofItems config.scan.maxFileSize
      (fileOutcome request patterns Code.success files)
      (before.flatMap walks ++ after.flatMap walks) := by
    have reported := scanReport_eq config { request with targets := before ++ after } patterns files
    rw [List.flatMap_append] at reported
    exact reported
  rw [here, there]
  constructor
  · intro met
    rw [show walks target = _ from seen met]
    exact ScanReport.oneMore_ofItems (files.size? target)
  · intro unmet
    rw [show walks target = _ from passed unmet]
    exact ScanReport.ofItems_idle rfl rfl

end Program

namespace Completion

open Program

section Bare

variable {files : FileTree} {l : Location}

theorem loadConfig_bare (root : files.current = [])
    (absent : files.entry? [Utf8.encode "rulescan"] = none) {r : Request} (unnamed : r.config = none) :
    r.loadConfig ⟨none, none, none⟩ files = .ok {} := by
  let place := Environment.configPath ⟨none, none, none⟩
  have names : FileTree.steps place =
      [Path.dot, Utf8.encode "rulescan", Utf8.encode "config.json"] := by decide
  have accepted : FileTree.refusal? place = none := by decide
  have missing : files.walk .target FileTree.linkLimit [] (FileTree.steps place) =
      .error .notFound := by
    rw [names, FileTree.walk, if_pos (by decide)]
    exact FileTree.walk_missing ⟨by decide, by decide, by decide, by decide⟩ absent (by simp)
  have found : files.find .target place = .error .notFound := by
    unfold FileTree.find FileTree.locate
    rw [accepted]
    dsimp only
    rw [root, ite_self, missing]
  have holds : files.holds place = false := by
    unfold FileTree.holds FileTree.exists? FileTree.stat
    rw [found]
    simp [Except.map]
  unfold Request.loadConfig Config.loadOrDefault
  rw [unnamed]
  dsimp only
  rw [holds]
  rfl

theorem ofRequest_of_find (root : files.current = [])
    (absent : files.entry? [Utf8.encode "rulescan"] = none)
    (found : files.find .target (.ofText "a") = .ok (l, .file (Utf8.encode "_r x")))
    (format : Option OutputFormat) (targets : List Path) :
    let request : ScanRequest := ⟨.sources ["a"], targets, false, false, none, false, none⟩
    let done := ofRequest { format := format, command := some (.scan request) } ⟨none, none, none⟩ ""
      { files := files, tempDir := .ofText "" }
    ∃ patterns,
      let outcome := (scanReport {} request patterns files).outcome (format.getD .text)
      done.output = outcome.text ∧ (done.exitCode = 0 ↔ outcome.failure = none) := by
  intro request done
  obtain ⟨c, known, taken, lenient⟩ := session_of_find found {}
  have verdict : c.verdict = none := by
    unfold Compiler.verdict
    rw [lenient]
    rfl
  have read : rulesRead {} files request.origin = .ok known := by
    unfold rulesRead
    dsimp only [request]
    rw [taken]
    dsimp only
    rw [verdict]
  let r : Request := { format := format, command := some (.scan request) }
  have loaded := loadConfig_bare root absent (r := r) rfl
  obtain ⟨printed, coded⟩ := ofRequest_scanned (r := r)
    (h := { files := files, tempDir := .ofText "" }) rfl rfl loaded rfl ""
  unfold scanned at printed coded
  rw [read] at printed coded
  exact ⟨known, printed, coded⟩

end Bare

/-- A scan that ends well accounts once for each mention of a target that leads to a file, except
that a link is left out without a word where links are not followed. -/
theorem scan_of_target (r : Request) (request : ScanRequest) (env : Environment) (time : String)
    (files : FileTree) (tempDir : Path) (before after : List Path) {target : Path} {content : Bytes}
    (opened : files.openObject target = .ok (.file content)) :
    let all := { request with targets := before ++ target :: after }
    let done := ofRequest { r with command := some (.scan all) } env time
      { files := files, tempDir := tempDir }
    done.exitCode = 0 → ∃ config patterns, r.loadConfig env files = .ok config ∧
      rulesRead config files request.origin = .ok patterns ∧
      let others := scanReport config { request with targets := before ++ after } patterns files
      let report := scanReport config all patterns files
      done.output = (report.outcome (r.format.getD .text)).text ∧
      (config.scan.followSymlinks = true ∨ ¬ files.IsLink target → others.OneMore target report) ∧
      (config.scan.followSymlinks = false ∧ files.IsLink target → report = others) := by
  intro all done success
  rcases ofRequest_scan (r := { r with command := some (.scan all) })
      (h := { files := files, tempDir := tempDir }) rfl rfl env time with
    ⟨failed, _⟩ | ⟨config, patterns, loaded, read, printed, _⟩
  · exact absurd success failed
  · exact ⟨config, patterns, loaded, read, printed,
      scanReport_target config request patterns before after opened⟩

theorem scan_of_target_rule_file :
    let request : ScanRequest :=
      ⟨.sources ["a"], [.ofText "a"], false, false, none, false, none⟩
    let done := ofRequest { command := some (.scan request) } ⟨none, none, none⟩ ""
      { files := privateRule, tempDir := .ofText "" }
    done.exitCode = 0 ∧ ∃ patterns,
      (scanReport {} { request with targets := [] } patterns privateRule).OneMore (.ofText "a")
        (scanReport {} request patterns privateRule) := by
  intro request done
  have opened : privateRule.openObject (.ofText "a") = .ok (.file (Utf8.encode "_r x")) := by
    unfold FileTree.openObject FileTree.stat
    rw [find_privateRule]
    rfl
  obtain ⟨_, _, coded⟩ := ofRequest_of_find rfl rfl find_privateRule none [.ofText "a"]
  have success : done.exitCode = 0 := coded.mpr rfl
  obtain ⟨config, patterns, loaded, _, _, met, _⟩ := scan_of_target {} request ⟨none, none, none⟩ ""
    privateRule (.ofText "") [] [] opened success
  cases (loadConfig_bare rfl rfl rfl).symm.trans loaded
  refine ⟨success, patterns, met (Or.inr ?_)⟩
  rintro ⟨l, target, link⟩
  have file : privateRule.find .itself (.ofText "a") = _ :=
    FileTree.find_file rfl rfl rfl ⟨by decide, by decide, by decide, by decide⟩ rfl
  cases file.symm.trans link

def linkedRule : FileTree :=
  ⟨[([Utf8.encode "a"], .file (Utf8.encode "_r x")), ([Utf8.encode "l"], .link (.ofText "a"))], []⟩

/-- A link to a file that is named as a target is neither scanned nor skipped nor told. -/
theorem link_left_out :
    let request : ScanRequest :=
      ⟨.sources ["a"], [.ofText "l"], false, false, none, false, none⟩
    let asking : Request := { command := some (.scan request) }
    let done := ofRequest asking ⟨none, none, none⟩ ""
      { files := linkedRule, tempDir := .ofText "" }
    linkedRule.openObject (.ofText "l") = .ok (.file (Utf8.encode "_r x")) ∧ done.exitCode = 0 ∧
      asking.loadConfig ⟨none, none, none⟩ linkedRule = .ok {} ∧ ∀ patterns,
        ¬ (scanReport {} { request with targets := [] } patterns linkedRule).OneMore (.ofText "l")
          (scanReport {} request patterns linkedRule) := by
  intro request asking done
  have rule : linkedRule.find .target (.ofText "a") = _ :=
    FileTree.find_file rfl rfl rfl ⟨by decide, by decide, by decide, by decide⟩ rfl
  have goal : linkedRule.find .target (.ofText "l") =
      .ok ([Utf8.encode "a"], .file (Utf8.encode "_r x")) := by
    rw [FileTree.find_eq_ok_iff, FileTree.locate_eq_ok_iff]
    refine ⟨rfl, .follow ⟨by decide, by decide, by decide, by decide⟩ rfl (by simp) (by decide) ?_⟩
    exact .file ⟨by decide, by decide, by decide, by decide⟩ rfl
  have link : linkedRule.IsLink (.ofText "l") := by
    refine ⟨[Utf8.encode "l"], .ofText "a", ?_⟩
    rw [FileTree.find_eq_ok_iff, FileTree.locate_eq_ok_iff]
    exact ⟨rfl, .itself ⟨by decide, by decide, by decide, by decide⟩ rfl rfl⟩
  have opened : linkedRule.openObject (.ofText "l") = .ok (.file (Utf8.encode "_r x")) := by
    unfold FileTree.openObject FileTree.stat
    rw [goal]
    rfl
  obtain ⟨_, _, coded⟩ := ofRequest_of_find rfl rfl rule none [.ofText "l"]
  refine ⟨opened, coded.mpr rfl, loadConfig_bare rfl rfl rfl, ?_⟩
  intro patterns more
  obtain ⟨_, same⟩ := scanReport_target {} request patterns [] [] opened
  have left : scanReport {} request patterns linkedRule =
      scanReport {} { request with targets := [] } patterns linkedRule := same ⟨rfl, link⟩
  rw [left] at more
  exact absurd more.total (by omega)

end Completion

end Needle
