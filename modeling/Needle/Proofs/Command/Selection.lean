import Needle.Proofs.Command.Files
import Needle.Proofs.File.Read
import Needle.Proofs.RuleSet.Match
import Needle.Proofs.RuleSet.Naming

/-!
# Which matches of a file are recorded

A scan of files steers the engine from within: it passes over the rules without the tag that is
asked for, and stops the engine at the first rule that it keeps, if one is enough. What it records
for a file is nevertheless what can be selected from the list of all matches of the file, and a file
whose scan was stopped like this is counted as scanned.
-/
set_option autoImplicit false

namespace Needle

open Scan

namespace Scan

theorem conclude_success {tally : Tally} (sound : tally.last ≠ .fail) (path : Option Path) :
    ∃ summary, conclude ⟨Code.success, tally⟩ path = .ok summary := by
  obtain ⟨calls, last⟩ := tally
  cases last with
  | proceed => exact ⟨_, conclude_proceed Code.success calls path⟩
  | abort => exact ⟨_, rfl⟩
  | fail => exact absurd rfl sound

theorem success_of_conclude {code : Code} {calls : Nat} {path : Option Path} {summary : ScanSummary}
    (concluded : conclude ⟨code, calls, .proceed⟩ path = .ok summary) : code = Code.success := by
  rw [conclude_proceed] at concluded
  split at concluded
  case isTrue success => exact success
  case isFalse =>
    split at concluded
    · contradiction
    · split at concluded
      · split at concluded
        · contradiction
        · contradiction
      · contradiction

end Scan

namespace RuleSet

variable {σ : Type} {s : RuleSet} {h : Host} {patterns : List Pattern} {text : String} {data : Bytes}

theorem fileScan_of_readFile {files : FileTree} (holds : files.readFile (.ofText text) = .ok data)
    (answer : Rule → σ → Verdict × σ) (patterns : List Pattern) (status : Code) (own : σ) :
    let handed := handOver answer (Pattern.rulesIn data patterns) ({}, own)
    fileScan answer patterns status files (.ofText text) own =
      (conclude ⟨status, handed.1⟩ (some (.ofText text)), handed.2) := by
  have begins := begins_of_readFile (h := { files := files, tempDir := .ofText "" }) holds
  unfold fileScan
  rw [begins, Path.shownPath_ofText, holds]
  dsimp only [Engine.reports]
  rw [Pattern.map_toRule_events]

theorem matchFile_of_readFile (live : s.patterns? h = some patterns)
    (literal : (h.engine s.slot).faults.scan = none)
    (holds : h.files.readFile (.ofText text) = .ok data) (listed : List Rule) :
    (s.matchFile (.ofText text) h).1 = .ok listed ↔
      (h.engine s.slot).faults.scans = Code.success ∧ listed = Pattern.rulesIn data patterns := by
  obtain ⟨after, scanned, _⟩ := s.scanFile_quiet live literal (.ofText text) s.options gather []
  rw [fileScan_of_readFile holds, handOver_gather] at scanned
  unfold matchFile
  rw [collect_eq, scanned]
  dsimp only
  rw [Nat.zero_add, List.nil_append]
  generalize (h.engine s.slot).faults.scans = status
  by_cases success : status = Code.success
  · subst success
    exact ⟨fun lists => ⟨rfl, (Except.ok.inj lists).symm⟩, fun lists => congrArg Except.ok lists.2.symm⟩
  · refine iff_of_false (fun lists => ?_) fun lists => success lists.1
    cases concluded : conclude ⟨status, (Pattern.rulesIn data patterns).length, .proceed⟩
        (some (.ofText text)) with
    | ok summary => exact success (success_of_conclude concluded)
    | error e =>
        rw [concluded] at lists
        contradiction

end RuleSet

namespace Program

def wants (tag : Option String) (rule : Rule) : Bool := tag.all rule.hasTag

/-- The rules of a list that a request records: those that it asks for, or only the first of them. -/
def selected (tag : Option String) (firstMatch : Bool) (listed : List Rule) : List Rule :=
  if firstMatch then (listed.filter (wants tag)).take 1 else listed.filter (wants tag)

/-- Picking while the rules are handed over, and stopping early, selects from all of them. -/
theorem handOver_picks (tag : Option String) (firstMatch : Bool) (rules : List Rule) (tally : Tally)
    (found : List Rule) :
    (handOver (picks tag firstMatch) rules (tally, found)).2 =
      found ++ selected tag firstMatch rules := by
  induction rules generalizing tally found with
  | nil => simp [handOver, selected]
  | cons rule rest ih =>
      by_cases wanted : wants tag rule = true
      · have picked : picks tag firstMatch rule found =
            (if firstMatch then .abort else .proceed, found ++ [rule]) := if_pos wanted
        have kept : (rule :: rest).filter (wants tag) = rule :: rest.filter (wants tag) :=
          List.filter_cons_of_pos wanted
        rw [handOver, picked]
        cases firstMatch with
        | true => simp [selected, kept]
        | false =>
            simp only [Bool.false_eq_true, if_false]
            rw [ih, selected, selected, kept, List.append_assoc]
            rfl
      · have passed : picks tag firstMatch rule found = (.proceed, found) := if_neg wanted
        have left : (rule :: rest).filter (wants tag) = rest.filter (wants tag) :=
          List.filter_cons_of_neg wanted
        rw [handOver, passed]
        dsimp only
        rw [ih, selected, selected, left]

theorem selected_eq_nil_iff (tag : Option String) (firstMatch : Bool) (listed : List Rule) :
    selected tag firstMatch listed = [] ↔ listed.filter (wants tag) = [] := by
  unfold selected
  split
  · simp
  · rfl

theorem selected_first (tag : Option String) (listed : List Rule) :
    selected tag true listed = (listed.find? (wants tag)).toList := by
  unfold selected
  rw [if_pos rfl, List.take_one, List.head?_filter]

/-- What is recorded for a file, given the list of all its matches. -/
structure Selects (request : ScanRequest) (path : Path) (listed : List Rule) (o : FileOutcome) :
    Prop where
  found : o.found = selected request.tag request.firstMatch listed
  /-- The first rule that carries the tag, whatever is satisfied before it. -/
  first : request.firstMatch = true → o.found = (listed.find? (wants request.tag)).toList
  nothing : o.found = [] ↔ listed.filter (wants request.tag) = []
  /-- The file is counted as scanned, also if its scan was stopped or found nothing. -/
  recorded : ∀ r : ScanReport, r.record path o.found o.result = .ok { r with
    scanned := r.scanned + 1
    matched := r.matched + if o.found = [] then 0 else 1
    files := if o.found = [] then r.files else r.files ++ [⟨path, o.found, none⟩] }

variable {text : String} {data : Bytes}

theorem selects_of_readFile (request : ScanRequest) (patterns : List Pattern) {files : FileTree}
    (holds : files.readFile (.ofText text) = .ok data) :
    Selects request (.ofText text) (Pattern.rulesIn data patterns)
      (fileOutcome request patterns Code.success files (.ofText text)) := by
  let rules := Pattern.rulesIn data patterns
  let handed := handOver (picks request.tag request.firstMatch) rules ({}, [])
  have outcome : fileOutcome request patterns Code.success files (.ofText text) =
      ⟨conclude ⟨Code.success, handed.1⟩ (some (.ofText text)), handed.2⟩ := by
    unfold fileOutcome
    rw [RuleSet.fileScan_of_readFile holds]
  have picked : handed.2 = selected request.tag request.firstMatch rules :=
    handOver_picks request.tag request.firstMatch rules {} []
  obtain ⟨summary, concluded⟩ : ∃ summary,
      conclude ⟨Code.success, handed.1⟩ (some (.ofText text)) = .ok summary := by
    apply conclude_success
    exact last_handOver (picks_ne_fail request.tag request.firstMatch) rules (by simp) []
  rw [outcome, concluded, picked]
  constructor
  case found => rfl
  case first =>
    intro one
    dsimp only
    rw [one, selected_first]
  case nothing => exact selected_eq_nil_iff request.tag request.firstMatch rules
  case recorded =>
    intro r
    unfold ScanReport.record ScanReport.addFile
    cases selected request.tag request.firstMatch rules with
    | nil => rfl
    | cons rule rest => rfl

/-- A scan of files takes one file after another into the report. For each readable file with a text
as its name that is what can be selected from the list of its matches, and there is such a list
unless the engine is told to fail. -/
theorem scanFiles_selects (s : RuleSet) (request : ScanRequest) (options : ScanOptions) (h : Host)
    {patterns : List Pattern} (live : s.patterns? h = some patterns)
    (literal : (h.engine s.slot).faults.scan = none) (report : ScanReport) (paths : List Path) :
    ∃ (outcome : Path → FileOutcome) (final : ScanReport) (after : Host),
      scanFiles s request options report h paths = (.ok final, after) ∧
      paths.foldlM (fun r path => r.record path (outcome path).found (outcome path).result) report =
        .ok final ∧
      ∀ text data, h.files.readFile (.ofText text) = .ok data →
        ((h.engine s.slot).faults.scans = Code.success →
          ∃ listed, (s.matchFile (.ofText text) h).1 = .ok listed) ∧
        ∀ listed, (s.matchFile (.ofText text) h).1 = .ok listed →
          Selects request (.ofText text) listed (outcome (.ofText text)) := by
  obtain ⟨after, scanned, _⟩ := scanFiles_eq s request options live literal paths report
  let status := (h.engine s.slot).faults.scans
  let outcome := fileOutcome request patterns status h.files
  refine ⟨outcome, _, after, scanned, ?_, fun text data holds => ?_⟩
  · have each (r : ScanReport) (path : Path) :
        r.record path (outcome path).found (outcome path).result =
          pure (r.tell path (outcome path)) :=
      r.record_eq path (outcome path) (fileOutcome_concerns request patterns status h.files path)
    simp only [each]
    exact List.foldlM_pure
  · have lists := RuleSet.matchFile_of_readFile live literal holds
    refine ⟨fun healthy => ⟨_, (lists _).mpr ⟨healthy, rfl⟩⟩, fun listed matched => ?_⟩
    obtain ⟨healthy, rfl⟩ := (lists listed).mp matched
    have same : outcome = fileOutcome request patterns Code.success h.files := by
      unfold outcome status
      rw [healthy]
    rw [same]
    exact selects_of_readFile request patterns holds

def threeRules : List Pattern :=
  [⟨"ns", "plain", "a", [], []⟩, ⟨"ns", "tagged", "x", ["t"], []⟩, ⟨"ns", "other", "y", ["t"], []⟩]

def taggedHost : Host where
  files := ⟨[([Utf8.encode "data"], .file (Utf8.encode "xay"))], []⟩
  tempDir := .ofText ""
  engines := [{ engine := ((Engine.fresh {}).addRuleSet threeRules).2, holders := 2 }]

theorem threeRules_live : RuleSet.soleRules.patterns? taggedHost = some threeRules := rfl

theorem readFile_taggedHost :
    taggedHost.files.readFile (.ofText "data") = .ok (Utf8.encode "xay") :=
  FileTree.readFile_eq_ok_iff.mpr
    (FileTree.openObject_of_entry rfl rfl rfl ⟨by decide, by decide, by decide, by decide⟩ rfl rfl)

/-- The scan is stopped at the second of the three rules. -/
theorem scanFiles_selects_of_a_later_tag :
    let request : ScanRequest :=
      ⟨.saved (.ofText "rules"), [], false, false, none, true, some "t"⟩
    ∃ final after, scanFiles RuleSet.soleRules request {} {} taggedHost [.ofText "data"] =
        (.ok final, after) ∧
      final.scanned = 1 ∧ final.files = [⟨.ofText "data", [⟨"tagged", "ns", ["t"], []⟩], none⟩] := by
  intro request
  obtain ⟨outcome, final, after, scanned, fold, selects⟩ := scanFiles_selects RuleSet.soleRules
    request {} taggedHost threeRules_live rfl {} [.ofText "data"]
  have lists := RuleSet.matchFile_of_readFile threeRules_live rfl readFile_taggedHost
  have selected := (selects "data" _ readFile_taggedHost).2 _ ((lists _).mpr ⟨rfl, rfl⟩)
  have found : (outcome (.ofText "data")).found = [⟨"tagged", "ns", ["t"], []⟩] :=
    (selected.first rfl).trans (by decide +kernel)
  rw [List.foldlM_cons, selected.recorded, found] at fold
  cases fold
  exact ⟨_, after, scanned, rfl, rfl⟩

end Program

end Needle
