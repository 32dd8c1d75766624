import Needle.Command.Scan
import Needle.Proofs.RuleSet.File

/-!
# Scanning one file after another

What comes of a file is a function of the files and of the patterns that are looked for. Whatever
goes wrong with it concerns that file alone, so a scan of files goes through all of them.
-/
set_option autoImplicit false

namespace Needle

open Scan

/-- What came of a file: how its scan ended, and the rules that were kept. -/
structure FileOutcome where
  result : Except Error ScanSummary
  found : List Rule

namespace FileOutcome

def report? (o : FileOutcome) (path : Path) : Option FileReport :=
  match o.result with
  | .ok _ => if o.found.isEmpty then none else some ⟨path, o.found, none⟩
  | .error e => some ⟨path, o.found, some e.message⟩

def succeeded (o : FileOutcome) : Bool :=
  match o.result with
  | .ok _ => true
  | .error _ => false

end FileOutcome

def ScanReport.tell (r : ScanReport) (path : Path) (o : FileOutcome) : ScanReport :=
  { r with
    scanned := r.scanned + if o.succeeded then 1 else 0
    errors := r.errors + if o.succeeded then 0 else 1
    matched := r.matched + if o.found.isEmpty then 0 else 1
    files := r.files ++ (o.report? path).toList }

theorem ScanReport.record_eq (r : ScanReport) (path : Path) (o : FileOutcome)
    (concerns : ∀ e, o.result = .error e → concernsFile e = true) :
    r.record path o.found o.result = .ok (r.tell path o) := by
  obtain ⟨result, found⟩ := o
  cases result with
  | ok summary =>
      unfold record tell addFile FileOutcome.report? FileOutcome.succeeded
      cases found with
      | nil => simp
      | cons rule rest => simp
  | error e =>
      have concerned : concernsFile e = true := concerns e rfl
      unfold record tell addFile FileOutcome.report? FileOutcome.succeeded
      simp [concerned]

namespace Program

def picks (tag : Option String) (firstMatch : Bool) (rule : Rule) (found : List Rule) :
    Verdict × List Rule :=
  if tag.all rule.hasTag then (if firstMatch then .abort else .proceed, found ++ [rule])
  else (.proceed, found)

theorem select_eq (tag : Option String) (firstMatch : Bool) :
    select tag firstMatch = quiet (picks tag firstMatch) := by
  funext rule state
  unfold select quiet picks
  dsimp only
  split
  · rfl
  · rfl

theorem picks_ne_fail (tag : Option String) (firstMatch : Bool) (rule : Rule) (found : List Rule) :
    (picks tag firstMatch rule found).1 ≠ .fail := by
  unfold picks
  cases firstMatch with
  | true => split <;> simp
  | false => split <;> simp

end Program

theorem Scan.last_handOver {σ : Type} {answer : Rule → σ → Verdict × σ}
    (never : ∀ rule own, (answer rule own).1 ≠ .fail) (rules : List Rule) {tally : Tally}
    (sound : tally.last ≠ .fail) (own : σ) :
    (handOver answer rules (tally, own)).1.last ≠ .fail := by
  induction rules generalizing tally own with
  | nil => exact sound
  | cons rule rest ih =>
      have here := never rule own
      unfold handOver
      generalize answer rule own = answered at here
      obtain ⟨v, left⟩ := answered
      cases v with
      | proceed => exact ih (by simp) left
      | abort => simp
      | fail => exact absurd rfl here

/-- A scan that was not failed by its handler ends well, or with an error of the file. -/
theorem Scan.concernsFile_of_conclude {run : ScanRun} {path : Option Path} {e : Error}
    (sound : run.tally.last ≠ .fail) (failed : conclude run path = .error e) :
    ScanReport.concernsFile e = true := by
  unfold conclude at failed
  split at failed
  case h_1 last => exact absurd last sound
  case h_2 => contradiction
  case h_3 =>
    split at failed
    case isTrue =>
      cases failed
      rfl
    case isFalse =>
      unfold Code.checkScan at failed
      split at failed
      · contradiction
      · split at failed
        · cases failed
          rfl
        · split at failed
          · split at failed
            · cases failed
              rfl
            · cases failed
              rfl
          · cases failed
            rfl

/-- A file that cannot be opened is the only kind that is refused. -/
theorem ScanTarget.refusal?_file {files : FileTree} {path : Path} {e : Error}
    (refused : (ScanTarget.file path).refusal? files = some e) :
    ∃ cause, e = .fileRead path cause := by
  unfold ScanTarget.refusal? at refused
  dsimp only at refused
  split at refused
  case h_1 =>
    cases refused
    exact ⟨_, rfl⟩
  case h_2 opened refusal =>
    have plain := (FileTree.ask_eq_ok_iff.mp opened).1
    unfold Plain.path at refusal
    rw [plain] at refusal
    contradiction
  case h_3 => contradiction

namespace Program

variable {request : ScanRequest} {patterns : List Pattern} {h : Host}

def fileOutcome (request : ScanRequest) (patterns : List Pattern) (status : Code)
    (files : FileTree) (path : Path) : FileOutcome :=
  let ended := RuleSet.fileScan (picks request.tag request.firstMatch) patterns status files path []
  ⟨ended.1, ended.2⟩

theorem fileOutcome_concerns (request : ScanRequest) (patterns : List Pattern) (status : Code)
    (files : FileTree) (path : Path) (e : Error)
    (failed : (fileOutcome request patterns status files path).result = .error e) :
    ScanReport.concernsFile e = true := by
  unfold fileOutcome RuleSet.fileScan at failed
  dsimp only at failed
  split at failed
  case h_1 refused =>
    cases failed
    obtain ⟨cause, rfl⟩ := ScanTarget.refusal?_file refused
    rfl
  case h_2 =>
    dsimp only at failed
    refine concernsFile_of_conclude ?_ failed
    apply last_handOver (picks_ne_fail request.tag request.firstMatch)
    simp

theorem scanFiles_cons {s : RuleSet} {options : ScanOptions} {path : Path} {scanned : Host}
    {o : FileOutcome}
    (ran : s.scanFile path options (quiet (picks request.tag request.firstMatch)) (h, []) =
      (.returned o.result, scanned, o.found)) {report next : ScanReport}
    (recorded : report.record path o.found o.result = .ok next) (rest : List Path) :
    ∃ noted, scanFiles s request options report h (path :: rest) =
        scanFiles s request options next noted rest ∧
      noted.files = scanned.files ∧ noted.engines = scanned.engines := by
  rw [scanFiles, select_eq, ran]
  dsimp only [resultOf]
  rw [recorded]
  refine ⟨_, rfl, ?_⟩
  split
  · split
    · exact ⟨rfl, rfl⟩
    · exact ⟨rfl, rfl⟩
  · exact ⟨rfl, rfl⟩

/-- All files are scanned, whatever becomes of each, and everything stays with its holders. -/
theorem scanFiles_eq (s : RuleSet) (request : ScanRequest) (options : ScanOptions)
    (live : s.patterns? h = some patterns) (literal : (h.engine s.slot).faults.scan = none)
    (paths : List Path) (report : ScanReport) :
    let outcome := fileOutcome request patterns (h.engine s.slot).faults.scans h.files
    ∃ after, scanFiles s request options report h paths =
        (.ok (paths.foldl (fun report path => report.tell path (outcome path)) report), after) ∧
      h.SameRules after ∧ ∀ owners keys, s.key ∈ keys →
        h.Attended owners keys → after.Attended owners keys := by
  -- On the files; a scan keeps the rule sets and the files, so the outcome of the next one stays.
  induction paths generalizing h report with
  | nil => exact ⟨h, rfl, Host.sameRules_of_engines rfl rfl, fun _ _ _ attended => attended⟩
  | cons path rest ih =>
      let status := (h.engine s.slot).faults.scans
      let o := fileOutcome request patterns status h.files path
      obtain ⟨scanned, ran, same⟩ : ∃ scanned,
          s.scanFile path options (quiet (picks request.tag request.firstMatch)) (h, []) =
            (.returned o.result, scanned, o.found) ∧ h.SameRules scanned :=
        s.scanFile_quiet live literal path options (picks request.tag request.firstMatch) []
      have recorded := report.record_eq path o
        (fileOutcome_concerns request patterns status h.files path)
      obtain ⟨noted, goes, files, engines⟩ := scanFiles_cons ran recorded rest
      have kept := same.trans (Host.sameRules_of_engines files engines)
      have faults := (kept.engines s.slot).2
      obtain ⟨after, others, later, attends⟩ := ih (h := noted) ((kept.patterns? s).trans live)
        (faults ▸ literal) (report.tell path o)
      rw [faults, kept.files] at others
      refine ⟨after, goes.trans others, kept.trans later, fun owners keys member attended => ?_⟩
      let call : ScanCall := ⟨s, .file path, options⟩
      have held : (s.scanFile path options (quiet (picks request.tag request.firstMatch))
          (h, [])).2.1.Attended owners keys :=
        call.attended_quiet attended member (picks request.tag request.firstMatch) []
      rw [ran] at held
      exact attends owners keys member (held.congr engines)

end Program

end Needle
