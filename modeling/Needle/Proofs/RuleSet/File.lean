import Needle.Proofs.Client.Operations
import Needle.Proofs.RuleSet.RoundTrip
import Needle.Proofs.Scan.Quiet

/-!
# What a rule set finds in a file

A scan of a file whose handler leaves the host alone. What comes of it is a function of the files,
of the patterns of the rule set and of the engine's status; the engines have what they had.
-/
set_option autoImplicit false

namespace Needle

open Scan

variable {σ : Type}

theorem Host.sameRules_of_engines {h other : Host} (files : other.files = h.files)
    (engines : other.engines = h.engines) : h.SameRules other where
  files := files
  engines i := by
    unfold Host.engine Host.slot
    rw [engines]
    exact ⟨rfl, rfl⟩

theorem Host.SameRules.patterns? {h other : Host} (same : h.SameRules other) (s : RuleSet) :
    s.patterns? other = s.patterns? h := by
  unfold RuleSet.patterns? Engine.ruleSet?
  rw [(same.engines s.slot).1]

def Engine.reports (status : Code) (patterns : List Pattern) :
    Except IoError Bytes → Code × List Event
  | .ok content => (status, Pattern.events content patterns)
  | .error _ => (Code.couldNotOpenFile, [])

theorem Engine.scanFile_loop {S : Type} (e : Engine) {handle : Handle} {patterns : List Pattern}
    (live : e.ruleSet? handle = some patterns) (literal : e.faults.scan = none) (files : FileTree)
    (path : Path) (o : ScanOptions) :
    let told := reports e.faults.scans patterns (files.readFile (shownPath path))
    (e.scanFile (S := S) files handle path o).1 = .ofEvents false told.1 told.2 := by
  have traced (call : EngineCall) : (e.trace call).faults.scan = none := literal
  unfold scanFile
  dsimp only
  rw [traced]
  cases files.readFile (shownPath path) with
  | error cause => rfl
  | ok content =>
      have held : e.ruleSets.lookup handle = some patterns := live
      have loop := (e.trace (.scanFile handle path o.flags o.timeoutSecs.toOption)).scan_loop
        (S := S) handle content
      rw [show (e.trace _).ruleSets = e.ruleSets from rfl, held] at loop
      exact loop

namespace RuleSet

/-- What comes of the scan of a file: its result, and the state of the handler. -/
def fileScan (answer : Rule → σ → Verdict × σ) (patterns : List Pattern) (status : Code)
    (files : FileTree) (path : Path) (own : σ) : Except Error ScanSummary × σ :=
  match (ScanTarget.file path).refusal? files with
  | some e => (.error e, own)
  | none =>
    let told := Engine.reports status patterns (files.readFile (Engine.shownPath path))
    let handed := handOver answer (told.2.map Event.toRule) ({}, own)
    (conclude ⟨told.1, handed.1⟩ (some path), handed.2)

variable {h : Host} {patterns : List Pattern}

theorem scanFile_begun (s : RuleSet) (live : s.patterns? h = some patterns)
    (literal : (h.engine s.slot).faults.scan = none) {path : Path}
    (begins : (ScanTarget.file path).refusal? h.files = none) (options : ScanOptions)
    (handler : Handler σ) (own : σ) :
    ∃ begun, h.SameRules begun ∧ begun.scans = h.scans ∧
      let told := Engine.reports (h.engine s.slot).faults.scans patterns
        (h.files.readFile (Engine.shownPath path))
      let ran := Scan.run handler (fun _ => .ofEvents false told.1 told.2) (begun, own)
      s.scanFile path options handler (h, own) = (ran.1.outcome (some path), ran.2) := by
  let call : ScanCall := ⟨s, .file path, options⟩
  have starts : call.target.refusal? h.files = none := begins
  have runs := ScanCall.scan_of_begun starts handler own
  have loop := (h.engine s.slot).scanFile_loop (S := Host × σ) live literal h.files path options
  let asked := call.ask (S := Host × σ) (h.note call.target.note)
  obtain ⟨same, scans⟩ := call.sameRules_ask (S := Host × σ) (h.note call.target.note)
  have noted : h.SameRules (h.note call.target.note) := Host.sameRules_of_engines rfl rfl
  refine ⟨asked.2, noted.trans same, scans, ?_⟩
  intro told ran
  have asks : asked.1 = .ofEvents false told.1 told.2 := loop
  have scanned : s.scanFile path options handler (h, own) = call.scan handler (h, own) := rfl
  rw [scanned, runs]
  dsimp only
  rw [show call.ask _ = asked from rfl, asks]
  rfl

theorem scanFile_quiet (s : RuleSet) (live : s.patterns? h = some patterns)
    (literal : (h.engine s.slot).faults.scan = none) (path : Path) (options : ScanOptions)
    (answer : Rule → σ → Verdict × σ) (own : σ) :
    let ended := fileScan answer patterns (h.engine s.slot).faults.scans h.files path own
    ∃ after, s.scanFile path options (quiet answer) (h, own) =
        (.returned ended.1, after, ended.2) ∧ h.SameRules after := by
  unfold fileScan
  cases begins : (ScanTarget.file path).refusal? h.files with
  | some e =>
      let call : ScanCall := ⟨s, .file path, options⟩
      have refused : call.target.refusal? h.files = some e := begins
      exact ⟨h, ScanCall.scan_of_refused refused _ own, ⟨rfl, fun _ => ⟨rfl, rfl⟩⟩⟩
  | none =>
      obtain ⟨begun, same, _, runs⟩ := s.scanFile_begun live literal begins options (quiet answer) own
      obtain ⟨ending, after, ran, concluded, files, engines⟩ := run_quiet answer _ _ begun own
        (some path)
      refine ⟨after, ?_, same.trans (Host.sameRules_of_engines files engines)⟩
      rw [runs]
      dsimp only
      rw [ran]
      exact congrArg (·, after, _) concluded

end RuleSet

/-- A scan whose handler leaves the host alone leaves everything with its holders. -/
theorem ScanCall.attended_quiet {h : Host} {owners : List Nat} {keys : List (Nat × Resource)}
    (r : ScanCall) (attended : h.Attended owners keys) (member : r.rules.key ∈ keys)
    (answer : Rule → σ → Verdict × σ) (own : σ) :
    (r.scan (quiet answer) (h, own)).2.1.Attended owners keys := by
  let P (engines : List EngineSlot) (_ : σ) : Prop :=
    ∀ h : Host, h.engines = engines → h.Attended owners keys
  have keeps : KeepsEngines P (quiet answer) := fun _ _ _ holds => holds
  have asks (h : Host) (holds : P h.engines own) :
      P (r.ask (S := Host × σ) h).2.engines own := by
    intro after same
    exact (r.attended_ask (holds h rfl) member).congr same
  have begins : P h.engines own := fun other same => attended.congr same
  exact ScanCall.keeps_scan keeps r asks begins _ rfl

end Needle
