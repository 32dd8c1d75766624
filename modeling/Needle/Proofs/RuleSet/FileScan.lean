import Needle.Proofs.File.Read
import Needle.Proofs.RuleSet.Naming
import Needle.Proofs.Scan.Blind

/-!
# Files and their contents

A file is scanned as its content is, by whichever way the engine gets it. The two ways differ in
what they refuse, an empty buffer or a file that cannot be opened, and in what a status means that
stands for trouble with a file.
-/
set_option autoImplicit false

namespace Needle

open Scan

variable {σ : Type}

def ScanOutcome.ofFile (path : Path) : ScanOutcome → ScanOutcome
  | .returned (.error (.engine code)) =>
    if code = Code.couldNotOpenFile ∨ code = Code.couldNotMapFile then
      .returned (.error (.fileRead path (Code.fileTrouble code)))
    else .returned (.error (.engine code))
  | outcome => outcome

theorem Scan.conclude_ofFile (run : ScanRun) (path : Path) :
    ScanOutcome.returned (conclude run (some path)) =
      (ScanOutcome.returned (conclude run none)).ofFile path := by
  obtain ⟨code, calls, last⟩ := run
  cases last with
  | abort => rfl
  | fail => rfl
  | proceed =>
      rw [conclude_proceed, conclude_proceed]
      by_cases success : code = 0
      · simp [success, ScanOutcome.ofFile]
      · by_cases late : code = 26
        · simp [late, ScanOutcome.ofFile]
        · by_cases trouble : code = 3 ∨ code = 4
          · simp [success, late, trouble, ScanOutcome.ofFile, Code.couldNotOpenFile,
              Code.couldNotMapFile]
          · simp [success, late, trouble, ScanOutcome.ofFile, Code.couldNotOpenFile,
              Code.couldNotMapFile]

theorem Scan.outcome_ofFile (ending : Ending) (path : Path) :
    ending.outcome (some path) = (ending.outcome none).ofFile path := by
  cases ending with
  | panicked text => rfl
  | ran run => exact conclude_ofFile run path

theorem Scan.endedBy_ofFile (calls : Nat) (reply : Reply) (path : Path) :
    (endedBy calls reply).ofFile path = endedBy calls reply := by
  cases reply with
  | panic text => rfl
  | verdict v => cases v <;> rfl

/-! ## One scan -/

theorem Engine.serve_content {S : Type} {e : Engine} {handle : Handle} {patterns : List Pattern}
    (live : e.ruleSet? handle = some patterns) (literal : e.faults.scan = none) (data : Bytes) :
    (e.serve (S := S) handle (.ok data)).1 =
      .ofEvents false e.faults.scans (Pattern.events data patterns) := by
  unfold serve scan
  rw [literal, live]

namespace ScanCall

variable {r : ScanCall} {h : Host} {patterns : List Pattern} {data : Bytes}

/-- A scan of some content, for any handler: it gets through the rules that the content satisfies
and ends with the status of the engine, or the handler ends it. -/
theorem scan_heeds (live : r.rules.patterns? h = some patterns)
    (literal : (h.engine r.rules.slot).faults.scan = none)
    (begins : r.target.refusal? h.files = none) (content : r.target.content h.files = .ok data)
    (handler : Handler σ) (own : σ) {outcome : ScanOutcome} {after : Host} {left : σ}
    {ledger : Ledger}
    (ran : r.scan handler.recorded (h, own, {}) = (outcome, after, left, ledger))
    (kept : ledger.Keeps h.scans.next) :
    let rules := Pattern.rulesIn data patterns
    let status := (h.engine r.rules.slot).faults.scans
    (Through rules ledger.calls ∧
      outcome = .returned (conclude ⟨status, rules.length, .proceed⟩ r.target.path?)) ∨
    ∃ reply, reply ≠ .verdict .proceed ∧ EndsAt rules ledger.calls reply ∧
      outcome = endedBy ledger.calls.length reply := by
  intro rules status
  obtain ⟨e, same, asked⟩ := r.ask_eq_serve (h.note r.target.note)
  have faults : e.faults = (h.engine r.rules.slot).faults := (congrArg Engine.faults same :)
  have found : e.ruleSet? r.rules.handle = some patterns :=
    (congrArg (Engine.ruleSet? · r.rules.handle) same :).trans live
  have loop := Engine.serve_content (S := Host × σ × Ledger) found (faults ▸ literal) data
  let begun := (h.note r.target.note).setSlot r.rules.slot fun slot =>
    { slot with engine := (e.serve (S := Host × σ × Ledger) r.rules.handle (.ok data)).2 }
  rcases goes : Scan.run handler.recorded
    (fun _ => .ofEvents false status (Pattern.events data patterns)) (begun, own, {})
    with ⟨ending, after', left', ledger'⟩
  rw [scan_of_begun begins, asked, show (h.note r.target.note).files = h.files from rfl,
    content] at ran
  dsimp only at ran
  rw [loop, faults] at ran
  simp only [begun, status] at goes
  simp only [goes, Prod.mk.injEq] at ran
  obtain ⟨rfl, rfl, rfl, rfl⟩ := ran
  have heeds := Scan.run_heeds handler status (Pattern.events data patterns) begun own goes kept
    r.target.path?
  have count : (Pattern.events data patterns).length = rules.length := by
    rw [← List.length_map Event.toRule, Pattern.map_toRule_events]
  rw [Pattern.map_toRule_events, count] at heeds
  exact heeds

end ScanCall

namespace RuleSet

variable {s : RuleSet} {h : Host} {patterns : List Pattern} {path : Path} {data : Bytes}

/-- A scan of a file calls the handler as a scan of the same content does, and comes to the same but
for a status that means trouble with a file: `differs` says what it takes for that to matter. -/
structure ScanAgrees (s : RuleSet) (patterns : List Pattern) (h : Host) (path : Path) (data : Bytes)
    (options : ScanOptions) (handler : Handler σ) (own : σ) : Prop where
  calls : (s.scanFile path options handler.recorded (h, own, {})).2.2.2.calls.map Call.answered =
    (s.scanBuffer data options handler.recorded (h, own, {})).2.2.2.calls.map Call.answered
  outcome : (s.scanFile path options handler (h, own)).1 =
    (s.scanBuffer data options handler (h, own)).1.ofFile path
  host : (s.scanFile path options handler (h, own)).2.1.untraced =
    (s.scanBuffer data options handler (h, own)).2.1.untraced
  left : (s.scanFile path options handler (h, own)).2.2 =
    (s.scanBuffer data options handler (h, own)).2.2
  differs :
    let ledger := (s.scanBuffer data options handler.recorded (h, own, {})).2.2.2
    let status := (h.engine s.slot).faults.scans
    ledger.Keeps h.scans.next →
    (s.scanFile path options handler (h, own)).1 ≠ (s.scanBuffer data options handler (h, own)).1 →
      (status = Code.couldNotOpenFile ∨ status = Code.couldNotMapFile) ∧
        (∃ rules, Pattern.Recorded (patterns.filter fun p => Utf8.encode p.literal <:+: data) rules ∧
          Through rules ledger.calls) ∧
        (s.scanBuffer data options handler (h, own)).1 = .returned (.error (.engine status)) ∧
        (s.scanFile path options handler (h, own)).1 =
          .returned (.error (.fileRead path (Code.fileTrouble status)))

structure ScansFile (s : RuleSet) (patterns : List Pattern) (h : Host) (path : Path)
    (options : ScanOptions) : Prop where
  content : (∃ text, path = .ofText text) → ∀ data, h.files.readFile path = .ok data → data ≠ [] →
    ∀ {σ : Type} (handler : Handler σ), handler.Blind → ∀ own,
      ScanAgrees s patterns h path data options handler own
  empty : (∃ text, path = .ofText text) → h.files.readFile path = .ok [] →
    ∀ {σ : Type} (handler : Handler σ) (own : σ) {outcome : ScanOutcome} {after : Host} {left : σ}
      {ledger : Ledger},
      s.scanFile path options handler.recorded (h, own, {}) = (outcome, after, left, ledger) →
      ledger.Keeps h.scans.next → ∃ rules,
        Pattern.Recorded (patterns.filter (·.literal = "")) rules ∧
        let status := (h.engine s.slot).faults.scans
        (Through rules ledger.calls ∧
          outcome = .returned (conclude ⟨status, rules.length, .proceed⟩ (some path))) ∨
        ∃ reply, reply ≠ .verdict .proceed ∧ EndsAt rules ledger.calls reply ∧
          outcome = endedBy ledger.calls.length reply
  unopened : ∀ cause, h.files.openObject path = .error cause →
    ∀ {σ : Type} (handler : Handler σ) (own : σ), s.scanFile path options handler (h, own) =
      (.returned (.error (.fileRead path cause)), h, own)
  nul : path.hasNul = true → h.files.openObject path = .error .nulInName
  directory : (∃ text, path = .ofText text) → h.files.openObject path = .ok .directory →
    ∀ {σ : Type} (handler : Handler σ) (own : σ), ∃ after, h.SameRules after ∧
      s.scanFile path options handler (h, own) =
        (.returned (.error (.fileRead path (Code.fileTrouble Code.couldNotOpenFile))), after, own)

theorem begins_of_content (filled : data ≠ []) :
    (ScanTarget.buffer data).refusal? h.files = none := by
  have some : data.isEmpty = false := by simpa using filled
  simp [ScanTarget.refusal?, some]

theorem serves_content (s : RuleSet) (options : ScanOptions) {text : String}
    (holds : h.files.readFile (.ofText text) = .ok data) :
    ScanCall.Serves ⟨s, .buffer data, options⟩ ⟨s, .file (.ofText text), options⟩ h h where
  host := rfl
  slot := rfl
  handle := rfl
  content := by
    unfold ScanTarget.content
    dsimp only
    rw [Path.shownPath_ofText]
    exact holds

/-- Only where the engine's own status says so can a file have made trouble. -/
theorem trouble_of_differs {status : Code} {rules : List Rule} {calls : List Call}
    {outcome : ScanOutcome}
    (ended : (Through rules calls ∧
        outcome = .returned (conclude ⟨status, rules.length, .proceed⟩ none)) ∨
      ∃ reply, reply ≠ .verdict .proceed ∧ EndsAt rules calls reply ∧
        outcome = endedBy calls.length reply)
    (differs : outcome.ofFile path ≠ outcome) :
    (status = Code.couldNotOpenFile ∨ status = Code.couldNotMapFile) ∧ Through rules calls ∧
      outcome = .returned (.error (.engine status)) ∧
      outcome.ofFile path = .returned (.error (.fileRead path (Code.fileTrouble status))) := by
  rcases ended with ⟨through, rfl⟩ | ⟨reply, _, _, rfl⟩
  · rw [conclude_proceed] at differs ⊢
    by_cases success : status = 0
    · simp [success, ScanOutcome.ofFile] at differs
    by_cases late : status = 26
    · simp [late, ScanOutcome.ofFile] at differs
    by_cases trouble : status = Code.couldNotOpenFile ∨ status = Code.couldNotMapFile
    · exact ⟨trouble, through, by simp [success, late],
        by simp [success, late, trouble, ScanOutcome.ofFile]⟩
    · simp [success, late, trouble, ScanOutcome.ofFile] at differs
  · exact absurd (endedBy_ofFile calls.length reply path) differs

theorem scanAgrees_of_readFile (live : s.patterns? h = some patterns)
    (literal : (h.engine s.slot).faults.scan = none) (options : ScanOptions) {text : String}
    (holds : h.files.readFile (.ofText text) = .ok data) (filled : data ≠ [])
    {handler : Handler σ} (blind : handler.Blind) (own : σ) :
    ScanAgrees s patterns h (.ofText text) data options handler own := by
  have serves := s.serves_content options holds
  have begins := begins_of_content (h := h) filled
  have begins' := begins_of_readFile holds
  obtain ⟨ending, given, filed, after⟩ := serves.scan blind begins begins' (rfl : own = own)
  obtain ⟨_, _, _, recorded⟩ := serves.scan blind.recorded begins begins'
    (⟨rfl, rfl⟩ : SameCalls (own, ({} : Ledger)) (own, {}))
  have outcome : (s.scanFile (.ofText text) options handler (h, own)).1 =
      (s.scanBuffer data options handler (h, own)).1.ofFile (.ofText text) := by
    rw [show (s.scanFile (.ofText text) options handler (h, own)).1 = _ from filed,
      show (s.scanBuffer data options handler (h, own)).1 = _ from given]
    exact outcome_ofFile ending (.ofText text)
  constructor
  case calls => exact recorded.own.2.symm
  case outcome => exact outcome
  case host => exact after.host.symm
  case left => exact after.own.symm
  case differs =>
    intro ledger status kept differs
    let call : ScanCall := ⟨s, .buffer data, options⟩
    have erased : (s.scanBuffer data options handler (h, own)).1 =
        (s.scanBuffer data options handler.recorded (h, own, {})).1 :=
      congrArg Prod.fst (call.scan_unrecorded handler (h, own, {}))
    -- The buffer's outcome decides: a file's is the same, seen through `ofFile`.
    have ended := ScanCall.scan_heeds (r := call) live literal begins rfl handler own rfl kept
    rw [outcome, erased] at differs ⊢
    obtain ⟨trouble, through, told⟩ := trouble_of_differs ended differs
    exact ⟨trouble, ⟨_, Pattern.recorded_rulesIn data patterns, through⟩, told⟩

theorem recorded_nil (patterns : List Pattern) :
    Pattern.Recorded (patterns.filter (·.literal = "")) (Pattern.rulesIn [] patterns) := by
  have empty (p : Pattern) : Utf8.encode p.literal <:+: [] ↔ p.literal = "" := by
    rw [List.infix_nil]
    constructor
    · intro nothing
      have decoded := Utf8.decode?_encode p.literal
      rw [nothing] at decoded
      exact (Option.some.inj decoded).symm
    · intro same
      rw [same]
      rfl
  have recorded := Pattern.recorded_rulesIn [] patterns
  simp only [empty] at recorded
  exact recorded

/-- A file that can be opened, and then cannot be read under the name that the engine has for it. -/
theorem scanFile_of_unread (live : s.patterns? h = some patterns)
    (literal : (h.engine s.slot).faults.scan = none) (options : ScanOptions) {cause : IoError}
    (begins : (ScanTarget.file path).refusal? h.files = none)
    (unread : h.files.readFile (Engine.shownPath path) = .error cause) (handler : Handler σ)
    (own : σ) :
    ∃ after, h.SameRules after ∧ s.scanFile path options handler (h, own) =
      (.returned (.error (.fileRead path (Code.fileTrouble Code.couldNotOpenFile))), after, own) := by
  obtain ⟨begun, same, _, runs⟩ := s.scanFile_begun live literal begins options handler own
  rw [unread] at runs
  have silent : Scan.run handler (fun _ => .ofEvents false Code.couldNotOpenFile []) (begun, own) =
      Scan.run (quiet fun _ own => (.proceed, own))
        (fun _ => .ofEvents false Code.couldNotOpenFile []) (begun, own) := rfl
  obtain ⟨ending, after, ran, told, files, engines⟩ := run_quiet (fun _ own => (.proceed, own))
    Code.couldNotOpenFile [] begun own (some path)
  refine ⟨after, same.trans (Host.sameRules_of_engines files engines), ?_⟩
  rw [runs]
  dsimp only [Engine.reports]
  rw [silent, ran]
  dsimp only
  rw [told]
  rfl

theorem scanFile_of_directory (live : s.patterns? h = some patterns)
    (literal : (h.engine s.slot).faults.scan = none) (options : ScanOptions) {text : String}
    (opened : h.files.openObject (.ofText text) = .ok .directory) (handler : Handler σ) (own : σ) :
    ∃ after, h.SameRules after ∧ s.scanFile (.ofText text) options handler (h, own) =
      (.returned (.error (.fileRead (.ofText text) (Code.fileTrouble Code.couldNotOpenFile))),
        after, own) := by
  have plain : (Path.ofText text).hasNul = false := (FileTree.ask_eq_ok_iff.mp opened).1
  have begins : (ScanTarget.file (.ofText text)).refusal? h.files = none := by
    simp [ScanTarget.refusal?, opened, Plain.path, plain]
  have unread : h.files.readFile (Engine.shownPath (.ofText text)) = .error (.os .isDirectory) := by
    rw [Path.shownPath_ofText, FileTree.readFile_of_directory opened]
  exact scanFile_of_unread live literal options begins unread handler own

/-- A file is scanned as its content is. -/
theorem scanFile_as_content (s : RuleSet) (h : Host) {patterns : List Pattern}
    (live : s.patterns? h = some patterns) (literal : (h.engine s.slot).faults.scan = none)
    (path : Path) (options : ScanOptions) : ScansFile s patterns h path options := by
  constructor
  case content =>
    rintro ⟨text, rfl⟩ data holds filled σ handler blind own
    exact scanAgrees_of_readFile live literal options holds filled blind own
  case empty =>
    rintro ⟨text, rfl⟩ holds σ handler own outcome after left ledger ran kept
    let call : ScanCall := ⟨s, .file (.ofText text), options⟩
    have content : call.target.content h.files = .ok [] :=
      (serves_content s options holds).content
    exact ⟨_, recorded_nil patterns, ScanCall.scan_heeds (r := call) live literal
      (begins_of_readFile holds) content handler own ran kept⟩
  case unopened =>
    intro cause refused σ handler own
    unfold scanFile
    dsimp only
    rw [refused]
  case nul => exact FileTree.openObject_of_nul
  case directory =>
    rintro ⟨text, rfl⟩ opened σ handler own
    exact scanFile_of_directory live literal options opened handler own

def satisfied : Pattern := ⟨"ns", "second", "", ["tag"], [("level", .integer 1), ("level", .integer 2)]⟩

def troubledHost : Host where
  files := ⟨[([Utf8.encode "data"], .file (Utf8.encode "xay")),
    ([Utf8.encode "empty"], .file [])], []⟩
  tempDir := .ofText ""
  engines := [{
    engine := ((Engine.fresh { scans := Code.couldNotMapFile }).addRuleSet
      [⟨"ns", "first", "a", [], []⟩, satisfied]).2
    holders := 2 }]

def soleScan : ScanCall := ⟨soleRules, .buffer (Utf8.encode "xay"), {}⟩

def rescan : Handler (List Rule) := fun _ (h, seen) =>
  let (_, h, found) := soleScan.run collect (h, [])
  (.verdict .proceed, h, seen ++ found)

theorem blind_rescan : rescan.Blind :=
  ScanCall.blind_nested (Handler.blind_quiet gather) soleScan (fun _ => [])
    fun _ seen _ found => (.verdict .proceed, seen ++ found)

theorem scanFile_as_content_of_trouble :
    let filed := soleRules.scanFile (.ofText "data") {} rescan (troubledHost, [])
    let given := soleRules.scanBuffer (Utf8.encode "xay") {} rescan (troubledHost, [])
    let emptied := soleRules.scanFile (.ofText "empty") {} collect.recorded (troubledHost, [], {})
    filed.1 = .returned (.error (.fileRead (.ofText "data") (Code.fileTrouble 4))) ∧
      given.1 = .returned (.error (.engine 4)) ∧ filed.2.2.length = 4 ∧
      ∃ rule : Rule, emptied.2.2.2.calls.map Call.rule = [rule] ∧
        rule.Records ⟨"second", "ns", ["tag"], [("level", .integer 1), ("level", .integer 2)]⟩ := by
  intro filed given emptied
  have opened : troubledHost.files.openObject (.ofText "data") = .ok (.file (Utf8.encode "xay")) :=
    FileTree.openObject_of_entry rfl rfl rfl ⟨by decide, by decide, by decide, by decide⟩ rfl rfl
  have agrees := (scanFile_as_content soleRules troubledHost rfl rfl (.ofText "data") {}).content
    ⟨_, rfl⟩ _ (FileTree.readFile_eq_ok_iff.mpr opened) (by decide) rescan blind_rescan []
  have failed : given.1 = .returned (.error (.engine 4)) := rfl
  have found : given.2.2.length = 4 := by decide +kernel
  refine ⟨?filed, failed, ?length, ?records⟩
  case filed =>
    rw [show filed.1 = given.1.ofFile (.ofText "data") from agrees.outcome, failed]
    rfl
  case length =>
    rw [show filed.2.2 = given.2.2 from agrees.left]
    exact found
  case records =>
    have blank : troubledHost.files.openObject (.ofText "empty") = .ok (.file []) :=
      FileTree.openObject_of_entry rfl rfl rfl ⟨by decide, by decide, by decide, by decide⟩ rfl rfl
    have reads := FileTree.readFile_eq_ok_iff.mpr blank
    obtain ⟨begun, _, _, runs⟩ := soleRules.scanFile_begun (h := troubledHost) rfl rfl
      (begins_of_readFile reads) {} collect.recorded ([], ({} : Ledger))
    have kept : emptied.2.2.2.Keeps troubledHost.scans.next := by
      unfold emptied
      rw [runs]
      exact run_quiet_keeps gather _ _ begun [] _
    obtain ⟨rules, recorded, course⟩ :=
      (scanFile_as_content soleRules troubledHost rfl rfl (.ofText "empty") {}).empty ⟨_, rfl⟩ reads
        collect [] rfl kept
    have one : [(⟨"ns", "first", "a", [], []⟩ : Pattern), satisfied].filter (·.literal = "") =
        [satisfied] := by decide
    rw [one] at recorded
    obtain ⟨rule, _, records, nothing, rfl⟩ := List.forall₂_cons_left_iff.mp recorded
    obtain rfl := List.forall₂_nil_left_iff.mp nothing
    refine ⟨rule, ?_, records⟩
    rcases course with ⟨through, _⟩ | ⟨_, _, ends, _⟩
    · exact through.rules_eq
    · obtain ⟨before, last, rest, split, made⟩ := ends
      obtain ⟨rfl, rfl, rfl⟩ : before = [] ∧ last = rule ∧ rest = [] := by
        simpa [List.append_eq_singleton_iff, and_assoc] using split.symm
      have first := congrArg (List.map Prod.fst) made
      rw [List.map_map] at first
      exact first

end RuleSet

end Needle
