import Needle.Proofs.Command.Compile
import Needle.Proofs.Command.Files
import Needle.Proofs.File.Elsewhere

/-!
# Scanning with saved rules and with their texts

What a scan comes to depends on its rule set by the patterns alone, and so not on where they come
from. A rule set that `compile` has saved is loaded with the patterns that its texts give, as long
as it is not saved over one of the texts.
-/
set_option autoImplicit false

namespace Needle

namespace Program

variable {h : Host}

/-! ## A scan as a function of its patterns -/

def scanReport (config : Config) (request : ScanRequest) (patterns : List Pattern)
    (files : FileTree) : ScanReport :=
  let found := survey config request files
  let outcome := fileOutcome request patterns Code.success files
  found.files.foldl (fun report path => report.tell path (outcome path)) found.report

theorem scanFiles_held {s : RuleSet} {patterns : List Pattern}
    (holds : Owner.Holds ⟨0⟩ s patterns h) (request : ScanRequest) (options : ScanOptions)
    (report : ScanReport) (paths : List Path) :
    let outcome := fileOutcome request patterns Code.success h.files
    ∃ after, scanFiles s request options report h paths =
        (.ok (paths.foldl (fun report path => report.tell path (outcome path)) report), after) ∧
      Owner.Serves ⟨0⟩ [s.key] after ∧ after.files = h.files := by
  have faults : (h.engine s.slot).faults = {} := holds.slot ▸ holds.serves.faults
  have status : (h.engine s.slot).faults.scans = Code.success := congrArg Faults.scans faults
  obtain ⟨after, all, kept, attends⟩ := scanFiles_eq s request options holds.patterns
    holds.literal.scan paths report
  have attended := attends [0] [s.key] List.mem_cons_self holds.serves.attended
  rw [status] at all
  exact ⟨after, all, ⟨attended, (kept.engines 0).2.trans holds.serves.faults⟩, kept.files⟩

/-- A command has got a rule set with these patterns, and nothing else. -/
def Gets (patterns : List Pattern) (h : Host) (answer : Except Error RuleSet × Host) : Prop :=
  ∃ s made, answer = (.ok s, made) ∧ Owner.Holds ⟨0⟩ s patterns made ∧ made.files = h.files

theorem scan_eq (config : Config) (format : OutputFormat) (request : ScanRequest)
    {patterns : List Pattern} (bare : h.engines = [])
    (gets : ∀ begun, Owner.Serves ⟨0⟩ [] begun → begun.files = h.files →
      (begun.engine 0).last = 0 → Gets patterns begun (scanRules config ⟨0⟩ begun request.origin)) :
    ∃ after, scan config format request h =
        ((scanReport config request patterns h.files).outcome format, after) ∧
      after.files = h.files := by
  unfold scan
  apply withOwner_eq bare
  intro begun serves same first
  obtain ⟨s, made, given, holds, files⟩ := gets begun serves same first
  have kept : made.files = h.files := files.trans same
  rw [given]
  dsimp only
  let found := survey config request made.files
  let noted := ({ made with notes := made.notes ++ found.notes } : Host).note
    (.scanningFiles found.files.length)
  have still : Owner.Holds ⟨0⟩ s patterns noted :=
    ⟨⟨holds.serves.attended, holds.serves.faults⟩, holds.slot, holds.patterns⟩
  obtain ⟨after, scans, serves, last⟩ : ∃ after,
      scanFiles s request (scanOptions config request) found.report noted found.files =
        (.ok (scanReport config request patterns made.files), after) ∧
      Owner.Serves ⟨0⟩ [s.key] after ∧ after.files = made.files :=
    scanFiles_held still request (scanOptions config request) found.report found.files
  rw [scans, ← kept]
  dsimp only
  split
  case h_1 text e told =>
    rw [told]
    exact ⟨_, rfl, serves.drops, (s.files_drop after).trans last⟩
  case h_2 text told =>
    rw [told]
    obtain ⟨ended, destroyed, idle, rest⟩ := destroyAfter_eq serves text
    exact ⟨ended, destroyed, idle, rest.trans last⟩

/-! ## Where the patterns come from -/

def rulesRead (config : Config) (files : FileTree) : RuleOrigin → Except Error (List Pattern)
  | .saved path => RuleSet.loadedFrom files path
  | .sources arguments =>
    match session config files config.compiler.defaultNamespace arguments with
    | .error e => .error e
    | .ok (c, patterns) =>
      match c.verdict with
      | some e => .error e
      | none => .ok patterns

theorem scanRules_eq (config : Config) (serves : Owner.Serves ⟨0⟩ [] h)
    (first : (h.engine 0).last = 0) (origin : RuleOrigin) :
    match rulesRead config h.files origin with
    | .error e => ∃ after, scanRules config ⟨0⟩ h origin = (.error e, after) ∧
        Owner.Serves ⟨0⟩ [] after ∧ after.files = h.files
    | .ok patterns => Gets patterns h (scanRules config ⟨0⟩ h origin) := by
  cases origin with
  | saved path =>
      let r : Owner := ⟨0⟩
      have loads := RuleSet.load_course r serves.started serves.literal.load path
      have gains := RuleSet.gains_load r serves.attended List.mem_cons_self path
      have later := RuleSet.precedes_load r path h
      unfold rulesRead scanRules
      dsimp only
      cases read : RuleSet.loadedFrom h.files path with
      | error e =>
          rw [read] at loads
          obtain ⟨after, refused, same⟩ := loads
          rw [refused] at gains later
          exact ⟨after, refused, serves.later later gains, (congrArg Host.files same :)⟩
      | ok patterns =>
          rw [read] at loads
          obtain ⟨s, made, loaded, slot, holds, files, _⟩ := loads
          rw [loaded] at gains later
          exact ⟨s, made, loaded, ⟨serves.later later gains, slot, holds⟩, files⟩
  | sources arguments =>
      unfold rulesRead scanRules
      dsimp only
      cases session_goes config serves first arguments config.compiler.defaultNamespace with
      | refused read answer idle files =>
          rw [read, answer]
          exact ⟨_, rfl, idle, files⟩
      | barred read answer verdict gives idle files =>
          rw [read, answer]
          dsimp only
          rw [verdict, gives]
          exact ⟨_, rfl, idle, files⟩
      | complete read answer verdict gives holds files =>
          rw [read, answer]
          dsimp only
          rw [verdict]
          exact ⟨_, _, gives, holds, files⟩

theorem gets_saved (config : Config) {patterns : List Pattern} {out : String}
    (serves : Owner.Serves ⟨0⟩ [] h) (first : (h.engine 0).last = 0)
    (saved : h.files.readFile (.ofText out) = .ok (Pattern.save patterns)) :
    Gets patterns h (scanRules config ⟨0⟩ h (.saved (.ofText out))) := by
  have read : rulesRead config h.files (.saved (.ofText out)) = .ok patterns :=
    RuleSet.loadedFrom_saved saved
  have gets := scanRules_eq config serves first (.saved (.ofText out))
  rw [read] at gets
  exact gets

theorem gets_sources {config : Config} {c : Compiler} {patterns : List Pattern}
    {arguments : List String} (serves : Owner.Serves ⟨0⟩ [] h) (first : (h.engine 0).last = 0)
    (read : session config h.files config.compiler.defaultNamespace arguments = .ok (c, patterns))
    (verdict : c.verdict = none) :
    Gets patterns h (scanRules config ⟨0⟩ h (.sources arguments)) := by
  have taken : rulesRead config h.files (.sources arguments) = .ok patterns := by
    unfold rulesRead
    dsimp only
    rw [read]
    dsimp only
    rw [verdict]
  have gets := scanRules_eq config serves first (.sources arguments)
  rw [taken] at gets
  exact gets

/-- What a scan comes to. -/
def scanned (config : Config) (format : OutputFormat) (request : ScanRequest) (files : FileTree) :
    Outcome :=
  match rulesRead config files request.origin with
  | .error e => .fail e
  | .ok patterns => (scanReport config request patterns files).outcome format

theorem scan_scanned (config : Config) (format : OutputFormat) (request : ScanRequest)
    (bare : h.engines = []) : ∃ after,
      scan config format request h = (scanned config format request h.files, after) ∧
        after.files = h.files := by
  unfold scanned
  cases read : rulesRead config h.files request.origin with
  | error e =>
      unfold scan
      apply withOwner_eq bare
      intro begun serves same first
      have refused := scanRules_eq config serves first request.origin
      rw [same, read] at refused
      obtain ⟨after, answer, idle, files⟩ := refused
      rw [answer]
      exact ⟨after, rfl, idle, files⟩
  | ok patterns =>
      apply scan_eq config format request bare
      intro begun serves same first
      have gets := scanRules_eq config serves first request.origin
      rw [same, read] at gets
      exact gets

section Elsewhere

variable {files written : FileTree} {out : Path} {content : Bytes}

theorem sourceFile_elsewhere {path : Path} {text : Bytes}
    (wrote : files.writeFile out content = .ok written) (apart : files.Apart out path)
    (found : Compiler.sourceFile files path = .ok text) :
    Compiler.sourceFile written path = .ok text := by
  unfold Compiler.sourceFile at found
  split at found
  case h_1 opened =>
    cases found
    unfold Compiler.sourceFile
    rw [FileTree.openObject_elsewhere wrote apart opened]
  all_goals contradiction

theorem sourceRead_elsewhere {ns argument : String} {s next : Compiler × List Pattern}
    (wrote : files.writeFile out content = .ok written)
    (apart : ∀ source, RuleSource.ofArgument argument ns = .ok source →
      files.Apart out source.path)
    (read : sourceRead files ns s argument = .ok next) :
    sourceRead written ns s argument = .ok next := by
  unfold sourceRead at read ⊢
  obtain ⟨source, named, read⟩ := ok_of_bind read
  obtain ⟨p, taken, read⟩ := ok_of_bind read
  have again : (RuleText.file source.path).read written source.ns s.2 = .ok p := by
    simp only [RuleText.read] at taken ⊢
    obtain ⟨_, fits, taken⟩ := ok_of_bind taken
    obtain ⟨_, plain, taken⟩ := ok_of_bind taken
    obtain ⟨text, found, taken⟩ := ok_of_bind taken
    rw [fits, plain, sourceFile_elsewhere wrote (apart source named) found]
    exact taken
  rw [named]
  simp only [bind, Except.bind, again]
  exact read

theorem sourcesRead_elsewhere {ns : String} {arguments : List String}
    {s last : Compiler × List Pattern} (wrote : files.writeFile out content = .ok written)
    (apart : ∀ argument ∈ arguments, ∀ source,
      RuleSource.ofArgument argument ns = .ok source → files.Apart out source.path)
    (read : sourcesRead files ns s arguments = .ok last) :
    sourcesRead written ns s arguments = .ok last := by
  unfold sourcesRead at read ⊢
  induction arguments generalizing s with
  | nil => exact read
  | cons argument rest ih =>
      rw [List.foldlM_cons] at read ⊢
      obtain ⟨next, taken, read⟩ := ok_of_bind read
      rw [sourceRead_elsewhere wrote (apart argument List.mem_cons_self) taken]
      exact ih (fun argument member => apart argument (List.mem_cons_of_mem _ member)) read

end Elsewhere

/-! ## Runs that scan -/

theorem runWith_scanned {config : Config} {r : Request} {request : ScanRequest}
    (valid : config.validate = .ok ()) (bare : h.engines = [])
    (asks : r.command = some (.scan request)) (env : Environment) :
    (r.runWith env config h).1 = scanned config (r.format.getD .text) request h.files := by
  obtain ⟨begun, asked, same, files⟩ := runWith_of_valid valid r env h
  obtain ⟨after, scans, _⟩ := scan_scanned config (r.format.getD .text) request (same.trans bare)
  rw [asked, asks]
  unfold run
  dsimp only
  rw [scans, files]

end Program

namespace Completion

open Program

variable {h : Host} {r : Request} {request : ScanRequest}

theorem ofOutcome_eq (log : LogConfig) (time : String) (outcome : Outcome) (h : Host) :
    let done := ofOutcome log time outcome h
    done.files = h.files ∧ done.output = outcome.text ∧
      (done.exitCode = 0 ↔ outcome.failure = none) := by
  obtain ⟨text, failure⟩ := outcome
  cases failure with
  | none => simp [ofOutcome]
  | some e => simp [ofOutcome]

theorem ofRequest_scanned (asks : r.command = some (.scan request)) (bare : h.engines = [])
    {env : Environment} {config : Config} (loaded : r.loadConfig env h.files = .ok config)
    (valid : config.validate = .ok ()) (time : String) :
    let done := ofRequest r env time h
    let outcome := scanned config (r.format.getD .text) request h.files
    done.output = outcome.text ∧ (done.exitCode = 0 ↔ outcome.failure = none) := by
  intro done outcome
  have scans : (r.runWith env config h).1 = outcome := runWith_scanned valid bare asks env
  obtain ⟨_, printed, coded⟩ := ofOutcome_eq (r.logConfig config) time (r.runWith env config h).1
    (r.runWith env config h).2
  unfold done ofRequest
  rw [loaded]
  dsimp only
  rw [printed, coded, scans]
  exact ⟨rfl, Iff.rfl⟩

theorem ofRequest_scan (asks : r.command = some (.scan request)) (bare : h.engines = [])
    (env : Environment) (time : String) :
    let done := ofRequest r env time h
    done.exitCode ≠ 0 ∧ done.output = "" ∨
      ∃ config patterns, r.loadConfig env h.files = .ok config ∧
        rulesRead config h.files request.origin = .ok patterns ∧
        let outcome := (scanReport config request patterns h.files).outcome (r.format.getD .text)
        done.output = outcome.text ∧ (done.exitCode = 0 ↔ outcome.failure = none) := by
  intro done
  cases loaded : r.loadConfig env h.files with
  | error e =>
      unfold done ofRequest
      rw [loaded]
      exact Or.inl ⟨by simp, rfl⟩
  | ok config =>
      cases valid : config.validate with
      | error e =>
          obtain ⟨_, printed, coded⟩ := ofOutcome_eq (r.logConfig config) time
            (r.runWith env config h).1 (r.runWith env config h).2
          unfold done ofRequest
          rw [loaded]
          dsimp only
          rw [printed, Ne, coded, runWith_of_invalid valid]
          exact Or.inl ⟨by simp [Outcome.fail], rfl⟩
      | ok _ =>
          obtain ⟨printed, coded⟩ := ofRequest_scanned asks bare loaded valid time
          unfold scanned at printed coded
          cases read : rulesRead config h.files request.origin with
          | error e =>
              rw [read] at printed coded
              refine Or.inl ⟨?_, printed⟩
              rw [Ne, coded]
              simp [Outcome.fail]
          | ok patterns =>
              rw [read] at printed coded
              exact Or.inr ⟨config, patterns, rfl, read, printed, coded⟩

end Completion

namespace Program

variable {h : Host}

/-! ## Saved rules and their texts -/

theorem runWith_scan {config : Config} {r : Request} {request : ScanRequest}
    {patterns : List Pattern} (valid : config.validate = .ok ()) (bare : h.engines = [])
    (asks : r.command = some (.scan request))
    (gets : ∀ begun, Owner.Serves ⟨0⟩ [] begun → begun.files = h.files →
      (begun.engine 0).last = 0 → Gets patterns begun (scanRules config ⟨0⟩ begun request.origin))
    (env : Environment) :
    (r.runWith env config h).1 =
      (scanReport config request patterns h.files).outcome (r.format.getD .text) := by
  obtain ⟨begun, asked, same, files⟩ := runWith_of_valid valid r env h
  obtain ⟨after, scans, _⟩ := scan_eq config (r.format.getD .text) request (same.trans bare)
    fun started serves still => gets started serves (still.trans files)
  rw [asked, asks]
  unfold run
  dsimp only
  rw [scans, files]

/-- Once some rule files have been compiled into another file, a scan comes to the same with that
file as with them. One configuration, which each of the runs has read already, is in force for the
compilation and for both scans. -/
theorem scan_saved_eq_scan_sources (env : Environment) (config : Config)
    (compiling asking : Request) (arguments : List String) (out : String) (request : ScanRequest)
    {h later : Host} (bare : h.engines = []) (fresh : later.engines = [])
    (compiles : compiling.command = some (.compile arguments none (.ofText out)))
    (succeeds : (compiling.runWith env config h).1.failure = none)
    (apart : ∀ argument ∈ arguments, ∀ source,
      RuleSource.ofArgument argument config.compiler.defaultNamespace = .ok source →
        h.files.Apart (.ofText out) source.path)
    (files : later.files = (compiling.runWith env config h).2.files) :
    let saved := { request with origin := .saved (.ofText out) }
    let sources := { request with origin := .sources arguments }
    ({ asking with command := some (.scan saved) }.runWith env config later).1 =
      ({ asking with command := some (.scan sources) }.runWith env config later).1 := by
  intro saved sources
  have valid : config.validate = .ok () := by
    cases validated : config.validate with
    | ok _ => rfl
    | error e =>
        rw [runWith_of_invalid validated] at succeeds
        contradiction
  obtain ⟨outcome, filed⟩ := runWith_compile valid bare compiles env
  rw [outcome] at succeeds
  rw [filed] at files
  obtain ⟨c, patterns, read, verdict, wrote⟩ := of_compiled_whole succeeds
  rw [← files] at wrote
  have again := sourcesRead_elsewhere wrote apart read
  have content := FileTree.readFile_written wrote
  have loaded := runWith_scan (r := { asking with command := some (.scan saved) }) valid fresh rfl
    (fun begun serves same first => gets_saved config serves first (same.symm ▸ content)) env
  have compiled := runWith_scan (r := { asking with command := some (.scan sources) }) valid fresh
    rfl (fun begun serves same first => gets_sources serves first (same.symm ▸ again) verdict) env
  rw [loaded, compiled]
  rfl

/-- The rule file is scanned itself. -/
theorem scan_saved_eq_scan_sources_of_a_private_rule :
    let h : Host := { files := privateRule, tempDir := .ofText "" }
    let env : Environment := ⟨none, none, none⟩
    let compiling : Request := { command := some (.compile ["a"] none (.ofText "b")) }
    let later : Host := { files := (compiling.runWith env {} h).2.files, tempDir := .ofText "" }
    let saved : ScanRequest :=
      ⟨.saved (.ofText "b"), [.ofText "a"], false, false, none, false, none⟩
    let sources : ScanRequest := { saved with origin := .sources ["a"] }
    (compiling.runWith env {} h).1.failure = none ∧
      (({ command := some (.scan saved) } : Request).runWith env {} later).1 =
        (({ command := some (.scan sources) } : Request).runWith env {} later).1 := by
  intro h env compiling later saved sources
  have valid : ({} : Config).validate = .ok () := rfl
  have compiles := (runWith_compile (h := h) (r := compiling) valid rfl rfl env).1
  have succeeds : (compiling.runWith env {} h).1.failure = none :=
    (congrArg Outcome.failure compiles).trans (compiled_privateRule .text)
  refine ⟨succeeds, ?_⟩
  refine scan_saved_eq_scan_sources env {} compiling {} ["a"] "b" saved (h := h) rfl rfl rfl
    succeeds ?_ rfl
  intro argument member source named l e target found
  obtain rfl := List.mem_singleton.mp member
  obtain rfl : ⟨"default", .ofText "a"⟩ = source := Except.ok.inj named
  have here := Except.ok.inj (target.symm.trans writeTarget_privateRule)
  have there := congrArg Prod.fst (Except.ok.inj (found.symm.trans find_privateRule))
  have apart : ¬ [Utf8.encode "b"] = [Utf8.encode "a"] := by decide
  exact apart (here.symm.trans there)

end Program

end Needle
