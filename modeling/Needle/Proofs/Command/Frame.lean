import Needle.Proofs.Command.Scan
import Needle.Proofs.File.Growth

/-!
# What a run changes of the files

Only two commands write. `compile` puts a saved rule set at the place that its output leads to, once
nothing but the writing can fail any more; resetting the configuration writes its file and makes the
directories above it. Every other run leaves the files as they are.
-/
set_option autoImplicit false

namespace Needle

namespace Program

structure Taken (config : Config) (files : FileTree) (ns : String) (arguments : List String)
    (known : List Pattern) : Prop where
  there : ∀ argument ∈ arguments, ∃ source text, RuleSource.ofArgument argument ns = .ok source ∧
    Compiler.sourceFile files source.path = .ok text
  ends : ∃ c, session config files ns arguments = .ok (c, known) ∧ c.verdict = none

variable {config : Config} {files : FileTree} {ns : String} {arguments : List String}

theorem there_of_sourceRead {s next : Compiler × List Pattern} {argument : String}
    (read : sourceRead files ns s argument = .ok next) :
    ∃ source text, RuleSource.ofArgument argument ns = .ok source ∧
      Compiler.sourceFile files source.path = .ok text := by
  unfold sourceRead at read
  obtain ⟨source, named, read⟩ := ok_of_bind read
  obtain ⟨p, taken, _⟩ := ok_of_bind read
  unfold RuleText.read at taken
  obtain ⟨_, _, taken⟩ := ok_of_bind taken
  obtain ⟨_, _, taken⟩ := ok_of_bind taken
  obtain ⟨text, found, _⟩ := ok_of_bind taken
  exact ⟨source, text, named, found⟩

theorem there_of_sourcesRead {s last : Compiler × List Pattern}
    (read : sourcesRead files ns s arguments = .ok last) : ∀ argument ∈ arguments,
    ∃ source text, RuleSource.ofArgument argument ns = .ok source ∧
      Compiler.sourceFile files source.path = .ok text := by
  unfold sourcesRead at read
  induction arguments generalizing s with
  | nil => simp
  | cons first rest ih =>
      rw [List.foldlM_cons] at read
      obtain ⟨next, taken, later⟩ := ok_of_bind read
      intro argument member
      rcases List.mem_cons.mp member with rfl | further
      · exact there_of_sourceRead taken
      · exact ih later argument further

theorem taken_of_session {c : Compiler} {known : List Pattern}
    (read : session config files ns arguments = .ok (c, known)) (verdict : c.verdict = none) :
    Taken config files ns arguments known :=
  ⟨there_of_sourcesRead read, c, read, verdict⟩

/-- A rule set is put where a path leads: everything that can fail before the writing has gone well,
and so has the writing. -/
def Saves (config : Config) (files : FileTree) (ns : String) (arguments : List String)
    (place : Path) (after : FileTree) : Prop :=
  ∃ known l, Taken config files ns arguments known ∧ files.writeTarget place = .ok l ∧
    after = files.put l (.file (Pattern.save known))

theorem compiled_frame (config : Config) (format : OutputFormat) (files : FileTree)
    (arguments : List String) (ns : String) (output : Path) :
    let done := compiled config format files arguments ns output
    done.1.failure ≠ none ∧ done.2 = files ∨
      Saves config files ns arguments (Engine.shownPath output) done.2 ∧
        ∀ out, output = .ofText out → done.1.failure = none := by
  intro done
  unfold done compiled
  cases read : session config files ns arguments with
  | error e => exact Or.inl ⟨by simp [Outcome.fail], rfl⟩
  | ok s =>
      obtain ⟨c, known⟩ := s
      dsimp only
      cases verdict : c.verdict with
      | some e => exact Or.inl ⟨by simp [Outcome.fail], rfl⟩
      | none =>
          rcases RuleSet.savedAt_cases known output files with
            ⟨e, refused⟩ | ⟨written, wrote, saved⟩
          · rw [refused]
            exact Or.inl ⟨by simp [Outcome.fail], rfl⟩
          · rw [saved]
            obtain ⟨l, target, rfl⟩ := FileTree.write_eq_ok_iff.mp wrote
            refine Or.inr ⟨⟨known, l, taken_of_session read verdict, target, rfl⟩, ?_⟩
            rintro out rfl
            obtain ⟨text, told⟩ : ∃ text,
                (report c (some (.ofText out))).outcome format = ⟨text, none⟩ :=
              report_whole c (some out) format
            simp [told]

/-- What a command may change, where `path` is the place of the configuration: `compile` saves
exactly if it ends well, as far as its output is a text, and resetting writes unless there is
something to lose and nobody has agreed. -/
def Frame (config : Config) (path : Path) (files : FileTree) (whole : Prop) (after : FileTree) :
    Option Command → Prop
  | some (.compile arguments ns output) =>
    let saves (place : Path) : Prop :=
      Saves config files (ns.getD config.compiler.defaultNamespace) arguments place after
    (after = files ∨ saves (Engine.shownPath output)) ∧
      ∀ out, output = .ofText out → (whole → saves output) ∧ (¬ whole → after = files)
  | some (.config (.reset confirmed)) =>
    if confirmed = false ∧ files.holds path then after = files else files.Writes path after
  | _ => after = files

variable {h : Host}

theorem compile_frame (config : Config) (path : Path) (format : OutputFormat)
    (arguments : List String) (ns : Option String) (output : Path) (bare : h.engines = []) :
    let command := some (.compile arguments ns output)
    let ran := run config path format h command
    Frame config path h.files (ran.1.failure = none) ran.2.files command := by
  intro command ran
  let goal := ns.getD config.compiler.defaultNamespace
  obtain ⟨after, compiles, filed⟩ := compile_eq config format arguments goal output bare
  have goes : ran = ((compiled config format h.files arguments goal output).1, after) := compiles
  rw [goes]
  dsimp only
  rw [filed]
  rcases compiled_frame config format h.files arguments goal output with
    ⟨failed, same⟩ | ⟨saves, whole⟩
  · refine ⟨Or.inl same, ?_⟩
    intro out _
    exact ⟨fun whole => absurd whole failed, fun _ => same⟩
  · refine ⟨Or.inr saves, ?_⟩
    rintro out rfl
    rw [Path.shownPath_ofText] at saves
    exact ⟨fun _ => saves, fun failed => absurd (whole out rfl) failed⟩

theorem reset_frame (config : Config) (path : Path) (confirmed : Bool) (h : Host) :
    let after := (configure config path h (.reset confirmed)).2.files
    if confirmed = false ∧ h.files.holds path then after = h.files
    else h.files.Writes path after := by
  unfold configure
  dsimp only
  by_cases kept : confirmed = false ∧ h.files.holds path
  · simp [kept]
  · have agreed : ¬ (!confirmed && h.files.holds path) = true := by simpa using kept
    have writes := FileTree.writes_save {} h.files path
    have noted : (h.note .resettingConfig).files = h.files := rfl
    rw [if_neg kept, if_neg agreed, noted]
    generalize ({} : Config).save h.files path = answer at writes
    obtain ⟨_ | _, after⟩ := answer
    · exact writes
    · exact writes

theorem run_frame (config : Config) (path : Path) (format : OutputFormat) (bare : h.engines = [])
    (command : Option Command) :
    let ran := run config path format h command
    Frame config path h.files (ran.1.failure = none) ran.2.files command := by
  intro ran
  cases command with
  | none => rfl
  | some command =>
      cases command with
      | compile arguments ns output => exact compile_frame config path format arguments ns output bare
      | scan request =>
          obtain ⟨after, scans, same⟩ := scan_scanned config format request bare
          have goes : ran = (scanned config format request h.files, after) := scans
          rw [goes]
          exact same
      | check arguments =>
          obtain ⟨after, checks, same⟩ := check_eq config format arguments bare
          have goes : ran = (checked config format h.files arguments, after) := checks
          rw [goes]
          exact same
      | config action =>
          cases action with
          | display => rfl
          | path => rfl
          | reset confirmed => exact reset_frame config path confirmed h
      | info => rfl

theorem files_of_invalid {config : Config} {e : Error} (invalid : config.validate = .error e)
    (r : Request) (env : Environment) (h : Host) : (r.runWith env config h).2.files = h.files := by
  unfold Request.runWith
  rw [invalid]
  rfl

end Program

namespace Completion

theorem files_ofUsage (u : Usage) (files : FileTree) : (ofUsage u files).files = files := by
  cases u <;> rfl

/-- A run that is not carried out changes nothing, nor does one that ends before its command begins;
any other changes what its command may change. -/
theorem ofArguments_frame (env : Environment) (time : String) (arguments : List Bytes)
    (files : FileTree) (tempDir : Path) :
    let done := ofArguments env time arguments { files := files, tempDir := tempDir }
    match Request.ofArguments arguments with
    | .error _ => done.files = files
    | .ok r => done.exitCode ≠ 0 ∧ done.files = files ∨
        ∃ config, r.loadConfig env files = .ok config ∧ config.validate = .ok () ∧
          Program.Frame config (r.configPath env) files (done.exitCode = 0) done.files r.command := by
  intro done
  unfold done ofArguments
  cases Request.ofArguments arguments with
  | error u => exact files_ofUsage u files
  | ok r =>
      let h : Host := { files := files, tempDir := tempDir }
      dsimp only
      unfold ofRequest
      cases loaded : r.loadConfig env files with
      | error e => exact Or.inl ⟨by simp, rfl⟩
      | ok config =>
          dsimp only
          obtain ⟨filed, _, coded⟩ := ofOutcome_eq (r.logConfig config) time
            (r.runWith env config h).1 (r.runWith env config h).2
          rw [filed]
          cases valid : config.validate with
          | error e =>
              refine Or.inl ⟨?_, Program.files_of_invalid valid r env h⟩
              rw [Ne, coded, Program.runWith_of_invalid valid]
              simp [Outcome.fail]
          | ok _ =>
              obtain ⟨begun, asked, same, still⟩ := Program.runWith_of_valid valid r env h
              have frame := Program.run_frame config (r.configPath env) (r.format.getD .text)
                same r.command
              rw [still, ← asked] at frame
              refine Or.inr ⟨config, rfl, valid, ?_⟩
              rw [coded]
              exact frame

end Completion

end Needle
