import Needle.Command.Run
import Needle.Proofs.Command.Sources
import Needle.Proofs.Rule.RoundTrip

/-!
# Checking and compiling

`check` and `compile` hold the same session, so they agree on whether there is a rule set and on
what is told of it. They differ in what they do next: `check` writes its report before it knows,
and `compile` saves the rule set before it reports.
-/
set_option autoImplicit false

namespace Needle

/-! ## Reports that can be written -/

theorem Path.toJson_ofText (text : String) : (Path.ofText text).toJson = .text text := by
  unfold toJson ofText
  dsimp only
  rw [Utf8.decode?_encode]

theorem Outcome.ofJson_whole {v : Json} (writable : v.Writable) :
    ∃ text, ofJson v = ⟨text, none⟩ := by
  unfold ofJson Json.written
  rw [Json.all_isSome_pretty writable]
  exact ⟨_, rfl⟩

namespace CompileReport

variable {r : CompileReport} {out : Option String}

theorem writable_toJson (named : r.output = out.map .ofText) : r.toJson.Writable := by
  have namespaces := Json.writable_list r.namespaces fun ns _ => Json.Writable.text ns
  have warnings := Json.writable_list r.warnings fun d _ => d.writable_toJson
  refine Json.writable_record _ fun f member => ?_
  simp only [List.mem_cons, List.not_mem_nil, or_false] at member
  rcases member with rfl | rfl | rfl | rfl
  · rw [named]
    cases out with
    | none => exact .null
    | some text =>
        dsimp only [Option.map_some]
        rw [Path.toJson_ofText]
        exact .text text
  · exact .int _
  · exact namespaces
  · exact warnings

theorem outcome_whole (named : r.output = out.map .ofText) (format : OutputFormat) :
    ∃ text, r.outcome format = ⟨text, none⟩ := by
  cases format with
  | text => exact ⟨_, rfl⟩
  | json => exact Outcome.ofJson_whole (writable_toJson named)

end CompileReport

namespace Program

theorem report_whole (c : Compiler) (out : Option String) (format : OutputFormat) :
    ∃ text, (report c (out.map .ofText)).outcome format = ⟨text, none⟩ :=
  CompileReport.outcome_whole rfl format

/-! ## What the commands come to -/

/-- What `check` comes to. -/
def checked (config : Config) (format : OutputFormat) (files : FileTree)
    (arguments : List String) : Outcome :=
  match session config files config.compiler.defaultNamespace arguments with
  | .error e => .fail e
  | .ok (c, _) => { (report c none).outcome format with failure := c.verdict }

/-- What `compile` comes to, and the files after it. -/
def compiled (config : Config) (format : OutputFormat) (files : FileTree) (arguments : List String)
    (ns : String) (output : Path) : Outcome × FileTree :=
  match session config files ns arguments with
  | .error e => (.fail e, files)
  | .ok (c, known) =>
    match c.verdict with
    | some e => (.fail e, files)
    | none =>
      match RuleSet.savedAt known output files with
      | (.error e, files) => (.fail e, files)
      | (.ok (), files) => ((report c (some output)).outcome format, files)

variable {h : Host}

theorem check_eq (config : Config) (format : OutputFormat) (arguments : List String)
    (bare : h.engines = []) : ∃ after,
      check config format arguments h = (checked config format h.files arguments, after) ∧
        after.files = h.files := by
  have whole : ∀ c : Compiler, ∃ text, (report c none).outcome format = ⟨text, none⟩ :=
    fun c => report_whole c none format
  unfold check
  apply withOwner_eq bare
  intro begun serves same first
  rw [← same]
  unfold checked
  cases session_goes config serves first arguments config.compiler.defaultNamespace with
  | refused read answer idle files =>
      rw [read, answer]
      exact ⟨_, rfl, idle, files⟩
  | @barred c _ _ _ _ read answer verdict gives idle files =>
      obtain ⟨text, told⟩ := whole c
      rw [read, answer]
      dsimp only
      rw [told, verdict]
      dsimp only
      rw [gives]
      exact ⟨_, rfl, idle, files⟩
  | @complete c _ _ _ _ read answer verdict gives holds files =>
      obtain ⟨text, told⟩ := whole c
      obtain ⟨ended, destroyed, idle, last⟩ := destroyAfter_eq holds.serves text
      rw [read, answer]
      dsimp only
      rw [told, verdict]
      dsimp only
      rw [gives]
      exact ⟨ended, destroyed, idle, last.trans files⟩

theorem compile_eq (config : Config) (format : OutputFormat) (arguments : List String) (ns : String)
    (output : Path) (bare : h.engines = []) : ∃ after,
      compile config format arguments ns output h =
        ((compiled config format h.files arguments ns output).1, after) ∧
      after.files = (compiled config format h.files arguments ns output).2 := by
  unfold compile
  apply withOwner_eq bare
  intro begun serves same first
  rw [← same]
  unfold compiled
  cases session_goes config serves first arguments ns with
  | refused read answer idle files =>
      rw [read, answer]
      exact ⟨_, rfl, idle, files⟩
  | barred read answer verdict gives idle files =>
      rw [read, answer]
      dsimp only
      rw [verdict, gives]
      exact ⟨_, rfl, idle, files⟩
  | @complete c known middle made s read answer verdict gives holds files =>
      rw [read, answer]
      dsimp only
      rw [verdict, gives]
      dsimp only
      have saves := s.save_eq holds.patterns holds.literal output
      have serves := holds.serves.saves output
      rw [files] at saves
      rw [← saves]
      generalize s.save output made = saved at serves
      obtain ⟨_ | _, filed⟩ := saved
      · exact ⟨_, rfl, serves.drops, s.files_drop filed⟩
      · obtain ⟨ended, destroyed, idle, last⟩ := serves.destroys
        dsimp only
        rw [destroyed]
        exact ⟨ended, rfl, idle, last⟩

/-! ## Requests -/

theorem runWith_of_invalid {config : Config} {e : Error} (invalid : config.validate = .error e)
    (r : Request) (env : Environment) (h : Host) : (r.runWith env config h).1 = .fail e := by
  unfold Request.runWith
  rw [invalid]

theorem runWith_of_valid {config : Config} (valid : config.validate = .ok ()) (r : Request)
    (env : Environment) (h : Host) : ∃ begun,
      r.runWith env config h =
        run config (r.configPath env) (r.format.getD .text) begun r.command ∧
      begun.engines = h.engines ∧ begun.files = h.files := by
  unfold Request.runWith
  rw [valid]
  exact ⟨_, rfl, rfl, rfl⟩

section Requests

variable {config : Config} {r : Request} {arguments : List String}

theorem runWith_check (valid : config.validate = .ok ()) (bare : h.engines = [])
    (asks : r.command = some (.check arguments)) (env : Environment) :
    (r.runWith env config h).1 = checked config (r.format.getD .text) h.files arguments := by
  obtain ⟨begun, asked, same, files⟩ := runWith_of_valid valid r env h
  obtain ⟨after, checks, _⟩ := check_eq config (r.format.getD .text) arguments (same.trans bare)
  rw [asked, asks]
  unfold run
  dsimp only
  rw [checks, files]

theorem runWith_compile (valid : config.validate = .ok ()) (bare : h.engines = [])
    {output : Path} (asks : r.command = some (.compile arguments none output))
    (env : Environment) :
    let compiled := compiled config (r.format.getD .text) h.files arguments
      config.compiler.defaultNamespace output
    (r.runWith env config h).1 = compiled.1 ∧ (r.runWith env config h).2.files = compiled.2 := by
  obtain ⟨begun, asked, same, files⟩ := runWith_of_valid valid r env h
  obtain ⟨after, compiles, filed⟩ := compile_eq config (r.format.getD .text) arguments
    config.compiler.defaultNamespace output (same.trans bare)
  rw [asked, asks]
  unfold run
  dsimp only [Option.getD_none]
  rw [compiles, filed, files]
  exact ⟨rfl, rfl⟩

end Requests

/-- A rule set is saved wherever something can be written. -/
theorem savedAt_writable {files written : FileTree} {out : String} {known : List Pattern}
    (wrote : files.writeFile (.ofText out) (Pattern.save known) = .ok written) :
    RuleSet.savedAt known (.ofText out) files = (.ok (), written) := by
  have plain := (FileTree.writeFile_eq_ok_iff.mp wrote).1
  unfold RuleSet.savedAt Plain.path
  rw [plain, Path.shownPath_ofText, wrote]
  rfl

theorem compiled_whole {config : Config} {files written : FileTree} {arguments : List String}
    {ns out : String} {c : Compiler} {known : List Pattern}
    (read : session config files ns arguments = .ok (c, known)) (verdict : c.verdict = none)
    (wrote : files.writeFile (.ofText out) (Pattern.save known) = .ok written)
    (format : OutputFormat) :
    compiled config format files arguments ns (.ofText out) =
      ((report c (some (.ofText out))).outcome format, written) := by
  unfold compiled
  rw [read]
  dsimp only
  rw [verdict, savedAt_writable wrote]

theorem of_compiled_whole {config : Config} {format : OutputFormat} {files : FileTree}
    {arguments : List String} {ns out : String}
    (whole : (compiled config format files arguments ns (.ofText out)).1.failure = none) :
    ∃ c known, session config files ns arguments = .ok (c, known) ∧ c.verdict = none ∧
      files.writeFile (.ofText out) (Pattern.save known) =
        .ok (compiled config format files arguments ns (.ofText out)).2 := by
  cases read : session config files ns arguments with
  | error e =>
      unfold compiled at whole
      rw [read] at whole
      contradiction
  | ok s =>
      obtain ⟨c, known⟩ := s
      cases verdict : c.verdict with
      | some e =>
          unfold compiled at whole
          rw [read] at whole
          dsimp only at whole
          rw [verdict] at whole
          contradiction
      | none =>
          cases wrote : files.writeFile (.ofText out) (Pattern.save known) with
          | ok written =>
              refine ⟨c, known, rfl, verdict, ?_⟩
              rw [wrote, compiled_whole read verdict wrote]
          | error cause =>
              obtain ⟨e, fails⟩ : ∃ e,
                  RuleSet.savedAt known (.ofText out) files = (.error e, files) := by
                unfold RuleSet.savedAt
                cases Plain.path (.ofText out) with
                | error e => exact ⟨e, rfl⟩
                | ok _ =>
                    rw [Path.shownPath_ofText, wrote]
                    exact ⟨_, rfl⟩
              unfold compiled at whole
              rw [read] at whole
              dsimp only at whole
              rw [verdict, fails] at whole
              contradiction

/-! ## The agreement of check and compile -/

theorem checked_agrees_with_compiled (config : Config) (first second : OutputFormat)
    {files : FileTree} (arguments : List String) (out : String)
    (writable : ∃ written, files.writeFile (.ofText out) [] = .ok written) :
    let checked := checked config first files arguments
    let compiled := (compiled config second files arguments config.compiler.defaultNamespace
      (.ofText out)).1
    checked.failure = compiled.failure ∧ (compiled.failure = none → ∃ c : Compiler,
      checked = (report c none).outcome first ∧
      compiled = (report c (some (.ofText out))).outcome second) := by
  obtain ⟨_, writable⟩ := writable
  unfold checked
  cases read : session config files config.compiler.defaultNamespace arguments with
  | error e =>
      unfold compiled
      rw [read]
      exact ⟨rfl, fun sound => nomatch sound⟩
  | ok s =>
      obtain ⟨c, known⟩ := s
      dsimp only
      cases verdict : c.verdict with
      | some e =>
          unfold compiled
          rw [read]
          dsimp only
          rw [verdict]
          exact ⟨rfl, fun sound => nomatch sound⟩
      | none =>
          obtain ⟨written, wrote⟩ := FileTree.writeFile_any writable (Pattern.save known)
          obtain ⟨told, here⟩ : ∃ text, (report c none).outcome first = ⟨text, none⟩ :=
            report_whole c none first
          obtain ⟨line, there⟩ : ∃ text,
              (report c (some (.ofText out))).outcome second = ⟨text, none⟩ :=
            report_whole c (some out) second
          rw [compiled_whole read verdict wrote, here, there]
          exact ⟨rfl, fun _ => ⟨c, here.symm, there.symm⟩⟩

/-- `check` fails where `compile` fails, and for the same reason; where they do not fail, they
report on the same compiler. -/
theorem check_agrees_with_compile (env : Environment) (config : Config) (first second : Request)
    (arguments : List String) (out : String) {h : Host} (bare : h.engines = [])
    (writable : ∃ written, h.files.writeFile (.ofText out) [] = .ok written) :
    let checking := { first with command := some (.check arguments) }
    let compiling := { second with command := some (.compile arguments none (.ofText out)) }
    let checked := (checking.runWith env config h).1
    let compiled := (compiling.runWith env config h).1
    checked.failure = compiled.failure ∧ (compiled.failure = none → ∃ c : Compiler,
      checked = (report c none).outcome (first.format.getD .text) ∧
      compiled = (report c (some (.ofText out))).outcome (second.format.getD .text)) := by
  intro checking compiling
  cases valid : config.validate with
  | error e =>
      rw [runWith_of_invalid valid, runWith_of_invalid valid]
      exact ⟨rfl, fun sound => nomatch sound⟩
  | ok _ =>
      rw [runWith_check valid bare rfl, (runWith_compile valid bare rfl env).1]
      exact checked_agrees_with_compiled config _ _ arguments out writable

def privateRule : FileTree := ⟨[([Utf8.encode "a"], .file (Utf8.encode "_r x"))], []⟩

theorem find_privateRule : privateRule.find .target (.ofText "a") =
    .ok ([Utf8.encode "a"], .file (Utf8.encode "_r x")) :=
  FileTree.find_file rfl rfl rfl ⟨by decide, by decide, by decide, by decide⟩ rfl

theorem writeTarget_privateRule : privateRule.writeTarget (.ofText "b") = .ok [Utf8.encode "b"] :=
  FileTree.writeTarget_free rfl rfl rfl ⟨by decide, by decide, by decide, by decide⟩ rfl

theorem writeFile_privateRule (content : Bytes) :
    ∃ written, privateRule.writeFile (.ofText "b") content = .ok written :=
  ⟨_, FileTree.writeFile_eq_ok_iff.mpr
    ⟨rfl, FileTree.write_eq_ok_iff.mpr ⟨_, writeTarget_privateRule, rfl⟩⟩⟩

/-- The rule file is taken from whatever tree it is in. -/
theorem session_of_find {files : FileTree} {l : Location}
    (found : files.find .target (.ofText "a") = .ok (l, .file (Utf8.encode "_r x")))
    (config : Config) : ∃ c known, session config files "default" ["a"] = .ok (c, known) ∧
      c.failOnWarnings = config.compiler.failOnWarnings := by
  have named : RuleSource.ofArgument "a" "default" = .ok ⟨"default", .ofText "a"⟩ := rfl
  have found : Compiler.sourceFile files (.ofText "a") = .ok (Utf8.encode "_r x") := by
    unfold Compiler.sourceFile FileTree.openObject FileTree.stat
    rw [found]
    rfl
  unfold session sourcesRead
  rw [List.foldlM_cons]
  unfold sourceRead RuleText.read
  rw [named]
  simp only [bind, Except.bind, found]
  exact ⟨_, _, rfl, rfl⟩

theorem session_privateRule (config : Config) : ∃ c known,
    session config privateRule "default" ["a"] = .ok (c, known) ∧
      c.failOnWarnings = config.compiler.failOnWarnings :=
  session_of_find find_privateRule config

theorem compiled_privateRule (format : OutputFormat) :
    (compiled {} format privateRule ["a"] "default" (.ofText "b")).1.failure = none := by
  obtain ⟨c, known, read, lenient⟩ := session_privateRule {}
  obtain ⟨written, wrote⟩ := writeFile_privateRule (Pattern.save known)
  obtain ⟨text, whole⟩ : ∃ text, (report c (some (.ofText "b"))).outcome format = ⟨text, none⟩ :=
    report_whole c (some "b") format
  have verdict : c.verdict = none := by
    unfold Compiler.verdict
    rw [lenient]
    rfl
  rw [compiled_whole read verdict wrote, whole]

theorem check_agrees_with_compile_of_a_private_rule :
    let h : Host := { files := privateRule, tempDir := .ofText "" }
    let env : Environment := ⟨none, none, none⟩
    let checking : Request := { command := some (.check ["a"]) }
    let compiling : Request :=
      { format := some .json, command := some (.compile ["a"] none (.ofText "b")) }
    let checked := (checking.runWith env {} h).1
    let compiled := (compiling.runWith env {} h).1
    checked.failure = none ∧ compiled.failure = none ∧ ∃ c : Compiler,
      checked = (report c none).outcome .text ∧
      compiled = (report c (some (.ofText "b"))).outcome .json := by
  intro h env checking compiling checked compiled
  obtain ⟨same, told⟩ := check_agrees_with_compile env {} checking compiling ["a"] "b" (h := h) rfl
    (writeFile_privateRule [])
  have valid : ({} : Config).validate = .ok () := rfl
  have compiles := (runWith_compile (h := h) (r := compiling) valid rfl rfl env).1
  have sound : compiled.failure = none :=
    (congrArg Outcome.failure compiles).trans (compiled_privateRule .json)
  exact ⟨same.trans sound, sound, told sound⟩

end Program

end Needle
