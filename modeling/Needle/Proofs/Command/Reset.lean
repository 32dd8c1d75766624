import Needle.Proofs.Command.Frame
import Needle.Proofs.Config.RoundTrip

/-!
# Resetting the configuration

A run that resets the configuration loads and checks it first, as every run does. A file that cannot
be read as a configuration is passed over, so the reset goes on and leaves the default configuration
in its place. A file that can be read, but holds a setting that is refused, stops the run before the
reset: the very file that was to be replaced stays.
-/
set_option autoImplicit false

namespace Needle

namespace FileTree

theorem holds_of_readFile {t : FileTree} {p : Path} {content : Bytes}
    (reads : t.readFile p = .ok content) : t.holds p = true := by
  obtain ⟨plain, seen⟩ := ask_eq_ok_iff.mp (openObject_of_readFile reads)
  unfold holds exists?
  rw [plain, seen]
  rfl

end FileTree

namespace Config

variable {env : Environment} {files made : FileTree} {path : Path}

theorem holds_of_load {c : Config} (loaded : load files path = .ok c) :
    files.holds path = true := by
  cases content : files.readFile path with
  | ok bytes => exact FileTree.holds_of_readFile content
  | error cause =>
      have unread : files.readText path = .error cause := by
        unfold FileTree.readText
        rw [content]
        rfl
      rw [load, unread] at loaded
      contradiction

theorem validate_default : ({} : Config).validate = .ok () := rfl

/-- What a run starts from is refused exactly if the file at the default place holds a configuration
that is refused. -/
theorem validate_loadOrDefault_iff :
    (loadOrDefault env files).1.validate = .ok () ↔
      ∀ c, load files env.configPath = .ok c → c.validate = .ok () := by
  cases loaded : load files env.configPath with
  | error cause =>
      have passed : (loadOrDefault env files).1 = {} := by
        unfold loadOrDefault
        rw [loaded]
        split
        · rfl
        · rfl
      rw [passed]
      exact ⟨fun _ c other => (nomatch other), fun _ => validate_default⟩
  | ok c =>
      have taken : (loadOrDefault env files).1 = c := by
        unfold loadOrDefault
        rw [if_pos (holds_of_load loaded), loaded]
      rw [taken]
      constructor
      · intro valid other same
        exact Except.ok.inj same ▸ valid
      · intro all
        exact all c rfl

end Config

namespace Program

theorem configure_reset (config : Config) {path : Path} {h : Host} {made : FileTree}
    (parents : Config.makeParent h.files path = (made, .ok ()))
    (writable : ∃ written, made.writeFile path [] = .ok written) :
    let done := configure config path h (.reset true)
    done.1.failure = none ∧ Config.load done.2.files path = .ok {} := by
  obtain ⟨after, saved, loads⟩ := Config.save_writable {} parents writable
  have noted : (h.note .resettingConfig).files = h.files := rfl
  unfold configure
  simp only [Bool.not_true, Bool.false_and, Bool.false_eq_true, if_false, noted, saved]
  exact ⟨rfl, loads⟩

end Program

/-- The reset of the configuration at the default place, agreed to beforehand. -/
structure Request.Resets (r : Request) : Prop where
  command : r.command = some (.config (.reset true))
  config : r.config = none

namespace Completion

section Resets

variable {r : Request} (resets : r.Resets) (env : Environment) (time : String) (files : FileTree)
  (tempDir : Path)

include resets

theorem ofRequest_reset_of_invalid {c : Config} {e : Error}
    (loaded : Config.load files env.configPath = .ok c) (invalid : c.validate = .error e) :
    let done := ofRequest r env time { files := files, tempDir := tempDir }
    done.exitCode ≠ 0 ∧ done.files = files := by
  intro done
  let h : Host := { files := files, tempDir := tempDir }
  have asked : r.loadConfig env files = .ok c := by
    unfold Request.loadConfig Config.loadOrDefault
    rw [resets.config, if_pos (Config.holds_of_load loaded), loaded]
  obtain ⟨filed, _, coded⟩ := ofOutcome_eq (r.logConfig c) time (r.runWith env c h).1
    (r.runWith env c h).2
  unfold done ofRequest
  rw [asked]
  dsimp only
  rw [filed, Ne, coded, Program.runWith_of_invalid invalid]
  exact ⟨by simp [Outcome.fail], Program.files_of_invalid invalid r env h⟩

theorem ofRequest_reset {made : FileTree}
    (parents : Config.makeParent files env.configPath = (made, .ok ()))
    (writable : ∃ written, made.writeFile env.configPath [] = .ok written)
    (valid : (Config.loadOrDefault env files).1.validate = .ok ()) :
    let done := ofRequest r env time { files := files, tempDir := tempDir }
    done.exitCode = 0 ∧ Config.load done.files env.configPath = .ok {} := by
  intro done
  let config := (Config.loadOrDefault env files).1
  let h : Host := { files := files, tempDir := tempDir }
  have asked : r.loadConfig env files = .ok config := by
    unfold Request.loadConfig
    rw [resets.config]
  have place : r.configPath env = env.configPath := by
    unfold Request.configPath
    rw [resets.config, Option.getD_none]
  obtain ⟨begun, runs, _, same⟩ := Program.runWith_of_valid valid r env h
  have ran : r.runWith env config h =
      Program.configure config env.configPath begun (.reset true) := by
    rw [runs, resets.command, place]
    rfl
  obtain ⟨whole, loads⟩ := Program.configure_reset config (h := begun) (same ▸ parents) writable
  obtain ⟨filed, _, coded⟩ := ofOutcome_eq (r.logConfig config) time (r.runWith env config h).1
    (r.runWith env config h).2
  unfold done ofRequest
  rw [asked]
  dsimp only
  rw [filed, coded, ran]
  exact ⟨whole, loads⟩

end Resets

/-- A reset succeeds, and leaves the default configuration, unless the file that it would replace is
a configuration with a setting that is refused; then the run fails and changes nothing. -/
theorem ofArguments_reset (env : Environment) (time : String) {arguments : List Bytes} {r : Request}
    (read : Request.ofArguments arguments = .ok r) (resets : r.Resets) (files : FileTree)
    (tempDir : Path) {made : FileTree}
    (parents : Config.makeParent files env.configPath = (made, .ok ()))
    (writable : ∃ written, made.writeFile env.configPath [] = .ok written) :
    let done := ofArguments env time arguments { files := files, tempDir := tempDir }
    (done.exitCode = 0 ↔ ∀ c, Config.load files env.configPath = .ok c → c.validate = .ok ()) ∧
      (done.exitCode = 0 → Config.load done.files env.configPath = .ok {} ∧
        ({} : Config).validate = .ok ()) ∧
      (done.exitCode ≠ 0 → done.files = files) := by
  intro done
  have ran : done = ofRequest r env time { files := files, tempDir := tempDir } := by
    unfold done ofArguments
    rw [read]
  rw [ran]
  by_cases valid : ∀ c, Config.load files env.configPath = .ok c → c.validate = .ok ()
  · obtain ⟨success, loads⟩ := ofRequest_reset resets env time files tempDir parents writable
      (Config.validate_loadOrDefault_iff.mpr valid)
    exact ⟨⟨fun _ => valid, fun _ => success⟩,
      fun _ => ⟨loads, Config.validate_default⟩, fun failed => absurd success failed⟩
  · obtain ⟨c, loaded, refused⟩ : ∃ c, Config.load files env.configPath = .ok c ∧
        c.validate ≠ .ok () := by simpa using valid
    obtain ⟨e, invalid⟩ : ∃ e, c.validate = .error e := by
      cases verdict : c.validate with
      | ok _ => exact absurd verdict refused
      | error e => exact ⟨e, rfl⟩
    obtain ⟨failed, same⟩ :=
      ofRequest_reset_of_invalid resets env time files tempDir loaded invalid
    exact ⟨⟨fun success => absurd success failed, fun all => absurd all valid⟩,
      fun success => absurd success failed, fun _ => same⟩

/-! ## A tree with a configuration file -/

def etc : Environment := ⟨none, some (.ofText "/etc"), none⟩

def configuredBy (content : Bytes) : FileTree :=
  let names := ["etc", "rulescan", "config.json"].map Utf8.encode
  ⟨[(names.take 1, .directory), (names.take 2, .directory), (names, .file content)], []⟩

section Configured

variable (content : Bytes)

theorem locate_configuredBy (purpose : FileTree.Purpose) :
    (configuredBy content).locate purpose etc.configPath (FileTree.steps etc.configPath) =
      .ok (.object (["etc", "rulescan", "config.json"].map Utf8.encode) (.file content)) := by
  refine FileTree.locate_eq_ok_iff.mpr ⟨rfl, ?_⟩
  refine .down ⟨by decide, by decide, by simp, by decide⟩ rfl ?_
  refine .down ⟨by decide, by decide, by simp, by decide⟩ rfl ?_
  exact .file ⟨by decide, by decide, by simp, by decide⟩ rfl

theorem readFile_configuredBy : (configuredBy content).readFile etc.configPath = .ok content := by
  have found := FileTree.find_eq_ok_iff.mpr (locate_configuredBy content .target)
  unfold FileTree.readFile FileTree.read FileTree.stat
  rw [found]
  rfl

theorem writable_configuredBy :
    ∃ written, (configuredBy content).writeFile etc.configPath [] = .ok written := by
  have target := FileTree.writeTarget_eq_ok_iff.mpr
    ⟨_, locate_configuredBy content .writing, .file content⟩
  exact ⟨_, FileTree.writeFile_eq_ok_iff.mpr ⟨rfl, FileTree.write_eq_ok_iff.mpr ⟨_, target, rfl⟩⟩⟩

theorem makeParent_configuredBy :
    Config.makeParent (configuredBy content) etc.configPath = (configuredBy content, .ok ()) := by
  let dir : Path := .ofText "/etc/rulescan"
  have located (purpose : FileTree.Purpose) :
      (configuredBy content).locate purpose dir (["etc", "rulescan"].map Utf8.encode) =
        .ok (.object (["etc", "rulescan"].map Utf8.encode) .directory) := by
    refine FileTree.locate_eq_ok_iff.mpr ⟨rfl, ?_⟩
    have further : ¬ (purpose = .writing ∧ [Utf8.encode "rulescan"] = [[]]) :=
      fun refused => absurd refused.2 (by decide)
    refine .down ⟨by decide, by decide, further, by decide⟩ rfl ?_
    exact .down ⟨by decide, by decide, by simp, by decide⟩ rfl .here
  have there : (configuredBy content).isDirectory dir = true := by
    have found := FileTree.find_eq_ok_iff.mpr (located .target)
    unfold FileTree.isDirectory FileTree.stat
    rw [found]
    rfl
  have made : (configuredBy content).makeDirectory dir = .error .alreadyExists := by
    have names : dir.names = ["etc", "rulescan"].map Utf8.encode := rfl
    rw [FileTree.makeDirectory, FileTree.create, names, located]
  have above : etc.configPath.parent? = some dir := rfl
  have named : dir.bytes.isEmpty = false := rfl
  rw [Config.makeParent, above]
  change FileTree.makePath _ _ = _
  rw [FileTree.makePath, FileTree.makeDirectories, named, if_neg Bool.false_ne_true,
    FileTree.makeChain, made]
  dsimp only
  rw [if_pos there]
  rfl

end Configured

def resetLine : List Bytes := ["config", "reset", "--yes"].map Utf8.encode

theorem ofArguments_resetLine :
    Request.ofArguments resetLine = .ok { command := some (.config (.reset true)) } := by
  decide +kernel

/-- A file that breaks off is replaced. -/
theorem ofArguments_reset_of_a_broken_file :
    let files := configuredBy (Utf8.encode "\x7b")
    let done := ofArguments etc "" resetLine { files := files, tempDir := .ofText "" }
    (∃ cause, Config.load files etc.configPath = .error cause) ∧
      done.exitCode = 0 ∧ Config.load done.files etc.configPath = .ok {} := by
  intro files done
  obtain ⟨cause, broken⟩ : ∃ cause, Config.load files etc.configPath = .error cause :=
    ⟨_, Config.load_eq (readFile_configuredBy _)⟩
  obtain ⟨succeeds, leaves, _⟩ := ofArguments_reset etc "" ofArguments_resetLine ⟨rfl, rfl⟩ files
    (.ofText "") (makeParent_configuredBy _) (writable_configuredBy _)
  have success : done.exitCode = 0 := by
    refine succeeds.mpr fun c loaded => ?_
    cases broken.symm.trans loaded
  exact ⟨⟨cause, broken⟩, success, (leaves success).1⟩

def sizeless : Config := { scan := { maxFileSizeMb := 0 } }

/-- A configuration without room for any file stops the reset, though its file could be written. -/
theorem reset_of_a_refused_setting :
    let files := configuredBy (Utf8.encode "\x7b\"scan\": \x7b\"max_file_size_mb\": 0\x7d\x7d")
    let done := ofArguments etc "" resetLine { files := files, tempDir := .ofText "" }
    Config.makeParent files etc.configPath = (files, .ok ()) ∧
      (∃ written, files.writeFile etc.configPath [] = .ok written) ∧
      done.exitCode ≠ 0 ∧ Config.load done.files etc.configPath = .ok sizeless := by
  intro files done
  have loaded : Config.load files etc.configPath = .ok sizeless :=
    Config.load_of_readFile (readFile_configuredBy _) rfl
  have refused : sizeless.validate =
      .error (.configInvalid "scan.max_file_size_mb" "Must be greater than 0") := by rfl
  have ran : done = ofRequest { command := some (.config (.reset true)) } etc ""
      { files := files, tempDir := .ofText "" } := by
    unfold done ofArguments
    rw [ofArguments_resetLine]
  obtain ⟨failed, same⟩ := ofRequest_reset_of_invalid
    (r := { command := some (.config (.reset true)) }) ⟨rfl, rfl⟩ etc "" files (.ofText "") loaded
    refused
  rw [ran, same]
  exact ⟨makeParent_configuredBy _, writable_configuredBy _, failed, loaded⟩

end Completion

end Needle
