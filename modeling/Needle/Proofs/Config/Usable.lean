import Needle.Command.Compile
import Needle.Log
import Needle.Proofs.Compiler.Addition
import Needle.Proofs.Scan.Timeout
import Needle.Proofs.Utf8

/-!
# A validated configuration is usable

`validate` states by itself what four other parts of the program ask of a configuration: namespaces
of the engine, its timeouts, the limit on the size of files, and the levels of the log. The two
sides agree: a configuration is accepted exactly if each of these parts takes its setting as it
stands, and of one that is refused the field is named whose setting would be refused, changed or of
no use there.
-/
set_option autoImplicit false

namespace Needle

/-! ## The namespace -/

theorem Utf8.encode_ne_nil {text : String} (some : text ≠ "") : encode text ≠ [] := by
  intro nothing
  have read := lossy_encode text
  rw [nothing] at read
  exact some read.symm

theorem RuleSource.ofArgument_named {ns : String} (named : ns ≠ "") (argument : String) :
    match ofArgument argument ns with
    | .ok source => source.ns ≠ "" ∧ source.path.bytes ≠ []
    | .error _ => argument = "" := by
  unfold ofArgument
  by_cases empty : argument = ""
  · subst empty
    rfl
  · have whole := Utf8.encode_ne_nil empty
    rw [if_neg (mt String.isEmpty_iff.mp empty)]
    cases Text.cutAt ':' argument.toList with
    | none => exact ⟨named, whole⟩
    | some parts =>
        obtain ⟨before, after⟩ := parts
        by_cases kept : before.isEmpty || after.isEmpty || isDrive before after
        · simp only [if_pos kept]
          exact ⟨named, whole⟩
        · simp only [if_neg kept]
          simp only [Bool.or_eq_true, List.isEmpty_iff, not_or] at kept
          obtain ⟨⟨first, second⟩, _⟩ := kept
          exact ⟨by simpa using first, Utf8.encode_ne_nil (by simpa using second)⟩

section Refusals

variable {e : Error}

/-- The refusal of some namespace. -/
def Error.RefusesName (e : Error) : Prop := ∃ name, Plain.namespaceName name = .error e

theorem Error.RefusesName.message (refusal : e.RefusesName) :
    ∃ rest, e = .invalidArgument ("namespace " ++ rest) := by
  obtain ⟨name, refused⟩ := refusal
  unfold Plain.namespaceName Plain.text at refused
  split at refused
  · cases refused
    exact ⟨"must not be empty", by decide⟩
  · split at refused
    · cases refused
      exact ⟨"contains a NUL byte", by decide⟩
    · contradiction

theorem Error.not_refusesName {message : String} (apart : message.toList.head? ≠ some 'n') :
    ¬ (Error.invalidArgument message).RefusesName := by
  intro refusal
  obtain ⟨rest, told⟩ := refusal.message
  rw [Error.invalidArgument.inj told] at apart
  simp at apart

theorem Plain.not_refusesName_of_path {path : Path} (refused : Plain.path path = .error e) :
    ¬ e.RefusesName := by
  unfold Plain.path at refused
  split at refused
  · cases refused
    exact Error.not_refusesName (by simp)
  · contradiction

theorem RuleSource.not_refusesName_of_argument {argument ns : String}
    (refused : RuleSource.ofArgument argument ns = .error e) : ¬ e.RefusesName := by
  unfold ofArgument at refused
  split at refused
  · cases refused
    exact Error.not_refusesName (by simp)
  · split at refused
    · split at refused
      · contradiction
      · contradiction
    · contradiction

theorem Compiler.accepts_refusesName {c : Compiler} {ns : String}
    (refused : c.accepts ns = .error e) (refusal : e.RefusesName) :
    Plain.namespaceName ns = .error e := by
  cases state : c.failed with
  | none =>
      rw [c.accepts_of_usable state] at refused
      cases name : Plain.namespaceName ns with
      | ok bytes => simp [name, Except.map] at refused
      | error cause =>
          rw [name] at refused
          cases refused
          rfl
  | some errors =>
      unfold accepts usable at refused
      rw [state] at refused
      cases refused
      obtain ⟨rest, told⟩ := refusal.message
      contradiction

theorem Compiler.addFile_refusesName {c : Compiler} {ns : String} {path : Path} {h : Host}
    (failed : (c.addFile ns path h).1 = .error e) (refusal : e.RefusesName) :
    Plain.namespaceName ns = .error e := by
  obtain ⟨rest, told⟩ := refusal.message
  unfold addFile at failed
  split at failed
  case h_1 cause refused =>
    cases failed
    exact accepts_refusesName refused refusal
  case h_2 cause _ refused =>
    cases failed
    exact absurd refusal (Plain.not_refusesName_of_path refused)
  case h_3 cause _ _ unread =>
    cases failed
    obtain ⟨cause, unread⟩ := sourceFile_eq_error unread
    cases unread.symm.trans told
  case h_4 =>
    unfold absorb at failed
    dsimp only at failed
    split at failed
    · cases failed
      contradiction
    · contradiction

end Refusals

namespace Program

def BringsRefused (arguments : List String) (ns : String) (e : Error) : Prop :=
  ∃ argument ∈ arguments, ∃ source, RuleSource.ofArgument argument ns = .ok source ∧
    Plain.namespaceName source.ns = .error e

theorem addSources_refusesName {c : Compiler} {ns : String} {h : Host} {arguments : List String}
    {e : Error} (failed : (addSources c ns h arguments).1 = .error e) (refusal : e.RefusesName) :
    BringsRefused arguments ns e := by
  induction arguments generalizing c h with
  | nil => contradiction
  | cons argument rest ih =>
      unfold addSources at failed
      cases named : RuleSource.ofArgument argument ns with
      | error cause =>
          rw [named] at failed
          cases failed
          exact absurd refusal (RuleSource.not_refusesName_of_argument named)
      | ok source =>
          rw [named] at failed
          dsimp only at failed
          split at failed
          case h_1 =>
            obtain ⟨other, member, brings⟩ := ih failed
            exact ⟨other, List.mem_cons_of_mem _ member, brings⟩
          case h_2 cause _ _ answer =>
            cases failed
            exact ⟨argument, List.mem_cons_self, source, named,
              Compiler.addFile_refusesName (congrArg Prod.fst answer) refusal⟩

theorem compileSources_refusesName {config : Config} {r : Owner} {arguments : List String}
    {ns : String} {h : Host} {e : Error}
    (failed : (compileSources config r arguments ns h).1 = .error e) (refusal : e.RefusesName) :
    BringsRefused arguments ns e := by
  unfold compileSources at failed
  split at failed
  case h_1 cause _ created =>
    cases failed
    obtain ⟨rest, told⟩ := refusal.message
    unfold Compiler.create at created
    split at created
    · cases created
      contradiction
    · cases created
  case h_2 c begun _ =>
    split at failed
    case h_1 => contradiction
    case h_2 cause _ _ answer =>
      cases failed
      exact addSources_refusesName (congrArg Prod.fst answer) refusal

end Program

/-! ## The timeout, the size and the level -/

namespace ScanOptions

theorem timeoutSecs_ofConfig (c : ScanConfig) :
    (ofConfig c).timeoutSecs = .ok (min c.timeoutSecs.toNat Config.maxTimeout) := by
  unfold ofConfig configuredTimeout
  by_cases off : c.timeoutSecs = 0
  · rw [if_pos off, off]
    rfl
  · have whole : (Duration.ofSeconds c.timeoutSecs).wholeSeconds = c.timeoutSecs.toNat := by
      rw [Duration.wholeSeconds_eq]
      rfl
    have fits : (Duration.ofSeconds c.timeoutSecs).Fits :=
      Nat.lt_of_le_of_lt (Nat.le_of_eq whole) c.timeoutSecs.toNat_lt
    rw [if_neg off, timeoutSecs_of_fits fits, whole]

theorem timeout_ofConfig_eq_none_iff (c : ScanConfig) :
    (ofConfig c).timeout = none ↔ c.timeoutSecs = 0 := by
  unfold ofConfig configuredTimeout
  by_cases off : c.timeoutSecs = 0
  · simp [off]
  · simp [off]

end ScanOptions

theorem ScanConfig.maxFileSize_eq_zero_iff (c : ScanConfig) :
    c.maxFileSize = 0 ↔ c.maxFileSizeMb = 0 := by
  unfold maxFileSize wordSize
  rw [← UInt64.toNat_inj, UInt64.toNat_zero]
  omega

theorem LogConfig.level_ofConfig (c : Config) :
    (LogConfig.ofConfig c).level = (Level.ofName? c.logging.logLevel).getD .info :=
  rfl

/-! ## Both sides -/

namespace Config

/-- Each part of the program takes its setting as it stands. -/
structure Usable (c : Config) : Prop where
  named : Plain.namespaceName c.compiler.defaultNamespace =
    .ok (Utf8.encode c.compiler.defaultNamespace)
  /-- Every argument that is not empty names a namespace and a path. -/
  sources : ∀ argument, match RuleSource.ofArgument argument c.compiler.defaultNamespace with
    | .ok source => source.ns ≠ "" ∧ source.path.bytes ≠ []
    | .error _ => argument = ""
  /-- Compiling into the default namespace fails for a namespace only if an argument brings it. -/
  compiles : ∀ r arguments h e,
    (Program.compileSources c r arguments c.compiler.defaultNamespace h).1 = .error e →
    e.RefusesName → ∃ argument ∈ arguments, ∃ source,
      RuleSource.ofArgument argument c.compiler.defaultNamespace = .ok source ∧
        source.ns ≠ c.compiler.defaultNamespace ∧ Plain.namespaceName source.ns = .error e
  timeout : (ScanOptions.ofConfig c.scan).timeoutSecs = .ok c.scan.timeoutSecs.toNat
  unlimited : (ScanOptions.ofConfig c.scan).timeout = none ↔ c.scan.timeoutSecs = 0
  size : 0 < c.scan.maxFileSize
  level : Level.ofName? c.logging.logLevel = some (LogConfig.ofConfig c).level

/-- The field's setting is refused, changed, or of no use where it is needed. -/
inductive Faulty (c : Config) : String → Prop
  | refused {e : Error} (refused : Plain.namespaceName c.compiler.defaultNamespace = .error e) :
      c.Faulty "compiler.default_namespace"
  | cut (longer : maxTimeout < c.scan.timeoutSecs.toNat)
      (cut : (ScanOptions.ofConfig c.scan).timeoutSecs = .ok maxTimeout) :
      c.Faulty "scan.timeout_secs"
  | nothing (zero : c.scan.maxFileSizeMb = 0) (nothing : c.scan.maxFileSize = 0) :
      c.Faulty "scan.max_file_size_mb"
  | unknown (unknown : Level.ofName? c.logging.logLevel = none)
      (fallback : (LogConfig.ofConfig c).level = .info) : c.Faulty "logging.log_level"

/-- What is faulty somewhere is not usable. -/
theorem Faulty.not_usable {c : Config} {field : String} (faulty : c.Faulty field) : ¬ c.Usable := by
  intro usable
  cases faulty with
  | refused refused =>
      rw [usable.named] at refused
      contradiction
  | cut longer cut =>
      have exact := Except.ok.inj (cut.symm.trans usable.timeout)
      omega
  | nothing _ nothing =>
      have positive := usable.size
      omega
  | unknown unknown _ =>
      have known := usable.level
      rw [unknown] at known
      contradiction

theorem usable_of_parts {c : Config} (named : c.compiler.defaultNamespace ≠ "")
    (plain : '\x00' ∉ c.compiler.defaultNamespace.toList)
    (short : c.scan.timeoutSecs.toNat ≤ maxTimeout) (limited : c.scan.maxFileSizeMb ≠ 0)
    (known : Level.ofName? c.logging.logLevel ≠ none) : c.Usable := by
  have accepted := Plain.namespaceName_eq_ok_iff.mpr ⟨named, plain, rfl⟩
  constructor
  case named => exact accepted
  case sources => exact RuleSource.ofArgument_named named
  case compiles =>
    intro r arguments h e failed refusal
    obtain ⟨argument, member, source, brings, refused⟩ :=
      Program.compileSources_refusesName failed refusal
    refine ⟨argument, member, source, brings, ?_, refused⟩
    intro same
    rw [same, accepted] at refused
    contradiction
  case timeout => rw [ScanOptions.timeoutSecs_ofConfig, Nat.min_eq_left short]
  case unlimited => exact ScanOptions.timeout_ofConfig_eq_none_iff c.scan
  case size =>
    have zero := c.scan.maxFileSize_eq_zero_iff
    exact Nat.pos_of_ne_zero fun nothing => limited (zero.mp nothing)
  case level =>
    obtain ⟨level, found⟩ := Option.ne_none_iff_exists'.mp known
    rw [LogConfig.level_ofConfig, found, Option.getD_some]

theorem validate_cases (c : Config) :
    (c.validate = .ok () ∧ c.Usable) ∨
      ∃ field message, c.validate = .error (.configInvalid field message) ∧ c.Faulty field := by
  unfold validate
  split
  case isTrue unfit =>
    cases name : Plain.namespaceName c.compiler.defaultNamespace with
    | error e => exact .inr ⟨_, _, rfl, .refused name⟩
    | ok bytes =>
        obtain ⟨named, plain, -⟩ := Plain.namespaceName_eq_ok_iff.mp name
        simp [named, plain] at unfit
  case isFalse fit =>
    simp only [Bool.or_eq_true, String.isEmpty_iff, List.contains_iff_mem, not_or] at fit
    obtain ⟨named, plain⟩ := fit
    split
    case isTrue long =>
      refine .inr ⟨_, _, rfl, .cut long ?_⟩
      rw [ScanOptions.timeoutSecs_ofConfig, Nat.min_eq_right (Nat.le_of_lt long)]
    case isFalse short =>
      split
      case isTrue zero =>
        exact .inr ⟨_, _, rfl, .nothing zero (c.scan.maxFileSize_eq_zero_iff.mpr zero)⟩
      case isFalse limited =>
        split
        case isTrue none =>
          rw [Option.isNone_iff_eq_none] at none
          refine .inr ⟨_, _, rfl, .unknown none ?_⟩
          rw [LogConfig.level_ofConfig, none, Option.getD_none]
        case isFalse known =>
          rw [Option.isNone_iff_eq_none] at known
          exact .inl ⟨rfl, usable_of_parts named plain (Nat.le_of_not_lt short) limited known⟩

/-- A configuration that is accepted is usable. One that is refused is not, and the field that the
error names is faulty. -/
theorem validate_usable (c : Config) :
    match c.validate with
    | .ok _ => c.Usable
    | .error e => ¬ c.Usable ∧
        ∃ field message, e = .configInvalid field message ∧ c.Faulty field := by
  rcases c.validate_cases with ⟨accepted, usable⟩ | ⟨field, message, refused, faulty⟩
  · rw [accepted]
    exact usable
  · rw [refused]
    exact ⟨faulty.not_usable, field, message, rfl, faulty⟩

example : validate ⟨⟨"a", true⟩, ⟨true, 2147483647, true, 1⟩, ⟨"WaRnInG"⟩⟩ = .ok () := by
  rfl

end Config

end Needle
