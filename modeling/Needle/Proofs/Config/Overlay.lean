import Mathlib.Data.Option.Basic
import Mathlib.Logic.Relation
import Needle.Proofs.Config.RoundTrip
import Needle.Proofs.File.Read
import Needle.Proofs.Json.Objects

/-!
# Configurations in part

A configuration file may give any of the sections, and each of them any of its fields: what it
leaves out keeps its default. Neither the order of the keys nor keys that are not known count, at
either level, and a file in which a known key stands twice is refused. So is a file with a key that
is no text.
-/
set_option autoImplicit false

namespace Needle

namespace Json

def SetBy (fields : List (String × Option Json)) (v : Json) : Prop :=
  ∃ members, v = .obj members ∧ Sets fields members

theorem record?_of_setBy {fields : List (String × Option Json)} {v : Json}
    (sets : SetBy fields v) :
    record? (fields.map Prod.fst) v = some ⟨false, fields.map Prod.snd⟩ := by
  obtain ⟨members, rfl, sets⟩ := sets
  exact record?_of_sets sets

theorem orDefault_map {α : Type} (read : Json → Option α) (write : α → Json)
    (back : ∀ a, read (write a) = some a) (default : α) (given : Option α) :
    orDefault read default (given.map write) = some (given.getD default) := by
  cases given with
  | none => rfl
  | some a => exact back a

theorem orDefault_text (default : String) (given : Option String) :
    orDefault asText? default (given.map .text) = some (given.getD default) :=
  orDefault_map asText? .text (fun _ => rfl) default given

theorem orDefault_bool (default : Bool) (given : Option Bool) :
    orDefault asBool? default (given.map .bool) = some (given.getD default) :=
  orDefault_map asBool? .bool (fun _ => rfl) default given

theorem orDefault_rel {α β : Type} {read : Json → Option α} {reads : β → Json → Prop} {meant : β → α}
    (each : ∀ b v, reads b v → read v = some (meant b)) (default : α) {given : Option β}
    {value : Option Json} (rel : Option.Rel reads given value) :
    orDefault read default value = some (given.elim default meant) := by
  cases rel with
  | none => rfl
  | some one => exact each _ _ one

end Json

/-! ## The fields that are given -/

structure CompilerPart where
  defaultNamespace : Option String := none
  failOnWarnings : Option Bool := none

namespace CompilerPart

def fields (p : CompilerPart) : List (String × Option Json) :=
  [("default_namespace", p.defaultNamespace.map .text),
    ("fail_on_warnings", p.failOnWarnings.map .bool)]

/-- The section with the fields that are given in place of its own. -/
def onto (c : CompilerConfig) (p : CompilerPart) : CompilerConfig :=
  ⟨p.defaultNamespace.getD c.defaultNamespace, p.failOnWarnings.getD c.failOnWarnings⟩

theorem ofJson?_of_setBy (p : CompilerPart) (v : Json) (sets : Json.SetBy p.fields v) :
    CompilerConfig.ofJson? v = some (onto {} p) := by
  have given : v.record? CompilerConfig.fieldNames = some ⟨false, p.fields.map Prod.snd⟩ :=
    Json.record?_of_setBy sets
  rw [CompilerConfig.ofJson?, given]
  simp only [fields, List.map_cons, List.map_nil, Json.orDefault_text, Json.orDefault_bool]
  rfl

end CompilerPart

structure ScanPart where
  fastMode : Option Bool := none
  timeoutSecs : Option UInt64 := none
  followSymlinks : Option Bool := none
  maxFileSizeMb : Option UInt64 := none

namespace ScanPart

def number (w : UInt64) : Json := .ofNat w.toNat

theorem orDefault_number (default : UInt64) (given : Option UInt64) :
    Json.orDefault ScanConfig.wordOfJson? default (given.map number) =
      some (given.getD default) :=
  Json.orDefault_map _ number ScanConfig.wordOfJson?_ofNat default given

def fields (p : ScanPart) : List (String × Option Json) :=
  [("fast_mode", p.fastMode.map .bool), ("timeout_secs", p.timeoutSecs.map number),
    ("follow_symlinks", p.followSymlinks.map .bool),
    ("max_file_size_mb", p.maxFileSizeMb.map number)]

def onto (c : ScanConfig) (p : ScanPart) : ScanConfig :=
  ⟨p.fastMode.getD c.fastMode, p.timeoutSecs.getD c.timeoutSecs,
    p.followSymlinks.getD c.followSymlinks, p.maxFileSizeMb.getD c.maxFileSizeMb⟩

theorem ofJson?_of_setBy (p : ScanPart) (v : Json) (sets : Json.SetBy p.fields v) :
    ScanConfig.ofJson? v = some (onto {} p) := by
  have given : v.record? ScanConfig.fieldNames = some ⟨false, p.fields.map Prod.snd⟩ :=
    Json.record?_of_setBy sets
  rw [ScanConfig.ofJson?, given]
  simp only [fields, List.map_cons, List.map_nil, Json.orDefault_bool, orDefault_number]
  rfl

end ScanPart

structure LoggingPart where
  logLevel : Option String := none

namespace LoggingPart

def fields (p : LoggingPart) : List (String × Option Json) :=
  [("log_level", p.logLevel.map .text)]

def onto (c : LoggingConfig) (p : LoggingPart) : LoggingConfig := ⟨p.logLevel.getD c.logLevel⟩

theorem ofJson?_of_setBy (p : LoggingPart) (v : Json) (sets : Json.SetBy p.fields v) :
    LoggingConfig.ofJson? v = some (onto {} p) := by
  have given : v.record? LoggingConfig.fieldNames = some ⟨false, p.fields.map Prod.snd⟩ :=
    Json.record?_of_setBy sets
  rw [LoggingConfig.ofJson?, given]
  simp only [fields, List.map_cons, List.map_nil, Json.orDefault_text]
  rfl

end LoggingPart

structure ConfigPart where
  compiler : Option CompilerPart := none
  scan : Option ScanPart := none
  logging : Option LoggingPart := none

namespace ConfigPart

def SetBy (p : ConfigPart) (v : Json) : Prop :=
  ∃ compiler scan logging,
    Json.SetBy [("compiler", compiler), ("scan", scan), ("logging", logging)] v ∧
      Option.Rel (fun part => Json.SetBy part.fields) p.compiler compiler ∧
      Option.Rel (fun part => Json.SetBy part.fields) p.scan scan ∧
      Option.Rel (fun part => Json.SetBy part.fields) p.logging logging

def onto (c : Config) (p : ConfigPart) : Config :=
  ⟨p.compiler.elim c.compiler (CompilerPart.onto c.compiler),
    p.scan.elim c.scan (ScanPart.onto c.scan),
    p.logging.elim c.logging (LoggingPart.onto c.logging)⟩

theorem ofJson?_of_setBy {p : ConfigPart} {v : Json} (sets : p.SetBy v) :
    Config.ofJson? v = some (onto {} p) := by
  obtain ⟨compiler, scan, logging, sets, compilerSet, scanSet, loggingSet⟩ := sets
  have given : v.record? Config.fieldNames = some ⟨false, [compiler, scan, logging]⟩ :=
    Json.record?_of_setBy sets
  rw [Config.ofJson?, given]
  simp only [Json.orDefault_rel CompilerPart.ofJson?_of_setBy {} compilerSet,
    Json.orDefault_rel ScanPart.ofJson?_of_setBy {} scanSet,
    Json.orDefault_rel LoggingPart.ofJson?_of_setBy {} loggingSet]
  rfl

end ConfigPart

/-! ## What does not count, and what is refused -/

namespace Config

def part? {α : Type} (read : Json → Option α) (default : α)
    (members : List (Option String × Json)) (name : String) : Option α :=
  (Json.field? members name).bind (Json.orDefault read default)

variable {α : Type} {read : Json → Option α} {members before after : List (Option String × Json)}
  {name key : String} {v w : Json}

/-- Values that are read alike can stand for each other. -/
theorem part?_replace (alike : key = name → read v = read w) (default : α)
    (before after : List (Option String × Json)) :
    part? read default (before ++ (some key, v) :: after) name =
      part? read default (before ++ (some key, w) :: after) name := by
  rw [part?, part?, Json.field?, Json.field?, List.filter_append, List.filter_append]
  by_cases here : key = name
  · subst here
    rw [List.filter_cons_of_pos (by simp), List.filter_cons_of_pos (by simp)]
    generalize before.filter (·.1 == some key) = first
    generalize after.filter (·.1 == some key) = last
    cases first with
    | nil =>
        cases last with
        | nil => exact alike rfl
        | cons => rfl
    | cons m others => cases others <;> rfl
  · rw [List.filter_cons_of_neg (by simpa using here),
      List.filter_cons_of_neg (by simpa using here)]

/-- A section whose value is not read spoils the whole, also if the key stands more than once. -/
theorem part?_of_mem (member : (some name, v) ∈ members) (unread : read v = none)
    (default : α) : part? read default members name = none := by
  have found : (some name, v) ∈ members.filter (·.1 == some name) :=
    List.mem_filter.mpr ⟨member, by simp⟩
  rw [part?, Json.field?]
  generalize members.filter (·.1 == some name) = all at found
  cases all with
  | nil => contradiction
  | cons m others =>
      cases others with
      | nil =>
          obtain rfl := List.mem_singleton.mp found
          exact unread
      | cons => rfl

theorem ofJson?_obj (members : List (Option String × Json)) :
    ofJson? (.obj members) = if members.all (·.1.isSome) then do
        let compiler ← part? CompilerConfig.ofJson? {} members "compiler"
        let scan ← part? ScanConfig.ofJson? {} members "scan"
        let logging ← part? LoggingConfig.ofJson? {} members "logging"
        pure ⟨compiler, scan, logging⟩
      else none := by
  rw [ofJson?, Json.record?]
  by_cases texts : members.all (·.1.isSome)
  · rw [if_pos texts, if_pos texts]
    simp only [fieldNames, part?, List.mapM_cons, List.mapM_nil]
    cases Json.field? members "compiler" with
    | none => rfl
    | some compiler =>
        cases Json.field? members "scan" with
        | none => simp
        | some scan =>
            cases Json.field? members "logging" with
            | none => simp
            | some logging => rfl
  · rw [if_neg texts, if_neg texts]

def sections : List (String × List String) :=
  [("compiler", CompilerConfig.fieldNames), ("scan", ScanConfig.fieldNames),
    ("logging", LoggingConfig.fieldNames)]

/-- One change of the order of keys, or one key more that is not known, in the object or in one of
its sections. -/
inductive Rearranged : Json → Json → Prop
  | outside {before after : List (Option String × Json)}
      (step : Json.Rearranges fieldNames before after) : Rearranged (.obj before) (.obj after)
  | inside {name : String} {names : List String} (known : (name, names) ∈ sections)
      {ms ns : List (Option String × Json)} (step : Json.Rearranges names ms ns)
      (before after : List (Option String × Json)) :
      Rearranged (.obj (before ++ (some name, .obj ms) :: after))
        (.obj (before ++ (some name, .obj ns) :: after))

/-- A key is no text or a known key stands more than once, in the object or in one of its
sections. -/
def Unfit (v : Json) : Prop :=
  ∃ members, v = .obj members ∧ (Json.Unfit fieldNames members ∨
    ∃ known ∈ sections, ∃ ms, (some known.1, .obj ms) ∈ members ∧ Json.Unfit known.2 ms)

theorem reads_alike {names : List String} (known : (name, names) ∈ sections)
    (record : v.record? names = w.record? names) :
    (name = "compiler" → CompilerConfig.ofJson? v = CompilerConfig.ofJson? w) ∧
      (name = "scan" → ScanConfig.ofJson? v = ScanConfig.ofJson? w) ∧
      (name = "logging" → LoggingConfig.ofJson? v = LoggingConfig.ofJson? w) := by
  refine ⟨?_, ?_, ?_⟩
  · rintro rfl
    obtain rfl : names = CompilerConfig.fieldNames := by simpa [sections] using known
    rw [CompilerConfig.ofJson?, CompilerConfig.ofJson?, record]
  · rintro rfl
    obtain rfl : names = ScanConfig.fieldNames := by simpa [sections] using known
    rw [ScanConfig.ofJson?, ScanConfig.ofJson?, record]
  · rintro rfl
    obtain rfl : names = LoggingConfig.fieldNames := by simpa [sections] using known
    rw [LoggingConfig.ofJson?, LoggingConfig.ofJson?, record]

theorem ofJson?_rearranged (step : Rearranged v w) : ofJson? v = ofJson? w := by
  cases step with
  | outside step => rw [ofJson?, ofJson?, step.record?]
  | @inside name names known ms ns step before after =>
      have texts : (before ++ (some name, Json.obj ms) :: after).all (·.1.isSome) =
          (before ++ (some name, Json.obj ns) :: after).all (·.1.isSome) := by
        rw [List.all_append, List.all_append]
        rfl
      obtain ⟨compiler, scan, logging⟩ := reads_alike known step.record?
      rw [ofJson?_obj, ofJson?_obj, texts, part?_replace compiler, part?_replace scan,
        part?_replace logging]

theorem ofJson?_of_unfit (unfit : Unfit v) : ofJson? v = none := by
  obtain ⟨members, rfl, unfit | ⟨⟨name, names⟩, known, ms, member, unfit⟩⟩ := unfit
  · rw [ofJson?, Json.record?_of_unfit unfit]
  · -- The section is read like a value that is no record at all.
    obtain ⟨compiler, scan, logging⟩ :=
      reads_alike known (w := .null) (Json.record?_of_unfit unfit)
    have among : name = "compiler" ∨ name = "scan" ∨ name = "logging" := by
      simp only [sections, List.mem_cons, List.not_mem_nil, or_false, Prod.mk.injEq] at known
      exact known.imp And.left (Or.imp And.left And.left)
    rw [ofJson?_obj]
    rcases among with rfl | rfl | rfl
    · rw [part?_of_mem member (compiler rfl)]
      exact ite_self _
    · rw [part?_of_mem member (scan rfl)]
      cases part? CompilerConfig.ofJson? {} members "compiler" <;> exact ite_self _
    · rw [part?_of_mem member (logging rfl)]
      cases part? CompilerConfig.ofJson? {} members "compiler" with
      | none => exact ite_self _
      | some compiler =>
          cases part? ScanConfig.ofJson? {} members "scan" <;> exact ite_self _

theorem ofJson?_eqvGen (steps : Relation.EqvGen Rearranged v w) : ofJson? v = ofJson? w := by
  induction steps with
  | rel v w step => exact ofJson?_rearranged step
  | refl v => rfl
  | symm v w _ ih => exact ih.symm
  | trans u v w _ _ first second => exact first.trans second

/-! ## Loading -/

variable {files : FileTree} {path : Path} {text : String}

/-- What is loaded is what the value of the file's text means. -/
theorem load_of_ofText? (holds : files.readFile path = .ok (Utf8.encode text))
    (denotes : Json.ofText? text = some v) :
    load files path =
      (ofJson? v).elim (.error (.configLoad "Failed to parse config file: ")) .ok := by
  rw [load_eq holds, ofText?, denotes, Option.bind_some]

/-- What is loaded from a file whose text denotes a value. -/
structure Overlays (files : FileTree) (path : Path) (v : Json) : Prop where
  given : ∀ p : ConfigPart, p.SetBy v → load files path = .ok (p.onto {})
  alike : ∀ (others : FileTree) (place : Path) (other : String) (w : Json),
    others.readFile place = .ok (Utf8.encode other) → Json.ofText? other = some w →
      Relation.EqvGen Rearranged v w → load others place = load files path
  refused : Unfit v → load files path = .error (.configLoad "Failed to parse config file: ")

/-- A file that gives a part of the configuration is loaded as the defaults with that part in their
place, changes that do not count do not change what is loaded, and an unfit object is refused. A value
that can be written has a text that such a file can hold. -/
theorem load_overlay (v : Json) :
    (v.Writable → Json.ofText? v.toText = some v) ∧
      ∀ (files : FileTree) (path : Path) (text : String),
        files.readFile path = .ok (Utf8.encode text) → Json.ofText? text = some v →
          Overlays files path v := by
  refine ⟨Json.ofText?_toText, fun files path text holds denotes => ?_⟩
  have loads := load_of_ofText? holds denotes
  constructor
  case given =>
    intro p sets
    rw [loads, ConfigPart.ofJson?_of_setBy sets]
    rfl
  case alike =>
    intro others place other w holdsOther denotesOther steps
    rw [loads, load_of_ofText? holdsOther denotesOther, ofJson?_eqvGen steps]
  case refused =>
    intro unfit
    rw [loads, ofJson?_of_unfit unfit]
    rfl

section Example

def soleFile (text : String) : FileTree := ⟨[([Utf8.encode "c"], .file (Utf8.encode text))], []⟩

theorem readFile_soleFile (text : String) :
    (soleFile text).readFile (.ofText "c") = .ok (Utf8.encode text) :=
  FileTree.readFile_eq_ok_iff.mpr
    (FileTree.openObject_of_entry rfl rfl rfl ⟨by decide, by decide, by decide, by decide⟩ rfl rfl)

/-- A key that is not known stands before the sections, and another one between two fields. -/
def mixedText : String :=
  "\x7b\"x\":[\x7b\"scan\":1\x7d],\"logging\":\x7b\x7d," ++
    "\"scan\":\x7b\"max_file_size_mb\":7,\"y\":null,\"fast_mode\":true\x7d\x7d"

def plainText : String :=
  "\x7b\"logging\":\x7b\x7d,\"scan\":\x7b\"max_file_size_mb\":7,\"fast_mode\":true\x7d\x7d"

def bothSections (scan : List (Option String × Json)) : List (Option String × Json) :=
  [(some "logging", .obj []), (some "scan", .obj scan)]

def plainScan : List (Option String × Json) :=
  [(some "max_file_size_mb", .int 7), (some "fast_mode", .bool true)]

def mixedScan : List (Option String × Json) :=
  [(some "max_file_size_mb", .int 7), (some "y", .null), (some "fast_mode", .bool true)]

def mixedMembers : List (Option String × Json) :=
  (some "x", .arr [.obj [(some "scan", .int 1)]]) :: bothSections mixedScan

def mixedPart : ConfigPart where
  scan := some ⟨some true, none, none, some 7⟩
  logging := some {}

theorem ofText?_mixedText : Json.ofText? mixedText = some (.obj mixedMembers) := by
  rfl

theorem ofText?_plainText : Json.ofText? plainText = some (.obj (bothSections plainScan)) := by
  rfl

theorem setBy_mixedMembers : mixedPart.SetBy (.obj mixedMembers) := by
  refine ⟨none, some (.obj mixedScan), some (.obj []), ⟨mixedMembers, rfl, ?_, ?_⟩, .none,
    .some ⟨mixedScan, rfl, ?_, ?_⟩, .some ⟨[], rfl, ?_, ?_⟩⟩
  · simp [mixedMembers, bothSections]
  · simp [mixedMembers, bothSections]
  · simp [mixedScan]
  · simp [mixedScan, ScanPart.fields, ScanPart.number, Json.ofNat]
  · simp
  · simp [LoggingPart.fields]

theorem rearranged_scan {scan other : List (Option String × Json)}
    (step : Json.Rearranges ScanConfig.fieldNames scan other) :
    Relation.EqvGen Rearranged (.obj (bothSections scan)) (.obj (bothSections other)) :=
  .rel _ _ (.inside (by simp [sections]) step [(some "logging", .obj [])] [])

theorem rearranged_mixedMembers :
    Relation.EqvGen Rearranged (.obj mixedMembers) (.obj (bothSections plainScan)) := by
  have outside : Rearranged (.obj (bothSections mixedScan)) (.obj mixedMembers) :=
    .outside (.unknown (by decide) _ _)
  have unknown : "y" ∉ ScanConfig.fieldNames := by decide
  have inFront := rearranged_scan (.unknown unknown .null plainScan)
  have moved := rearranged_scan (.order (.swap (some "max_file_size_mb", .int 7) (some "y", .null)
    [(some "fast_mode", .bool true)]))
  exact .trans _ _ _ (.symm _ _ (.rel _ _ outside)) (.symm _ _ (.trans _ _ _ inFront moved))

def doubledText : String :=
  "\x7b\"logging\":\x7b\"log_level\":\"warn\",\"log_level\":\"warn\"\x7d\x7d"

def doubledSection : List (Option String × Json) :=
  [(some "log_level", .text "warn"), (some "log_level", .text "warn")]

theorem ofText?_doubledText :
    Json.ofText? doubledText = some (.obj [(some "logging", .obj doubledSection)]) := by
  rfl

theorem unfit_doubledSection : Unfit (.obj [(some "logging", .obj doubledSection)]) :=
  ⟨_, rfl, .inr ⟨("logging", LoggingConfig.fieldNames), by simp [sections], doubledSection,
    List.mem_singleton_self _, .inr ⟨"log_level", by decide, by decide⟩⟩⟩

theorem load_overlay_of_mixed_keys :
    load (soleFile mixedText) (.ofText "c") =
        .ok ⟨{}, { fastMode := true, maxFileSizeMb := 7 }, {}⟩ ∧
      load (soleFile plainText) (.ofText "c") = load (soleFile mixedText) (.ofText "c") ∧
      load (soleFile doubledText) (.ofText "c") =
        .error (.configLoad "Failed to parse config file: ") := by
  have mixed := (load_overlay _).2 _ _ _ (readFile_soleFile mixedText) ofText?_mixedText
  have doubled := (load_overlay _).2 _ _ _ (readFile_soleFile doubledText) ofText?_doubledText
  exact ⟨mixed.given mixedPart setBy_mixedMembers,
    mixed.alike _ _ _ _ (readFile_soleFile plainText) ofText?_plainText rearranged_mixedMembers,
    doubled.refused unfit_doubledSection⟩

def halfText : String := "\x7b\"scan\":\x7b\"\\udc00\":1\x7d\x7d"

/-- Half of a surrogate pair is no text. A section with nothing but such a key gives no field, but the
key does not go unnoticed. -/
theorem load_of_a_key_without_text :
    Json.ofText? halfText = some (.obj [(some "scan", .obj [(none, .int 1)])]) ∧
      load (soleFile halfText) (.ofText "c") ≠ .ok (ConfigPart.onto {} { scan := some {} }) := by
  have denotes : Json.ofText? halfText = some (.obj [(some "scan", .obj [(none, .int 1)])]) := by
    rfl
  have unfit : Unfit (.obj [(some "scan", .obj [(none, .int 1)])]) :=
    ⟨_, rfl, .inr ⟨("scan", ScanConfig.fieldNames), by simp [sections], _,
      List.mem_singleton_self _, .inl ⟨_, List.mem_singleton_self _, rfl⟩⟩⟩
  refine ⟨denotes, ?_⟩
  rw [load_of_ofText? (readFile_soleFile halfText) denotes, ofJson?_of_unfit unfit]
  intro loaded
  contradiction

end Example

end Config

end Needle
