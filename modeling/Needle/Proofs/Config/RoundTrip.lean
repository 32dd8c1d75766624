import Needle.Config.Store
import Needle.Proofs.File.Write
import Needle.Proofs.Json.Pretty
import Needle.Proofs.Pattern.Artifact

/-!
# Saved configurations are read back

The written form of a configuration holds every field of every section, so reading it fills in no
default, and the numbers have the whole range of their words. A path that a configuration was saved
to therefore gives that configuration, whatever was there before.
-/
set_option autoImplicit false

namespace Needle

theorem CompilerConfig.writable_toJson (c : CompilerConfig) : c.toJson.Writable := by
  refine Json.writable_record _ fun f member => ?_
  simp only [List.mem_cons, List.not_mem_nil, or_false] at member
  rcases member with rfl | rfl
  · exact .text _
  · exact .bool _

theorem CompilerConfig.ofJson?_toJson (c : CompilerConfig) : ofJson? c.toJson = some c := by
  have fields : c.toJson.record? fieldNames =
      some ⟨false, [some (.text c.defaultNamespace), some (.bool c.failOnWarnings)]⟩ :=
    Json.record?_record _ fieldNames rfl (by decide)
  rw [ofJson?, fields]
  rfl

namespace ScanConfig

theorem writable_toJson (c : ScanConfig) : c.toJson.Writable := by
  refine Json.writable_record _ fun f member => ?_
  simp only [List.mem_cons, List.not_mem_nil, or_false] at member
  rcases member with rfl | rfl | rfl | rfl
  · exact .bool _
  · exact .int _
  · exact .bool _
  · exact .int _

theorem wordOfJson?_ofNat (w : UInt64) : wordOfJson? (.ofNat w.toNat) = some w := by
  have small : w.toNat < wordSize := w.toNat_lt
  simp [wordOfJson?, Json.ofNat, Json.asNat?, small]

theorem ofJson?_toJson (c : ScanConfig) : ofJson? c.toJson = some c := by
  have fields : c.toJson.record? fieldNames =
      some ⟨false, [some (.bool c.fastMode), some (.ofNat c.timeoutSecs.toNat),
        some (.bool c.followSymlinks), some (.ofNat c.maxFileSizeMb.toNat)]⟩ :=
    Json.record?_record _ fieldNames rfl (by decide)
  rw [ofJson?, fields]
  simp only [Json.orDefault, Json.asBool?, wordOfJson?_ofNat]
  rfl

end ScanConfig

theorem LoggingConfig.writable_toJson (c : LoggingConfig) : c.toJson.Writable := by
  refine Json.writable_record _ fun f member => ?_
  obtain rfl := List.mem_singleton.mp member
  exact .text _

theorem LoggingConfig.ofJson?_toJson (c : LoggingConfig) : ofJson? c.toJson = some c := by
  have fields : c.toJson.record? fieldNames = some ⟨false, [some (.text c.logLevel)]⟩ :=
    Json.record?_record _ fieldNames rfl (by decide)
  rw [ofJson?, fields]
  rfl

namespace Config

theorem writable_toJson (c : Config) : c.toJson.Writable := by
  refine Json.writable_record _ fun f member => ?_
  simp only [List.mem_cons, List.not_mem_nil, or_false] at member
  rcases member with rfl | rfl | rfl
  · exact c.compiler.writable_toJson
  · exact c.scan.writable_toJson
  · exact c.logging.writable_toJson

theorem ofJson?_toJson (c : Config) : ofJson? c.toJson = some c := by
  have fields : c.toJson.record? fieldNames =
      some ⟨false, [some c.compiler.toJson, some c.scan.toJson, some c.logging.toJson]⟩ :=
    Json.record?_record _ fieldNames rfl (by decide)
  rw [ofJson?, fields]
  simp only [Json.orDefault, CompilerConfig.ofJson?_toJson, ScanConfig.ofJson?_toJson,
    LoggingConfig.ofJson?_toJson]
  rfl

theorem ofText?_toText (c : Config) : ofText? c.toText = some c := by
  rw [ofText?, toText, Json.ofText?_pretty c.writable_toJson, Option.bind_some, ofJson?_toJson]

variable {files made after : FileTree} {path : Path}

theorem load_eq {text : String} (holds : files.readFile path = .ok (Utf8.encode text)) :
    load files path =
      (ofText? text).elim (.error (.configLoad "Failed to parse config file: ")) .ok := by
  have reads : files.readText path = .ok text := by
    unfold FileTree.readText
    rw [holds]
    simp only [bind, Except.bind, FileTree.textOf, Utf8.decode?_encode]
  rw [load, reads]
  cases meant : ofText? text <;> simp only [meant] <;> rfl

theorem load_of_readFile {text : String} (holds : files.readFile path = .ok (Utf8.encode text))
    {c : Config} (means : ofText? text = some c) : load files path = .ok c := by
  rw [load_eq holds, means]
  rfl

theorem save_writable (c : Config) (parents : makeParent files path = (made, .ok ()))
    (writable : ∃ written, made.writeFile path [] = .ok written) :
    ∃ after, c.save files path = (.ok (), after) ∧ load after path = .ok c := by
  obtain ⟨_, writable⟩ := writable
  obtain ⟨after, wrote⟩ := FileTree.writeFile_any writable (Utf8.encode c.toText)
  have holds := FileTree.readFile_written wrote
  refine ⟨after, ?_, load_of_readFile holds (ofText?_toText c)⟩
  unfold save
  rw [parents]
  simp only [wrote]

/-- What is missing above a path can be made, and then a file can be written there. -/
def Savable (files : FileTree) (path : Path) : Prop :=
  ∃ made, makeParent files path = (made, .ok ()) ∧
    ∃ written, made.writeFile path [] = .ok written

/-- Nothing else keeps a configuration from being saved. -/
theorem save_eq_ok_iff (c : Config) : (c.save files path).1 = .ok () ↔ Savable files path := by
  constructor
  · intro saved
    unfold save at saved
    split at saved
    · contradiction
    case h_2 made parents =>
      split at saved
      · contradiction
      case h_2 wrote => exact ⟨made, parents, FileTree.writeFile_any wrote []⟩
  · rintro ⟨made, parents, writable⟩
    obtain ⟨after, saved, _⟩ := c.save_writable parents writable
    rw [saved]

/-- The text of a configuration is written to its end. -/
theorem whole_toText (c : Config) : (Json.written (c.toJson.pretty 0)).2 = true := by
  have reached (symbols : List Symbol) :
      (Json.written symbols).2 = symbols.all Option.isSome := rfl
  rw [reached]
  exact Json.all_isSome_pretty c.writable_toJson 0

/-- A configuration that has been saved is loaded from the same path, whatever was there before. Its
text is whole, so saving it can fail for the files alone. -/
theorem load_of_savable (c : Config) (files : FileTree) (path : Path) :
    (Json.written (c.toJson.pretty 0)).2 = true ∧
      ((c.save files path).1 = .ok () ↔ Savable files path) ∧
      (Savable files path → load (c.save files path).2 path = .ok c) := by
  refine ⟨c.whole_toText, save_eq_ok_iff c, ?_⟩
  rintro ⟨made, parents, writable⟩
  obtain ⟨after, saved, loads⟩ := c.save_writable parents writable
  rw [saved]
  exact loads

/-- A configuration at the ends of its ranges: control characters with and without escapes of their
own, a character beyond 16 bits, the greatest numbers and an empty text. -/
def extreme : Config where
  compiler := ⟨"\x00\x1f\"\\/\n\r\t\x08\x0c\x7f\u2028😀", true⟩
  scan := ⟨true, 18446744073709551615, true, 0⟩
  logging := ⟨""⟩

def newPlace : Path := .ofText "new/config.json"

theorem savable_newPlace : Savable ⟨[], []⟩ newPlace := by
  let dir := Utf8.encode "new"
  let made : FileTree := ⟨[([dir], .directory)], []⟩
  have created : FileTree.makeDirectory ⟨[], []⟩ (.ofText "new") = .ok made := by
    have located : FileTree.locate ⟨[], []⟩ .itself (.ofText "new") [dir] = .ok (.free [dir]) :=
      FileTree.locate_free rfl rfl rfl ⟨by decide, by decide, by decide, by decide⟩ rfl
    have names : (Path.ofText "new").names = [dir] := rfl
    rw [FileTree.makeDirectory, FileTree.create, names, located]
    rfl
  have parents : makeParent ⟨[], []⟩ newPlace = (made, .ok ()) := by
    have above : newPlace.parent? = some (.ofText "new") := rfl
    have named : (Path.ofText "new").bytes.isEmpty = false := rfl
    rw [makeParent, above]
    change FileTree.makePath _ _ = _
    rw [FileTree.makePath, FileTree.makeDirectories, named, if_neg Bool.false_ne_true,
      FileTree.makeChain, created]
    rfl
  have leads : made.locate .writing newPlace (FileTree.steps newPlace) =
      .ok (.free [dir, Utf8.encode "config.json"]) := by
    refine FileTree.locate_eq_ok_iff.mpr ⟨rfl, ?_⟩
    refine .down ⟨by decide, by decide, by decide, by decide⟩ rfl ?_
    exact .free ⟨by decide, by decide, by decide, by decide⟩ rfl
  have target := FileTree.writeTarget_eq_ok_iff.mpr ⟨_, leads, .free⟩
  have writes : made.writeFile newPlace [] = .ok (made.put _ (.file [])) :=
    FileTree.writeFile_eq_ok_iff.mpr ⟨rfl, FileTree.write_eq_ok_iff.mpr ⟨_, target, rfl⟩⟩
  exact ⟨made, parents, _, writes⟩

theorem load_of_savable_extreme :
    Savable ⟨[], []⟩ newPlace ∧
      load (extreme.save ⟨[], []⟩ newPlace).2 newPlace = .ok extreme :=
  ⟨savable_newPlace, (load_of_savable extreme ⟨[], []⟩ newPlace).2.2 savable_newPlace⟩

end Config

end Needle
