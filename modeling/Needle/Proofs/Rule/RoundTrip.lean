import Needle.Diagnostic
import Needle.Proofs.Pattern.Artifact

/-!
# Records are read back from their text

Rules and diagnostics are told as JSON, in one line. The reader of each finds in this text the
record that was written: a metadata value keeps its kind, whatever a text among them looks like, and
pairs with one key stay apart.
-/
set_option autoImplicit false

namespace Needle

namespace Json

section Restores

variable {α : Type} (write : α → Json) (read : Json → Option α) (a : α)

/-- The compact text of a record, which is written to its end, is read as the record, from the text
and from its bytes. What is read from it is written as the same text. -/
structure Restores : Prop where
  whole : (written (write a).compact).2 = true
  text : (ofText? (write a).toText).bind read = some a
  bytes : (ofBytes? (Utf8.encode (write a).toText)).bind read = some a
  again : ∀ b, (ofText? (write a).toText).bind read = some b → (write b).toText = (write a).toText

variable {write read a}

theorem restores_of_writable (writable : (write a).Writable) (back : read (write a) = some a) :
    Restores write read a := by
  have text : (ofText? (write a).toText).bind read = some a := by
    rw [ofText?_toText writable, Option.bind_some, back]
  have bytes : (ofBytes? (Utf8.encode (write a).toText)).bind read = some a := by
    rw [ofBytes?_encode_toText writable, Option.bind_some, back]
  refine ⟨all_isSome_compact writable, text, bytes, ?_⟩
  intro b found
  rw [Option.some.inj (text.symm.trans found)]

end Restores

end Json

namespace Rule

theorem writable_toJson (r : Rule) : r.toJson.Writable := by
  have tags := Json.writable_list r.tags fun tag _ => Json.Writable.text tag
  have metadata := Json.writable_list r.metadata fun pair _ => writable_pairToJson pair
  refine Json.writable_record _ fun f member => ?_
  simp only [List.mem_cons, List.not_mem_nil, or_false] at member
  rcases member with rfl | rfl | rfl | rfl
  · exact .text _
  · exact .text _
  · exact tags
  · exact metadata

theorem fullRecord?_toJson (r : Rule) :
    r.toJson.fullRecord? fieldNames =
      some [.text r.identifier, .text r.ns, .arr (r.tags.map .text),
        .arr (r.metadata.map pairToJson)] :=
  Json.fullRecord?_record _ fieldNames rfl (by decide)

theorem ofJson?_toJson (r : Rule) : ofJson? r.toJson = some r := by
  have tags : Json.asList? Json.asText? (.arr (r.tags.map .text)) = some r.tags :=
    Json.asList?_map r.tags fun _ _ => rfl
  have metadata : Json.asList? pairOfJson? (.arr (r.metadata.map pairToJson)) =
      some r.metadata :=
    Json.asList?_map r.metadata fun pair _ => pairOfJson?_pairToJson pair
  rw [ofJson?, fullRecord?_toJson]
  simp only [Json.asText?, tags, metadata]
  rfl

end Rule

namespace Severity

theorem ofJson?_label (s : Severity) : ofJson? (.text s.label) = some s := by
  cases s <;> rfl

end Severity

namespace Diagnostic

theorem writable_toJson (d : Diagnostic) : d.toJson.Writable := by
  refine Json.writable_record _ fun f member => ?_
  simp only [List.mem_cons, List.not_mem_nil, or_false] at member
  rcases member with rfl | rfl | rfl | rfl
  · exact .text _
  · cases d.file with
    | some file => exact .text file
    | none => exact .null
  · exact .int _
  · exact .text _

theorem ofJson?_toJson (d : Diagnostic) : ofJson? d.toJson = some d := by
  obtain ⟨severity, file, line, message⟩ := d
  have number : (Json.ofNat line.toNat).asNat? 4294967296 = some line.toNat := by
    have small : line.toNat < 4294967296 := line.toNat_lt
    simp [Json.ofNat, Json.asNat?, small]
  have fields : ∀ place, Json.record? fieldNames (.record [("level", .text severity.label),
      ("file", place), ("line", .ofNat line.toNat), ("message", .text message)]) =
      some ⟨false, [some (.text severity.label), some place, some (.ofNat line.toNat),
        some (.text message)]⟩ :=
    fun place => Json.record?_record _ fieldNames rfl (by decide)
  cases file with
  | none =>
      simp [ofJson?, toJson, fields, Severity.ofJson?_label, fileOfJson?, number, Json.asText?]
  | some file =>
      simp [ofJson?, toJson, fields, Severity.ofJson?_label, fileOfJson?, number, Json.asText?]

end Diagnostic

/-- Every rule, every diagnostic and every metadata value is restored from its text. -/
theorem records_restored :
    (∀ r : Rule, Json.Restores Rule.toJson Rule.ofJson? r) ∧
      (∀ d : Diagnostic, Json.Restores Diagnostic.toJson Diagnostic.ofJson? d) ∧
      ∀ v : MetaValue, Json.Restores MetaValue.toJson MetaValue.ofJson? v := by
  refine ⟨fun r => ?_, fun d => ?_, fun v => ?_⟩
  · exact Json.restores_of_writable r.writable_toJson r.ofJson?_toJson
  · exact Json.restores_of_writable d.writable_toJson d.ofJson?_toJson
  · exact Json.restores_of_writable v.writable_toJson v.ofJson?_toJson

example : (Json.ofText? "\"42\"").bind MetaValue.ofJson? = some (.text "42") := by
  decide

end Needle
