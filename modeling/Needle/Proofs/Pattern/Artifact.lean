import Needle.Pattern.Artifact
import Needle.Proofs.Json.Records
import Needle.Proofs.Json.RoundTrip

/-!
# Saved patterns are read back

Each part of a saved rule set (a metadata value, a pair, a pattern, the artifact as a whole) is
writable, and its reader gives it back from what its writer made of it. So the patterns that are
saved are the patterns that are loaded, whatever texts and numbers they hold.
-/
set_option autoImplicit false

namespace Needle

namespace Json

theorem writable_list {α : Type} {write : α → Json} (items : List α)
    (each : ∀ a ∈ items, (write a).Writable) : (Json.arr (items.map write)).Writable := by
  refine .arr _ fun v member => ?_
  obtain ⟨a, inItems, rfl⟩ := List.mem_map.mp member
  exact each a inItems

theorem writable_record (fields : List (String × Json)) (each : ∀ f ∈ fields, f.2.Writable) :
    (record fields).Writable := by
  refine .obj _ (fun f member => ?_) fun f member => ?_
  · obtain ⟨field, _, rfl⟩ := List.mem_map.mp member
    rfl
  · obtain ⟨field, inFields, rfl⟩ := List.mem_map.mp member
    exact each field inFields

theorem Writable.item {items : List Json} (writable : (Json.arr items).Writable) {v : Json}
    (member : v ∈ items) : v.Writable := by
  cases writable with
  | arr _ each => exact each v member

theorem Writable.field {fields : List (String × Json)} (writable : (record fields).Writable)
    {f : String × Json} (member : f ∈ fields) : f.2.Writable := by
  cases writable with
  | obj _ _ each => exact each (some f.1, f.2) (List.mem_map_of_mem member)

end Json

namespace MetaValue

theorem writable_toJson (v : MetaValue) : v.toJson.Writable := by
  cases v with
  | integer i => exact .int _
  | boolean b => exact .bool b
  | text s => exact .text s

/-- An integer stays an integer, a boolean a boolean and a text a text, also one that looks like a
numeral. -/
theorem ofJson?_toJson (v : MetaValue) : ofJson? v.toJson = some v := by
  cases v with
  | integer i =>
      have low : -2 ^ 63 ≤ i.toInt := i.le_toInt
      have high : i.toInt < 2 ^ 63 := i.toInt_lt
      have inside : -9223372036854775808 ≤ i.toInt ∧ i.toInt ≤ 9223372036854775807 := by omega
      simp only [toJson, ofJson?, Json.asInt?, if_pos inside, Option.map_some, Int64.ofInt_toInt]
  | boolean b => rfl
  | text s => rfl

end MetaValue

namespace Rule

theorem writable_pairToJson (pair : String × MetaValue) : (pairToJson pair).Writable := by
  refine .arr _ fun v member => ?_
  rcases List.mem_cons.mp member with rfl | member
  · exact .text pair.1
  · rw [List.mem_singleton.mp member]
    exact pair.2.writable_toJson

theorem pairOfJson?_pairToJson (pair : String × MetaValue) :
    pairOfJson? (pairToJson pair) = some pair := by
  have value := MetaValue.ofJson?_toJson pair.2
  simp only [pairToJson, pairOfJson?, Json.asText?, value]
  rfl

end Rule

namespace Pattern

theorem writable_toJson (p : Pattern) : p.toJson.Writable := by
  have tags := Json.writable_list p.tags fun tag _ => Json.Writable.text tag
  have metadata := Json.writable_list p.metadata fun pair _ => Rule.writable_pairToJson pair
  refine Json.writable_record _ fun f member => ?_
  simp only [List.mem_cons, List.not_mem_nil, or_false] at member
  rcases member with rfl | rfl | rfl | rfl | rfl
  · exact .text _
  · exact .text _
  · exact .text _
  · exact tags
  · exact metadata

theorem fullRecord?_toJson (p : Pattern) :
    p.toJson.fullRecord? fieldNames =
      some [.text p.ns, .text p.identifier, .text p.literal, .arr (p.tags.map .text),
        .arr (p.metadata.map Rule.pairToJson)] :=
  Json.fullRecord?_record _ fieldNames rfl (by decide)

theorem ofJson?_toJson (p : Pattern) : ofJson? p.toJson = some p := by
  have tags : Json.asList? Json.asText? (.arr (p.tags.map .text)) = some p.tags :=
    Json.asList?_map p.tags fun _ _ => rfl
  have metadata : Json.asList? Rule.pairOfJson? (.arr (p.metadata.map Rule.pairToJson)) =
      some p.metadata :=
    Json.asList?_map p.metadata fun pair _ => Rule.pairOfJson?_pairToJson pair
  rw [ofJson?, fullRecord?_toJson]
  simp only [Json.asText?, tags, metadata]
  rfl

namespace Artifact

theorem writable_toJson (a : Artifact) : a.toJson.Writable := by
  have patterns := Json.writable_list a.patterns fun p _ => Pattern.writable_toJson p
  refine Json.writable_record _ fun f member => ?_
  simp only [List.mem_cons, List.not_mem_nil, or_false] at member
  rcases member with rfl | rfl | rfl
  · exact .text _
  · exact .int _
  · exact patterns

theorem fullRecord?_toJson (a : Artifact) :
    a.toJson.fullRecord? fieldNames =
      some [.text a.format, .ofNat a.version, .arr (a.patterns.map Pattern.toJson)] :=
  Json.fullRecord?_record _ fieldNames rfl (by decide)

theorem ofJson?_toJson (a : Artifact) (small : a.version < 4294967296) :
    ofJson? a.toJson = some a := by
  have patterns : Json.asList? Pattern.ofJson? (.arr (a.patterns.map Pattern.toJson)) =
      some a.patterns :=
    Json.asList?_map a.patterns fun p _ => Pattern.ofJson?_toJson p
  have version : (Json.ofNat a.version).asNat? 4294967296 = some a.version := by
    simp [Json.ofNat, Json.asNat?, small]
  rw [ofJson?, fullRecord?_toJson]
  simp only [Json.asText?, version, patterns]
  rfl

end Artifact

/-- The patterns that are saved are loaded again, one by one and in order. -/
theorem load_save (patterns : List Pattern) : load (save patterns) = .ok patterns := by
  have artifact : (Json.ofBytes? (save patterns)).bind Artifact.ofJson? =
      some ⟨formatName, formatVersion, patterns⟩ := by
    rw [save, Json.ofBytes?_encode_toText (Artifact.writable_toJson _), Option.bind_some,
      Artifact.ofJson?_toJson _ (show formatVersion < 4294967296 by decide)]
  rw [load, artifact]
  simp

end Pattern

end Needle
