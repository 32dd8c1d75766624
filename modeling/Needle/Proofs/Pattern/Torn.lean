import Needle.Proofs.Json.Extent
import Needle.Proofs.Pattern.Shape

/-!
# What is read as a saved rule set

The bytes that are loaded are those that hold an artifact of this format and version; any others
are refused, each with one status. What has been saved and then cut short, or has been written on
after, holds no artifact.
-/
set_option autoImplicit false

namespace Needle

namespace Json

theorem encode_obj {fields : List (Option String × Json)} (writable : (Json.obj fields).Writable) :
    ∃ front, Utf8.encode (Json.obj fields).toText = front ++ [0x7D] := by
  have spelled := map_some_toText writable
  rw [compact, ← List.cons_append] at spelled
  obtain ⟨front, last, split, _, closed⟩ := List.map_eq_append_iff.mp spelled
  obtain ⟨c, rfl, bracket⟩ := List.map_eq_singleton_iff.mp closed
  obtain rfl := Option.some.inj bracket
  refine ⟨front.flatMap String.utf8EncodeChar, ?_⟩
  rw [Utf8.encode, split, List.flatMap_append]
  rfl

end Json

namespace Pattern

/-- The bytes are the text of a value that has the shape of an artifact, and nothing besides. -/
def Holds (content : Bytes) (a : Artifact) : Prop :=
  ∃ v : Json, Json.tokens? (Utf8.symbols content) = some v.tokens ∧ a.Shape v

def Stores (content : Bytes) (patterns : List Pattern) : Prop :=
  Holds content ⟨formatName, formatVersion, patterns⟩

/-- Why bytes are refused: they hold no artifact, one of another format, or one of this format and
another version. -/
inductive Refused (content : Bytes) : Code → Prop
  | shape (none : ∀ a, ¬Holds content a) : Refused content Code.corruptFile
  | format {a : Artifact} (holds : Holds content a) (other : a.format ≠ formatName) :
      Refused content Code.invalidFile
  | version {a : Artifact} (holds : Holds content a) (format : a.format = formatName)
      (other : a.version ≠ formatVersion) : Refused content Code.unsupportedVersion

/-- What is left of saved bytes, or was made of them: cut short, or with more than blanks after
them. -/
inductive Torn (whole : Bytes) : Bytes → Prop
  | cut {part rest : Bytes} (more : rest ≠ []) (split : part ++ rest = whole) : Torn whole part
  | trailed {extra : Bytes} (text : ∃ b ∈ extra, ¬Json.Blank b) : Torn whole (whole ++ extra)

variable {content whole extra : Bytes} {a : Artifact} {code : Code} {patterns : List Pattern}

theorem holds_iff : (Json.ofBytes? content).bind Artifact.ofJson? = some a ↔ Holds content a := by
  simp only [Option.bind_eq_some_iff, Json.ofBytes?_eq_some_iff, Artifact.ofJson?_eq_some_iff]
  exact Iff.rfl

theorem not_holds_iff :
    (Json.ofBytes? content).bind Artifact.ofJson? = none ↔ ∀ a, ¬Holds content a := by
  simp only [← holds_iff, Option.eq_none_iff_forall_ne_some]

theorem load_of_holds (holds : Holds content a) :
    load content =
      if a.format ≠ formatName then .error Code.invalidFile
      else if a.version ≠ formatVersion then .error Code.unsupportedVersion
      else .ok a.patterns := by
  rw [load, holds_iff.mpr holds]

theorem refused_or_stores (content : Bytes) :
    (∃ code, Refused content code) ∨ ∃ patterns, Stores content patterns := by
  by_cases none : ∀ a, ¬Holds content a
  · exact .inl ⟨_, .shape none⟩
  obtain ⟨⟨format, version, patterns⟩, holds⟩ : ∃ a, Holds content a := by simpa using none
  by_cases sameFormat : format = formatName
  · subst sameFormat
    by_cases sameVersion : version = formatVersion
    · subst sameVersion
      exact .inr ⟨patterns, holds⟩
    · exact .inl ⟨_, .version holds rfl sameVersion⟩
  · exact .inl ⟨_, .format holds sameFormat⟩

theorem load_of_refused (refused : Refused content code) : load content = .error code := by
  cases refused with
  | shape none => rw [load, not_holds_iff.mpr none]
  | format holds other => rw [load_of_holds holds, if_pos other]
  | version holds format other =>
      rw [load_of_holds holds, if_neg (not_not.mpr format), if_pos other]

theorem load_of_stores (stores : Stores content patterns) : load content = .ok patterns := by
  rw [load_of_holds stores, if_neg (not_not.mpr rfl), if_neg (not_not.mpr rfl)]

theorem load_eq_error_iff : load content = .error code ↔ Refused content code := by
  refine ⟨fun failed => ?_, load_of_refused⟩
  rcases refused_or_stores content with ⟨other, refused⟩ | ⟨found, stores⟩
  · cases failed.symm.trans (load_of_refused refused)
    exact refused
  · cases failed.symm.trans (load_of_stores stores)

theorem load_eq_ok_iff : load content = .ok patterns ↔ Stores content patterns := by
  refine ⟨fun loaded => ?_, load_of_stores⟩
  rcases refused_or_stores content with ⟨code, refused⟩ | ⟨found, stores⟩
  · cases loaded.symm.trans (load_of_refused refused)
  · cases loaded.symm.trans (load_of_stores stores)
    exact stores

/-! ## Torn bytes -/

theorem Artifact.Shape.not_isNumber {v : Json} (shape : a.Shape v) : ¬v.IsNumber := by
  obtain ⟨items, gives, _⟩ := shape.gives
  cases gives <;> exact id

/-- What has been written after an artifact has to be blank. -/
theorem refused_of_trailing (holds : Holds whole a) (text : ∃ b ∈ extra, ¬Json.Blank b) :
    Refused (whole ++ extra) Code.corruptFile := by
  obtain ⟨v, spelled, shape⟩ := holds
  obtain ⟨b, member, visible⟩ := text
  refine .shape fun other ⟨w, longer, _⟩ => visible ?_
  have all := Json.ofBytes?_append (Json.ofBytes?_eq_some_iff.mpr spelled)
    (Json.ofBytes?_eq_some_iff.mpr longer) (.inl shape.not_isNumber)
  exact all.2 b member

theorem stores_save (patterns : List Pattern) : Stores (save patterns) patterns :=
  load_eq_ok_iff.mp (load_save patterns)

/-- What saved bytes have been cut off from is no artifact: it would be the whole one, and end with
the bracket that is missing. -/
theorem refused_of_cut {part rest : Bytes} (more : rest ≠ [])
    (split : part ++ rest = save patterns) : Refused part Code.corruptFile := by
  refine .shape fun a ⟨v, spelled, shape⟩ => ?_
  obtain ⟨w, whole, _⟩ := stores_save patterns
  rw [← split] at whole
  have blank := (Json.ofBytes?_append (Json.ofBytes?_eq_some_iff.mpr spelled)
    (Json.ofBytes?_eq_some_iff.mpr whole) (.inl shape.not_isNumber)).2
  obtain ⟨front, ends⟩ :=
    Json.encode_obj (Artifact.writable_toJson ⟨formatName, formatVersion, patterns⟩)
  -- The rest is blank, and yet its last byte is the bracket.
  have last : rest.getLast more = 0x7D := by
    have closed : (part ++ rest).getLast? = some 0x7D := by
      rw [split, save, Artifact.toJson, Json.record, ends, List.getLast?_concat]
    rw [List.getLast?_append_of_ne_nil _ more, List.getLast?_eq_some_getLast more] at closed
    exact Option.some.inj closed
  have bracket : Json.Blank 0x7D := last ▸ blank _ (List.getLast_mem more)
  revert bracket
  unfold Json.Blank
  decide

theorem Torn.refused (torn : Torn (save patterns) content) : Refused content Code.corruptFile := by
  cases torn with
  | cut more split => exact refused_of_cut more split
  | trailed text => exact refused_of_trailing (stores_save patterns) text

end Pattern

end Needle
