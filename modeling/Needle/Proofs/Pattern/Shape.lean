import Mathlib.Data.List.Forall2
import Needle.Proofs.Pattern.Artifact

/-!
# The shape of a saved rule set

Which values are read as a record, a pattern and an artifact, said of the values themselves. Each
reader accepts the values of its shape and gives what they hold; nothing else is accepted.
-/
set_option autoImplicit false

namespace Needle

/-! ## Lists and records -/

theorem Option.mapM_eq_some_iff {α β : Type} {f : α → Option β} {items : List α} {values : List β} :
    items.mapM f = some values ↔ List.Forall₂ (fun a b => f a = some b) items values := by
  induction items generalizing values with
  | nil =>
      rw [List.mapM_nil, List.forall₂_nil_left_iff]
      exact ⟨fun same => (Option.some.inj same).symm, fun same => same ▸ rfl⟩
  | cons a items ih =>
      rw [List.mapM_cons, List.forall₂_cons_left_iff]
      constructor
      · intro converted
        obtain ⟨b, first, converted⟩ := Option.bind_eq_some_iff.mp converted
        obtain ⟨rest, others, same⟩ := Option.bind_eq_some_iff.mp converted
        cases same
        exact ⟨b, rest, first, ih.mp others, rfl⟩
      · rintro ⟨b, rest, first, others, rfl⟩
        rw [first, ih.mpr others]
        rfl

theorem forall₂_eq_map_iff {α β : Type} {f : β → α} {items : List α} {values : List β} :
    List.Forall₂ (fun a b => a = f b) items values ↔ items = values.map f := by
  rw [← List.forall₂_eq_eq_eq, List.forall₂_map_right_iff]

namespace Json

/-- The value gives a record in full: it is an object whose keys are texts and in which each name
stands once, or an array of as many items as there are names. -/
inductive Gives (names : List String) : Json → List Json → Prop
  | fields {fields : List (Option String × Json)} {values : List Json}
      (texts : ∀ f ∈ fields, f.1.isSome)
      (each : List.Forall₂ (fun name v => fields.filter (·.1 == some name) = [(some name, v)])
        names values) : Gives names (.obj fields) values
  | items {items : List Json} (full : items.length = names.length) : Gives names (.arr items) items

theorem field?_eq_some_iff {fields : List (Option String × Json)} {name : String} {v : Json} :
    field? fields name = some (some v) ↔
      fields.filter (·.1 == some name) = [(some name, v)] := by
  have named : ∀ f ∈ fields.filter (·.1 == some name), f.1 = some name := by
    intro f member
    simpa using (List.mem_filter.mp member).2
  unfold field?
  split
  case h_1 none => simp [none]
  case h_2 key w one =>
    rw [one] at named ⊢
    obtain rfl : key = some name := named _ List.mem_cons_self
    simp
  case h_3 several =>
    refine iff_of_false nofun fun one => ?_
    exact several _ _ one

theorem mapM_field?_eq_some_iff {fields : List (Option String × Json)} {names : List String}
    {values : List Json} :
    (names.mapM (field? fields)).bind (·.mapM id) = some values ↔
      List.Forall₂ (fun name v => fields.filter (·.1 == some name) = [(some name, v)])
        names values := by
  have known : names.mapM (field? fields) = some (values.map some) ↔
      List.Forall₂ (fun name v => fields.filter (·.1 == some name) = [(some name, v)])
        names values := by
    rw [Option.mapM_eq_some_iff, List.forall₂_map_right_iff]
    simp only [field?_eq_some_iff]
  rw [← known, Option.bind_eq_some_iff]
  constructor
  · rintro ⟨found, gives, full⟩
    rw [Option.mapM_eq_some_iff] at full
    rw [gives, forall₂_eq_map_iff.mp full]
  · intro gives
    exact ⟨_, gives, mapM_id_map_some values⟩

theorem mapM_items_eq_some_iff {items values : List Json} {missing : Nat} :
    (items.map some ++ List.replicate missing none).mapM id = some values ↔
      missing = 0 ∧ items = values := by
  rw [Option.mapM_eq_some_iff]
  constructor
  · intro each
    have whole : items.map some ++ List.replicate missing none = values.map some :=
      forall₂_eq_map_iff.mp each
    have none : missing = 0 := by
      cases missing with
      | zero => rfl
      | succ more =>
          have lacks : (none : Option Json) ∈ values.map some := by
            rw [← whole]
            simp
          simp at lacks
    subst none
    rw [List.replicate_zero, List.append_nil] at whole
    exact ⟨rfl, List.map_injective_iff.mpr (fun _ _ => Option.some.inj) whole⟩
  · rintro ⟨rfl, rfl⟩
    exact Option.mapM_eq_some_iff.mp (by simpa using mapM_id_map_some items)

theorem fullRecord?_eq_some_iff {names : List String} {v : Json} {values : List Json} :
    fullRecord? names v = some values ↔ Gives names v values := by
  unfold fullRecord? record?
  cases v with
  | obj fields =>
      dsimp only
      split
      case isTrue texts =>
        rw [Option.bind_map]
        exact mapM_field?_eq_some_iff.trans
          ⟨.fields (List.all_eq_true.mp texts), fun | .fields _ each => each⟩
      case isFalse other =>
        refine iff_of_false nofun ?_
        rintro ⟨texts, _⟩
        exact other (List.all_eq_true.mpr texts)
  | arr items =>
      dsimp only
      split
      case isTrue fits =>
        rw [Option.bind_some, mapM_items_eq_some_iff]
        constructor
        · rintro ⟨none, rfl⟩
          exact .items (by omega)
        · rintro ⟨full⟩
          exact ⟨by omega, rfl⟩
      case isFalse long =>
        refine iff_of_false nofun ?_
        rintro ⟨full⟩
        omega
  | _ => exact iff_of_false nofun nofun

theorem asList?_eq_some_iff {α : Type} {item : Json → Option α} {v : Json} {values : List α} :
    asList? item v = some values ↔
      ∃ items, v = .arr items ∧ List.Forall₂ (fun w a => item w = some a) items values := by
  cases v with
  | arr items =>
      rw [asList?, Option.mapM_eq_some_iff]
      constructor
      · intro each
        exact ⟨items, rfl, each⟩
      · rintro ⟨_, ⟨⟩, each⟩
        exact each
  | _ => simp [asList?]

/-- A list of values that are read as what they are written from. -/
theorem asList?_eq_map_iff {α : Type} {item : Json → Option α} {write : α → Json}
    (each : ∀ w a, item w = some a ↔ w = write a) {v : Json} {values : List α} :
    asList? item v = some values ↔ v = .arr (values.map write) := by
  simp only [asList?_eq_some_iff, each, forall₂_eq_map_iff, exists_eq_right]

theorem asText?_eq_some_iff {v : Json} {s : String} : asText? v = some s ↔ v = .text s := by
  cases v <;> simp [asText?]

theorem asNat?_eq_some_iff {limit : Nat} {v : Json} {n : Nat} :
    asNat? limit v = some n ↔ v = .ofNat n ∧ n < limit := by
  cases v with
  | int i =>
      rw [asNat?, ofNat, Json.int.injEq]
      constructor
      · intro read
        split at read
        case isTrue fits =>
          cases read
          omega
        case isFalse => contradiction
      · rintro ⟨rfl, small⟩
        rw [if_pos (by omega), Int.toNat_natCast]
  | _ => simp [asNat?, ofNat]

end Json

/-! ## Metadata -/

/-- An integer of 64 bits, a boolean or a text. -/
theorem MetaValue.ofJson?_eq_some_iff {v : Json} {value : MetaValue} :
    ofJson? v = some value ↔ v = value.toJson := by
  refine ⟨fun read => ?_, fun same => same ▸ value.ofJson?_toJson⟩
  cases v with
  | int i =>
      obtain ⟨j, inside, rfl⟩ := Option.map_eq_some_iff.mp read
      simp only [Json.asInt?] at inside
      split at inside
      case isTrue range =>
        cases inside
        exact congrArg Json.int (Int64.toInt_ofInt_of_le range.1 (by omega)).symm
      case isFalse => contradiction
  | bool b =>
      cases read
      rfl
  | text s =>
      cases read
      rfl
  | _ => contradiction

theorem Rule.pairOfJson?_eq_some_iff {v : Json} {pair : String × MetaValue} :
    pairOfJson? v = some pair ↔ v = pairToJson pair := by
  refine ⟨fun read => ?_, fun same => same ▸ pairOfJson?_pairToJson pair⟩
  unfold pairOfJson? at read
  split at read
  case h_1 key value =>
    obtain ⟨k, text, read⟩ := Option.bind_eq_some_iff.mp read
    obtain ⟨w, value, read⟩ := Option.bind_eq_some_iff.mp read
    cases read
    rw [Json.asText?_eq_some_iff.mp text, MetaValue.ofJson?_eq_some_iff.mp value]
    rfl
  case h_2 => contradiction

/-! ## Patterns -/

namespace Pattern

def Shape (v : Json) (p : Pattern) : Prop :=
  Json.Gives fieldNames v [.text p.ns, .text p.identifier, .text p.literal,
    .arr (p.tags.map .text), .arr (p.metadata.map Rule.pairToJson)]

theorem ofJson?_eq_some_iff {v : Json} {p : Pattern} : ofJson? v = some p ↔ Shape v p := by
  constructor
  · intro read
    unfold ofJson? at read
    split at read
    case h_1 name identifier literal tags metadata full =>
      obtain ⟨ns, isName, read⟩ := Option.bind_eq_some_iff.mp read
      obtain ⟨id, isIdentifier, read⟩ := Option.bind_eq_some_iff.mp read
      obtain ⟨lit, isLiteral, read⟩ := Option.bind_eq_some_iff.mp read
      obtain ⟨ts, areTags, read⟩ := Option.bind_eq_some_iff.mp read
      obtain ⟨ms, areMetadata, read⟩ := Option.bind_eq_some_iff.mp read
      cases read
      have tagTexts := (Json.asList?_eq_map_iff fun _ _ => Json.asText?_eq_some_iff).mp areTags
      have pairs := (Json.asList?_eq_map_iff fun _ _ => Rule.pairOfJson?_eq_some_iff).mp areMetadata
      rw [Json.asText?_eq_some_iff.mp isName, Json.asText?_eq_some_iff.mp isIdentifier,
        Json.asText?_eq_some_iff.mp isLiteral, tagTexts, pairs] at full
      exact Json.fullRecord?_eq_some_iff.mp full
    case h_2 => contradiction
  · intro shape
    have same : v.fullRecord? fieldNames = p.toJson.fullRecord? fieldNames :=
      (Json.fullRecord?_eq_some_iff.mpr shape).trans p.fullRecord?_toJson.symm
    rw [← p.ofJson?_toJson, ofJson?, ofJson?, same]

namespace Artifact

structure Shape (v : Json) (a : Artifact) : Prop where
  small : a.version < 4294967296
  gives : ∃ items, Json.Gives fieldNames v [.text a.format, .ofNat a.version, .arr items] ∧
    List.Forall₂ Pattern.Shape items a.patterns

theorem ofJson?_eq_some_iff {v : Json} {a : Artifact} : ofJson? v = some a ↔ Shape v a := by
  constructor
  · intro read
    unfold ofJson? at read
    split at read
    case h_1 format version patterns full =>
      obtain ⟨text, isFormat, read⟩ := Option.bind_eq_some_iff.mp read
      obtain ⟨number, isVersion, read⟩ := Option.bind_eq_some_iff.mp read
      obtain ⟨ps, arePatterns, read⟩ := Option.bind_eq_some_iff.mp read
      cases read
      obtain ⟨rfl, small⟩ := Json.asNat?_eq_some_iff.mp isVersion
      obtain ⟨items, rfl, each⟩ := Json.asList?_eq_some_iff.mp arePatterns
      simp only [Pattern.ofJson?_eq_some_iff] at each
      rw [Json.asText?_eq_some_iff.mp isFormat] at full
      exact ⟨small, items, Json.fullRecord?_eq_some_iff.mp full, each⟩
    case h_2 => contradiction
  · rintro ⟨small, items, gives, each⟩
    have patterns : Json.asList? Pattern.ofJson? (.arr items) = some a.patterns := by
      refine Json.asList?_eq_some_iff.mpr ⟨items, rfl, ?_⟩
      simpa only [Pattern.ofJson?_eq_some_iff] using each
    rw [ofJson?, Json.fullRecord?_eq_some_iff.mpr gives]
    simp only [Json.asText?, Json.asNat?_eq_some_iff.mpr ⟨rfl, small⟩, patterns]
    rfl

end Artifact

end Pattern

end Needle
