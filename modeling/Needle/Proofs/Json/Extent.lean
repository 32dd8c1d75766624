import Needle.Proofs.Json.Grammar
import Needle.Proofs.Text.Ascii

/-!
# Where a value ends

A text that denotes a value, other than a number, cannot go on: no longer text denotes anything,
unless all that is added is blank. Cut anywhere before its end, and not only within its last blanks,
it denotes nothing.

A number is the exception, since more digits may follow. Within an array or object it is no
exception, since a bracket has to follow it.
-/
set_option autoImplicit false

namespace Needle.Json

/-! ## Going on with a reading -/

theorem lexed_none (text : List Symbol) : lexed none text = none := by
  induction text with
  | nil => rfl
  | cons s rest ih => exact ih

theorem lexed_cons (lexing : Lexing) (read : List Token) (s : Symbol) (rest : List Symbol) :
    lexed (some (lexing, read)) (s :: rest) =
      match step lexing s with
      | some (next, found) => lexed (some (next, found.reverse ++ read)) rest
      | none => none := by
  cases moved : step lexing s with
  | none =>
      have stuck : advance (some (lexing, read)) s = none := by
        simp only [advance, Option.bind_some, moved, Option.map_none]
      exact (congrArg (lexed · rest) stuck).trans (lexed_none rest)
  | some next => exact lexed_step moved read rest

theorem lexed_read (lexing : Lexing) (read : List Token) (text : List Symbol) :
    lexed (some (lexing, read)) text =
      (lexed (some (lexing, [])) text).map (read.reverse ++ ·) := by
  induction text generalizing lexing read with
  | nil =>
      simp only [lexed, List.foldl_nil, Option.bind_some]
      cases finish lexing <;> simp
  | cons s rest ih =>
      rw [lexed_cons, lexed_cons]
      cases step lexing s with
      | none => rfl
      | some moved =>
          obtain ⟨next, found⟩ := moved
          dsimp only
          rw [ih next (found.reverse ++ read), ih next (found.reverse ++ []), Option.map_map]
          congr 1
          funext more
          simp

/-- A first symbol that leads on: the tokens it yields, and those of the rest. -/
theorem lexed_eq_some_cons {lexing : Lexing} {s : Symbol} {rest : List Symbol} {ts : List Token}
    (lexes : lexed (some (lexing, [])) (s :: rest) = some ts) :
    ∃ next found more, step lexing s = some (next, found) ∧
      lexed (some (next, [])) rest = some more ∧ ts = found ++ more := by
  rw [lexed_cons] at lexes
  cases moved : step lexing s with
  | none =>
      rw [moved] at lexes
      contradiction
  | some next =>
      obtain ⟨next, found⟩ := next
      rw [moved] at lexes
      dsimp only at lexes
      rw [lexed_read] at lexes
      obtain ⟨more, goes, rfl⟩ := Option.map_eq_some_iff.mp lexes
      exact ⟨next, found, more, rfl, goes, by simp⟩

theorem tokens?_append_eq (first second : List Symbol) :
    tokens? (first ++ second) = lexed (first.foldl advance (some (.between, []))) second := by
  rw [tokens?_eq_lexed, lexed, lexed, List.foldl_append]

/-- A symbol that is no character is part of a string, or of nothing. -/
theorem finish_step_none {lexing next : Lexing} {found : List Token}
    (moved : step lexing none = some (next, found)) : finish next = none := by
  cases lexing with
  | between => cases moved
  | word left token => cases left <;> cases moved
  | number negative phase value =>
      obtain ⟨_, _, moved⟩ := Option.bind_eq_some_iff.mp moved
      cases moved
  | string chars high escape =>
      cases escape <;> cases moved
      rfl

theorem tokens?_concat_none (text : List Symbol) : tokens? (text ++ [none]) = none := by
  rw [tokens?_append_eq]
  rcases text.foldl advance (some (.between, [])) with _ | ⟨lexing, read⟩
  · exact lexed_none _
  · rw [lexed_read]
    cases lexes : lexed (some (lexing, [])) [none] with
    | none => rfl
    | some ts =>
        obtain ⟨next, found, more, moved, goes, _⟩ := lexed_eq_some_cons lexes
        simp only [lexed, List.foldl_nil, Option.bind_some, finish_step_none moved] at goes
        cases goes

/-! ## Numbers -/

theorem isNumber_numberToken {negative : Bool} {phase : Phase} {value : Nat} {t : Token}
    (complete : numberToken negative phase value = some t) : t.IsNumber := by
  cases phase <;> cases complete <;> first | exact trivial | (cases negative <;> exact trivial)

/-- A number that has begun is the first token, however it goes on. -/
theorem lexed_within_number {negative : Bool} {phase : Phase} {value : Nat} {text : List Symbol}
    {ts : List Token} (lexes : lexed (some (.number negative phase value, [])) text = some ts) :
    ∃ t more, ts = t :: more ∧ t.IsNumber := by
  induction text generalizing phase value ts with
  | nil =>
      obtain ⟨last, finished, rfl⟩ := Option.map_eq_some_iff.mp lexes
      obtain ⟨t, complete, rfl⟩ := Option.map_eq_some_iff.mp finished
      exact ⟨t, [], rfl, isNumber_numberToken complete⟩
  | cons s rest ih =>
      obtain ⟨next, found, more, moved, goes, rfl⟩ := lexed_eq_some_cons lexes
      rw [step] at moved
      split at moved
      case h_1 =>
        cases moved
        exact ih goes
      case h_2 =>
        obtain ⟨t, complete, moved⟩ := Option.bind_eq_some_iff.mp moved
        obtain ⟨begun, _, moved⟩ := Option.bind_eq_some_iff.mp moved
        cases moved
        exact ⟨t, begun.2 ++ more, rfl, isNumber_numberToken complete⟩

/-! ## Blanks -/

theorem append_ne_between (chars : Option (List Char)) (high : Option Nat) (c : Char) :
    append chars high c ≠ .between := nofun

theorem appendUnit_ne_between (chars : Option (List Char)) (high : Option Nat) (unit : Nat) :
    appendUnit chars high unit ≠ .between := by
  unfold appendUnit
  split
  · cases high <;> nofun
  · split
    · nofun
    · exact append_ne_between _ _ _

theorem inString_cases {chars : Option (List Char)} {high : Option Nat} {escape : Escape}
    {s : Symbol} {next : Lexing} {found : List Token}
    (moved : inString chars high escape s = some (next, found)) : next ≠ .between ∨ found ≠ [] := by
  unfold inString at moved
  split at moved
  case h_1 =>
    cases moved
    exact .inl nofun
  case h_2 c =>
    split at moved
    case isTrue => split at moved <;> cases moved <;> exact .inr nofun
    case isFalse =>
      split at moved
      case isTrue =>
        cases moved
        exact .inl nofun
      case isFalse =>
        split at moved
        case isTrue => contradiction
        case isFalse =>
          cases moved
          exact .inl (append_ne_between _ _ _)
  case h_3 => contradiction
  case h_4 c =>
    split at moved
    case isTrue =>
      cases moved
      exact .inl nofun
    case isFalse =>
      obtain ⟨d, _, same⟩ := Option.map_eq_some_iff.mp moved
      cases same
      exact .inl (append_ne_between _ _ _)
  case h_5 count value c =>
    obtain ⟨d, _, same⟩ := Option.map_eq_some_iff.mp moved
    dsimp only at same
    split at same
    case isTrue =>
      cases same
      exact .inl (appendUnit_ne_between _ _ _)
    case isFalse =>
      cases same
      exact .inl nofun

theorem step_cases {lexing next : Lexing} {s : Symbol} {found : List Token}
    (within : lexing ≠ .between) (moved : step lexing s = some (next, found)) :
    next ≠ .between ∨ found ≠ [] := by
  cases lexing with
  | between => exact absurd rfl within
  | word left token =>
      cases left with
      | nil => cases moved
      | cons c left =>
          simp only [step] at moved
          split at moved
          case isTrue =>
            split at moved <;> cases moved <;> simp
          case isFalse => contradiction
  | number negative phase value =>
      rw [step] at moved
      split at moved
      case h_1 =>
        cases moved
        simp
      case h_2 =>
        obtain ⟨t, _, moved⟩ := Option.bind_eq_some_iff.mp moved
        obtain ⟨begun, _, moved⟩ := Option.bind_eq_some_iff.mp moved
        cases moved
        simp
  | string chars high escape => exact inString_cases moved

theorem ne_nil_of_within {lexing : Lexing} (within : lexing ≠ .between) {text : List Symbol}
    {ts : List Token} (lexes : lexed (some (lexing, [])) text = some ts) : ts ≠ [] := by
  induction text generalizing lexing ts with
  | nil =>
      obtain ⟨last, finished, rfl⟩ := Option.map_eq_some_iff.mp lexes
      cases lexing with
      | between => exact absurd rfl within
      | number negative phase value =>
          obtain ⟨t, _, rfl⟩ := Option.map_eq_some_iff.mp finished
          nofun
      | _ => contradiction
  | cons s rest ih =>
      obtain ⟨next, found, more, moved, goes, rfl⟩ := lexed_eq_some_cons lexes
      rcases step_cases within moved with inside | some
      · exact List.append_ne_nil_of_right_ne_nil _ (ih inside goes)
      · exact List.append_ne_nil_of_left_ne_nil some _

/-- A symbol between tokens that is nothing itself: a blank. -/
def Skipped (s : Symbol) : Prop := begin s = some (.between, [])

theorem skipped_of_lexed {text : List Symbol} (nothing : lexed (some (.between, [])) text = some []) :
    ∀ s ∈ text, Skipped s := by
  induction text with
  | nil => nofun
  | cons s rest ih =>
      obtain ⟨next, found, more, moved, goes, none⟩ := lexed_eq_some_cons nothing
      obtain ⟨rfl, rfl⟩ := List.append_eq_nil_iff.mp none.symm
      obtain rfl : next = .between :=
        Classical.byContradiction fun inside => ne_nil_of_within inside goes rfl
      intro other member
      rcases List.mem_cons.mp member with rfl | later
      · exact moved
      · exact ih goes other later

/-! ## Texts that go on -/

/-- Where a text denotes a value and a longer one does too, the rest is blank, unless both are
numbers. -/
theorem tokens?_append {first second : List Symbol} {u v : Json}
    (whole : tokens? first = some (tokens u)) (longer : tokens? (first ++ second) = some (tokens v))
    (either : ¬u.IsNumber ∨ ¬v.IsNumber) : v = u ∧ ∀ s ∈ second, Skipped s := by
  rw [tokens?_append_eq] at longer
  obtain ⟨⟨lexing, read⟩, reached, finished⟩ := Option.bind_eq_some_iff.mp whole
  obtain ⟨last, ended, spelled⟩ := Option.map_eq_some_iff.mp finished
  rw [reached, lexed_read] at longer
  obtain ⟨more, goes, grown⟩ := Option.map_eq_some_iff.mp longer
  -- At the end of a complete text no token is under way, or one that is a number and may go on.
  cases lexing with
  | between =>
      cases ended
      rw [List.append_nil] at spelled
      have begins : tokens v = tokens u ++ more := by rw [← grown, spelled]
      obtain ⟨same, rfl⟩ := tokens_append begins
      exact ⟨same, skipped_of_lexed goes⟩
  | number negative phase value =>
      obtain ⟨t, complete, rfl⟩ := Option.map_eq_some_iff.mp ended
      obtain ⟨t', rest, rfl, isNumber⟩ := lexed_within_number goes
      have alone := eq_nil_of_last (isNumber_numberToken complete) spelled.symm
      rw [alone] at spelled grown
      have first := isNumber_of_first (isNumber_numberToken complete) spelled.symm
      have second := isNumber_of_first isNumber grown.symm
      rcases either with other | other
      · exact absurd first other
      · exact absurd second other
  | _ => contradiction

def Blank (b : UInt8) : Prop := b = 0x20 ∨ b = 0x09 ∨ b = 0x0A ∨ b = 0x0D

theorem skipped_cases {s : Symbol} (skipped : Skipped s) :
    s = some ' ' ∨ s = some '\t' ∨ s = some '\n' ∨ s = some '\r' := by
  unfold Skipped begin at skipped
  split at skipped
  · contradiction
  · split at skipped
    case h_17 =>
      obtain ⟨d, _, same⟩ := Option.map_eq_some_iff.mp skipped
      cases same
    all_goals first | (cases skipped; done) | simp

theorem blank_of_skipped {bytes : Bytes} (skipped : ∀ s ∈ Utf8.symbols bytes, Skipped s) :
    ∀ b ∈ bytes, Blank b := by
  have plain : ∀ s ∈ Utf8.symbols bytes, Utf8.Ascii s := by
    intro s member
    rcases skipped_cases (skipped s member) with rfl | rfl | rfl | rfl
    all_goals exact ⟨_, rfl, by decide, by decide⟩
  have each := Utf8.symbols_of_ascii plain
  intro b member
  have among : some (Char.ofNat b.toNat) ∈ Utf8.symbols bytes := by
    rw [each]
    exact List.mem_map_of_mem member
  have byte : b.toNat.isValidChar := .inl (Nat.lt_trans b.toNat_lt (by decide))
  have number (c : Char) (same : some (Char.ofNat b.toNat) = some c) : b.toNat = c.toNat := by
    rw [← Option.some.inj same, Utf8.toNat_ofNat_of_valid byte]
  unfold Blank
  simp only [← UInt8.toNat_inj]
  exact (skipped_cases (skipped _ among)).imp (number ' ')
    (Or.imp (number '\t') (Or.imp (number '\n') (number '\r')))

theorem pending_of_tokens? {bytes : Bytes} {ts : List Token}
    (spelled : tokens? (Utf8.symbols bytes) = some ts) :
    (bytes.foldl Utf8.Machine.step ⟨[], none⟩).pending = none := by
  rw [Utf8.symbols] at spelled
  generalize bytes.foldl Utf8.Machine.step ⟨[], none⟩ = m at spelled
  obtain ⟨read, pending⟩ := m
  cases pending with
  | none => rfl
  | some p =>
      rw [Utf8.Machine.finish] at spelled
      dsimp only at spelled
      rw [List.reverse_cons, tokens?_concat_none] at spelled
      contradiction

theorem ofBytes?_eq_some_iff {bytes : Bytes} {v : Json} :
    ofBytes? bytes = some v ↔ tokens? (Utf8.symbols bytes) = some (tokens v) := by
  rw [ofBytes?, parse?, Option.bind_eq_some_iff]
  constructor
  · rintro ⟨ts, spelled, read⟩
    rw [spelled, ofTokens?_eq_some_iff.mp read]
  · intro spelled
    exact ⟨_, spelled, ofTokens?_tokens v⟩

/-- Bytes that denote a value, and more bytes with which they do too: all that was added is blank,
unless both are numbers. -/
theorem ofBytes?_append {first second : Bytes} {u v : Json} (whole : ofBytes? first = some u)
    (longer : ofBytes? (first ++ second) = some v) (either : ¬u.IsNumber ∨ ¬v.IsNumber) :
    v = u ∧ ∀ b ∈ second, Blank b := by
  rw [ofBytes?_eq_some_iff] at whole longer
  rw [Utf8.symbols_append (pending_of_tokens? whole)] at longer
  obtain ⟨same, skipped⟩ := tokens?_append whole longer either
  exact ⟨same, blank_of_skipped skipped⟩

end Needle.Json
