import Needle.Text.Decimal

/-!
# Decimal numerals, read and written

Reading a word as an integer succeeds for the numerals and for nothing else: one or more digits, with
a sign before them or without. The written form of an integer is one of its numerals.
-/
set_option autoImplicit false

namespace Needle.Decimal

/-- A word spells an integer: it is made of digits, after a sign or without one. -/
inductive Spells : List Char → Int → Prop
  | bare {digits : List Char} (some : digits ≠ []) (all : ∀ d ∈ digits, d.isDigit = true) :
      Spells digits (Nat.ofDigitChars 10 digits 0)
  | plus {digits : List Char} (some : digits ≠ []) (all : ∀ d ∈ digits, d.isDigit = true) :
      Spells ('+' :: digits) (Nat.ofDigitChars 10 digits 0)
  | minus {digits : List Char} (some : digits ≠ []) (all : ∀ d ∈ digits, d.isDigit = true) :
      Spells ('-' :: digits) (-(Nat.ofDigitChars 10 digits 0 : Int))

theorem natural?_eq_some_iff {text : List Char} {n : Nat} :
    natural? text = some n ↔
      text ≠ [] ∧ (∀ c ∈ text, c.isDigit = true) ∧ Nat.ofDigitChars 10 text 0 = n := by
  unfold natural?
  split
  case isTrue bad =>
    refine iff_of_false nofun ?_
    rintro ⟨some, all, -⟩
    rcases Bool.or_eq_true_iff.mp bad with empty | other
    · exact some (List.isEmpty_iff.mp empty)
    · obtain ⟨c, member, no⟩ := List.any_eq_true.mp other
      simp [all c member] at no
  case isFalse good =>
    simp only [Bool.or_eq_true, List.isEmpty_iff, List.any_eq_true, not_or, not_exists, not_and,
      Bool.not_eq_true', Bool.not_eq_false] at good
    rw [Option.some.injEq]
    exact ⟨fun same => ⟨good.1, good.2, same⟩, fun all => all.2.2⟩

theorem integer?_minus_eq_some_iff {digits : List Char} {i : Int} :
    integer? ('-' :: digits) = some i ↔ ∃ n : Nat, natural? digits = some n ∧ -(n : Int) = i := by
  rw [integer?]
  cases natural? digits with
  | none => exact iff_of_false nofun nofun
  | some n => simp

theorem integer?_eq_some_iff {word : List Char} {i : Int} :
    integer? word = some i ↔ Spells word i := by
  constructor
  · intro read
    unfold integer? at read
    split at read
    case h_1 =>
      obtain ⟨n, found, rfl⟩ := Option.map_eq_some_iff.mp read
      obtain ⟨some, all, rfl⟩ := natural?_eq_some_iff.mp found
      exact .plus some all
    case h_2 =>
      obtain ⟨n, found, rfl⟩ := integer?_minus_eq_some_iff.mp read
      obtain ⟨some, all, rfl⟩ := natural?_eq_some_iff.mp found
      exact .minus some all
    case h_3 =>
      obtain ⟨n, found, rfl⟩ := Option.map_eq_some_iff.mp read
      obtain ⟨some, all, rfl⟩ := natural?_eq_some_iff.mp found
      exact .bare some all
  · intro spells
    cases spells with
    | plus some all =>
        exact Option.map_eq_some_iff.mpr ⟨_, natural?_eq_some_iff.mpr ⟨some, all, rfl⟩, rfl⟩
    | minus some all =>
        exact integer?_minus_eq_some_iff.mpr ⟨_, natural?_eq_some_iff.mpr ⟨some, all, rfl⟩, rfl⟩
    | bare some all =>
        unfold integer?
        split
        case h_1 => exact absurd (all '+' List.mem_cons_self) (by decide)
        case h_2 => exact absurd (all '-' List.mem_cons_self) (by decide)
        case h_3 =>
          exact Option.map_eq_some_iff.mpr ⟨_, natural?_eq_some_iff.mpr ⟨some, all, rfl⟩, rfl⟩

theorem Spells.char {word : List Char} {i : Int} (spells : Spells word i) {c : Char}
    (member : c ∈ word) : c = '+' ∨ c = '-' ∨ c.isDigit = true := by
  cases spells with
  | bare _ all => exact .inr (.inr (all c member))
  | plus _ all => exact (List.mem_cons.mp member).imp_right fun digit => .inr (all c digit)
  | minus _ all => exact .inr ((List.mem_cons.mp member).imp_right fun digit => all c digit)

theorem spells_charsOfInt (i : Int) : Spells (charsOfInt i) i := by
  have digits : ∀ d ∈ Nat.toDigits 10 i.natAbs, d.isDigit = true :=
    fun d member => Nat.isDigit_of_mem_toDigits (by decide) (by decide) member
  have value : Nat.ofDigitChars 10 (Nat.toDigits 10 i.natAbs) 0 = i.natAbs :=
    Nat.ofDigitChars_ten_toDigits
  unfold charsOfInt
  split
  case isTrue negative =>
    have spells := Spells.minus Nat.toDigits_ne_nil digits
    rwa [value, show (-(i.natAbs : Int)) = i by omega] at spells
  case isFalse =>
    have spells := Spells.bare Nat.toDigits_ne_nil digits
    rwa [value, show ((i.natAbs : Nat) : Int) = i by omega] at spells

end Needle.Decimal
