import Needle.Pattern.Source
import Needle.Proofs.Text.Numeral

/-!
# Values that words stand for

The value of a metadata word is an integer exactly if the word is a numeral whose value 64 bits
hold. A word that is no such numeral, and neither of the two booleans, is the text that it is. So a
value is read back from its display unless it is a text that displays another kind of value.
-/
set_option autoImplicit false

namespace Needle.MetaValue

open Decimal

theorem spells_integer_iff (word : List Char) :
    (∃ i : Int64, Spells word i.toInt) ↔
      ∃ i ∈ integer? word, minInteger ≤ i ∧ i ≤ maxInteger := by
  unfold minInteger maxInteger
  constructor
  · rintro ⟨i, spells⟩
    have low := i.le_toInt
    have high := i.toInt_lt
    exact ⟨i.toInt, integer?_eq_some_iff.mpr spells, by omega, by omega⟩
  · rintro ⟨i, read, low, high⟩
    have exact : (Int64.ofInt i).toInt = i :=
      Int64.toInt_ofInt_of_le (by omega) (by omega)
    exact ⟨.ofInt i, exact.symm ▸ integer?_eq_some_iff.mp read⟩

theorem ofWord_of_spells {word : List Char} {i : Int64} (spells : Spells word i.toInt) :
    ofWord word = .integer i := by
  have read := integer?_eq_some_iff.mpr spells
  obtain ⟨j, same, inside⟩ := (spells_integer_iff word).mp ⟨i, spells⟩
  obtain rfl : i.toInt = j := Option.some.inj (read.symm.trans same)
  simp only [ofWord, read, if_pos inside, Int64.ofInt_toInt]

theorem ofWord_of_text {s : String} (notTrue : s ≠ "true") (notFalse : s ≠ "false")
    (unspelled : ∀ i : Int64, ¬Spells s.toList i.toInt) : ofWord s.toList = .text s := by
  have outside := (spells_integer_iff s.toList).not.mp (not_exists.mpr unspelled)
  unfold ofWord
  rw [String.ofList_toList]
  cases read : integer? s.toList with
  | none =>
      have apart (name : List Char) (other : s ≠ String.ofList name) : s.toList ≠ name :=
        fun same => other (by rw [← same, String.ofList_toList])
      dsimp only
      rw [if_neg (apart _ notTrue), if_neg (apart _ notFalse)]
  | some i => exact if_neg fun inside => outside ⟨i, read, inside⟩

/-- A text that reads as a value of another kind. -/
def Mistaken (s : String) : Prop :=
  s = "true" ∨ s = "false" ∨ ∃ (n : Numeral) (i : Int64), n.word = s.toList ∧ n.value = i.toInt

theorem ofWord_cases (s : String) :
    (∃ i : Int64, Spells s.toList i.toInt ∧ ofWord s.toList = .integer i) ∨
      (∃ b, s = (boolean b).display ∧ ofWord s.toList = .boolean b) ∨
      (¬Mistaken s ∧ ofWord s.toList = .text s) := by
  by_cases spelled : ∃ i : Int64, Spells s.toList i.toInt
  · obtain ⟨i, spells⟩ := spelled
    exact .inl ⟨i, spells, ofWord_of_spells spells⟩
  · by_cases yes : s = "true"
    · subst yes
      exact .inr (.inl ⟨true, rfl, rfl⟩)
    · by_cases no : s = "false"
      · subst no
        exact .inr (.inl ⟨false, rfl, rfl⟩)
      · refine .inr (.inr ⟨?_, ofWord_of_text yes no (not_exists.mp spelled)⟩)
        rintro (same | same | ⟨n, i, own, value⟩)
        · exact yes same
        · exact no same
        · exact spelled ⟨i, spells_iff_numeral.mpr ⟨n, own, value⟩⟩

theorem ofWord_eq_integer_iff {s : String} {i : Int64} :
    ofWord s.toList = .integer i ↔ ∃ n : Numeral, n.word = s.toList ∧ n.value = i.toInt := by
  rw [← spells_iff_numeral]
  refine ⟨fun read => ?_, ofWord_of_spells⟩
  rcases ofWord_cases s with ⟨j, spells, value⟩ | ⟨b, -, value⟩ | ⟨-, value⟩
  · obtain rfl := MetaValue.integer.inj (read.symm.trans value)
    exact spells
  · cases read.symm.trans value
  · cases read.symm.trans value

theorem ofWord_eq_text_iff {s : String} : ofWord s.toList = .text s ↔ ¬Mistaken s := by
  constructor
  · rintro read (rfl | rfl | ⟨n, i, own, value⟩)
    · contradiction
    · contradiction
    · cases read.symm.trans (ofWord_eq_integer_iff.mpr ⟨n, own, value⟩)
  · intro plain
    rcases ofWord_cases s with ⟨i, spells, -⟩ | ⟨b, rfl, -⟩ | ⟨-, value⟩
    · obtain ⟨n, own, same⟩ := spells_iff_numeral.mp spells
      exact absurd (.inr (.inr ⟨n, i, own, same⟩)) plain
    · cases b with
      | true => exact absurd (.inl rfl) plain
      | false => exact absurd (.inr (.inl rfl)) plain
    · exact value

/-- Words are read as the integers that their numerals stand for, as far as these have 64 bits, and
displayed values are read back unless they are mistaken for another kind. -/
theorem ofWord_values :
    (∀ i : Int64, ofWord (integer i).display.toList = .integer i) ∧
    (∀ (s : String) (i : Int64),
      ofWord s.toList = .integer i ↔ ∃ n : Numeral, n.word = s.toList ∧ n.value = i.toInt) ∧
    (∀ n : Numeral, n.value < -2 ^ 63 ∨ 2 ^ 63 ≤ n.value →
      ofWord n.word = .text (String.ofList n.word)) ∧
    (∀ sign : Sign, ofWord sign.word = .text (String.ofList sign.word)) ∧
    ∀ v : MetaValue, ofWord v.display.toList = v ↔ ¬∃ s, v = .text s ∧ Mistaken s := by
  have display (i : Int64) : ofWord (integer i).display.toList = .integer i := by
    rw [MetaValue.display, ofInt, String.toList_ofList]
    exact ofWord_of_spells (spells_charsOfInt i.toInt)
  refine ⟨display, fun s i => ofWord_eq_integer_iff, ?_, ?_, ?_⟩
  · intro n outside
    have read : integer? n.word = some n.value := integer?_eq_some_iff_numeral.mpr ⟨n, rfl, rfl⟩
    unfold ofWord
    rw [read]
    refine if_neg ?_
    unfold minInteger maxInteger
    omega
  · intro sign
    cases sign with
    | bare => rfl
    | plus => rfl
    | minus => rfl
  · intro v
    cases v with
    | integer i => exact iff_of_true (display i) nofun
    | boolean b =>
        cases b with
        | true => exact iff_of_true rfl nofun
        | false => exact iff_of_true rfl nofun
    | text s =>
        rw [MetaValue.display, ofWord_eq_text_iff]
        simp

end Needle.MetaValue
