import Mathlib.Data.List.Induction
import Mathlib.Data.Nat.Digits.Defs
import Needle.Proofs.Text.Decimal

/-!
# Numerals and their values

A numeral is a sign or none and a row of digits, the last of which counts ones, the one before it
tens, and so on. The words that are read as integers are the numerals, and what is read is their
value, however long they are and whatever zeros they begin with.
-/
set_option autoImplicit false

namespace Needle.Decimal

inductive Sign where
  | bare
  | plus
  | minus

namespace Sign

def word : Sign → List Char
  | bare => []
  | plus => ['+']
  | minus => ['-']

def value (n : Nat) : Sign → Int
  | bare => n
  | plus => n
  | minus => -n

end Sign

structure Numeral where
  sign : Sign
  digits : List (Fin 10)
  some : digits ≠ []

namespace Numeral

def row (digits : List (Fin 10)) : List Char := digits.map fun d : Fin 10 => Nat.digitChar d

/-- The number that a row of digits stands for; its last digit counts ones. -/
def number (digits : List (Fin 10)) : Nat := Nat.ofDigits 10 (digits.map Fin.val).reverse

def word (n : Numeral) : List Char := n.sign.word ++ row n.digits

def value (n : Numeral) : Int := n.sign.value (number n.digits)

end Numeral

open Numeral

theorem exists_digitChar {c : Char} (digit : c.isDigit = true) :
    ∃ d : Fin 10, Nat.digitChar d = c := by
  obtain ⟨low, high⟩ := Char.isDigit_iff_toNat.mp digit
  simp at low high
  refine ⟨⟨c.toNat - 48, by omega⟩, Char.toNat_inj.mp ?_⟩
  rw [Nat.toNat_digitChar_of_lt_ten (by omega)]
  exact Nat.add_sub_cancel' low

theorem exists_row_iff {word : List Char} :
    (∃ digits, row digits = word) ↔ ∀ c ∈ word, c.isDigit = true := by
  constructor
  · rintro ⟨digits, rfl⟩ c member
    obtain ⟨d, -, rfl⟩ := List.mem_map.mp member
    have each : ∀ d : Fin 10, (Nat.digitChar d).isDigit = true := by decide
    exact each d
  · intro all
    induction word with
    | nil => exact ⟨[], rfl⟩
    | cons c rest ih =>
        obtain ⟨first, others⟩ := List.forall_mem_cons.mp all
        obtain ⟨d, rfl⟩ := exists_digitChar first
        obtain ⟨digits, rfl⟩ := ih others
        exact ⟨d :: digits, rfl⟩

theorem ofDigitChars_row (digits : List (Fin 10)) :
    Nat.ofDigitChars 10 (row digits) 0 = number digits := by
  induction digits using List.reverseRecOn with
  | nil => rfl
  | append_singleton before last ih =>
      have places : number (before ++ [last]) = last + 10 * number before := by
        unfold number
        rw [List.map_append, List.reverse_append]
        exact Nat.ofDigits_cons
      have split : row (before ++ [last]) = row before ++ [Nat.digitChar last] := List.map_append
      rw [split, Nat.ofDigitChars_append, ih, Nat.ofDigitChars_cons,
        Nat.toNat_digitChar_of_lt_ten last.isLt, Nat.ofDigitChars_nil, places]
      show 10 * number before + (48 + last - 48) = last + 10 * number before
      omega

theorem spells_iff_numeral {word : List Char} {i : Int} :
    Spells word i ↔ ∃ n : Numeral, n.word = word ∧ n.value = i := by
  constructor
  · intro spells
    cases spells with
    | bare filled all =>
        obtain ⟨digits, rfl⟩ := exists_row_iff.mpr all
        refine ⟨⟨.bare, digits, by simpa [row] using filled⟩, rfl, ?_⟩
        rw [ofDigitChars_row]
        rfl
    | plus filled all =>
        obtain ⟨digits, rfl⟩ := exists_row_iff.mpr all
        refine ⟨⟨.plus, digits, by simpa [row] using filled⟩, rfl, ?_⟩
        rw [ofDigitChars_row]
        rfl
    | minus filled all =>
        obtain ⟨digits, rfl⟩ := exists_row_iff.mpr all
        refine ⟨⟨.minus, digits, by simpa [row] using filled⟩, rfl, ?_⟩
        rw [ofDigitChars_row]
        rfl
  · rintro ⟨⟨sign, digits, some⟩, rfl, rfl⟩
    have filled : row digits ≠ [] := by simpa [row] using some
    have all : ∀ c ∈ row digits, c.isDigit = true := exists_row_iff.mp ⟨digits, rfl⟩
    unfold value
    rw [← ofDigitChars_row]
    cases sign with
    | bare => exact .bare filled all
    | plus => exact .plus filled all
    | minus => exact .minus filled all

/-- Reading a word as an integer gives the value of the numeral that it is. -/
theorem integer?_eq_some_iff_numeral {word : List Char} {i : Int} :
    integer? word = some i ↔ ∃ n : Numeral, n.word = word ∧ n.value = i :=
  integer?_eq_some_iff.trans spells_iff_numeral

end Needle.Decimal
