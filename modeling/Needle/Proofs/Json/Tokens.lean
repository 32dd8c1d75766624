import Needle.Json.Token

/-!
# Tokens of written values

`tokens` lists the tokens of a value. A written value is read as exactly these tokens, whatever
follows it, as long as what follows does not go on with a number. `lexed` is the rest of a reading
from some point on, so each lemma here replaces a piece of text by the tokens it stands for.
-/
set_option autoImplicit false

namespace Needle.Json

/-- The tokens of a text from a state of the machine on. -/
def lexed (state : Option (Lexing × List Token)) (text : List Symbol) : Option (List Token) :=
  (text.foldl advance state).bind fun (lexing, read) =>
    (finish lexing).map fun last => read.reverse ++ last

theorem tokens?_eq_lexed (text : List Symbol) :
    tokens? text = lexed (some (.between, [])) text := rfl

theorem lexed_between (read : List Token) : lexed (some (.between, read)) [] = some read.reverse := by
  simp [lexed, finish]

theorem lexed_step {before after : Lexing} {s : Symbol} {found : List Token}
    (moved : step before s = some (after, found)) (read : List Token) (rest : List Symbol) :
    lexed (some (before, read)) (s :: rest) = lexed (some (after, found.reverse ++ read)) rest := by
  simp only [lexed, List.foldl_cons, advance, Option.bind_some, moved, Option.map_some]

theorem lexed_begin {s : Symbol} {after : Lexing} {found : List Token}
    (moved : begin s = some (after, found)) (read : List Token) (rest : List Symbol) :
    lexed (some (.between, read)) (s :: rest) =
      lexed (some (after, found.reverse ++ read)) rest := by
  have stepped : step .between s = some (after, found) := moved
  exact lexed_step stepped read rest

/-! ## Words -/

theorem lexed_word (token : Token) (read : List Token) (rest : List Symbol) (left : List Char)
    (more : left ≠ []) :
    lexed (some (.word left token, read)) (left.map some ++ rest) =
      lexed (some (.between, token :: read)) rest := by
  induction left with
  | nil => exact absurd rfl more
  | cons c left ih =>
      cases left with
      | nil =>
          have last : step (.word [c] token) (some c) = some (.between, [token]) := by
            simp [step]
          rw [List.map_cons, List.cons_append, lexed_step last]
          rfl
      | cons d left =>
          have next : step (.word (c :: d :: left) token) (some c) =
              some (.word (d :: left) token, []) := by
            simp [step]
          rw [List.map_cons, List.cons_append, lexed_step next]
          exact ih (List.cons_ne_nil d left)

/-! ## Numbers -/

/-- What follows does not go on with a number. -/
def EndsNumber (rest : List Symbol) : Prop :=
  ∀ c, rest.head? = some (some c) → c.isDigit = false ∧ c ≠ '.' ∧ c ≠ 'e' ∧ c ≠ 'E'

theorem endsNumber_nil : EndsNumber [] := by
  intro c first
  cases first

theorem endsNumber_cons {c : Char} (rest : List Symbol)
    (free : c.isDigit = false ∧ c ≠ '.' ∧ c ≠ 'e' ∧ c ≠ 'E') : EndsNumber (some c :: rest) := by
  intro d first
  cases first
  exact free

theorem extend_eq_none {phase : Phase} {value : Nat} {c : Char} (plain : phase = .zero ∨ phase = .whole)
    (free : c.isDigit = false ∧ c ≠ '.' ∧ c ≠ 'e' ∧ c ≠ 'E') : extend phase value c = none := by
  obtain ⟨digit, point, small, big⟩ := free
  rcases plain with rfl | rfl
  · simp [extend, point, small, big]
  · simp [extend, point, small, big, digitValue?, digit]

/-- A number is complete where the text ends or goes on with something else. -/
theorem lexed_number {negative : Bool} {phase : Phase} {value : Nat} {token : Token}
    (plain : phase = .zero ∨ phase = .whole) (complete : numberToken negative phase value = some token)
    (read : List Token) (rest : List Symbol) (ends : EndsNumber rest) :
    lexed (some (.number negative phase value, read)) rest =
      lexed (some (.between, token :: read)) rest := by
  cases rest with
  | nil => simp [lexed, finish, complete]
  | cons s rest =>
      have stop : s.bind (extend phase value) = none := by
        cases s with
        | none => rfl
        | some c => exact extend_eq_none plain (ends c rfl)
      have again : step (.number negative phase value) s =
          (begin s).map fun (next, found) => (next, token :: found) := by
        simp only [step, stop, complete]
        cases begin s <;> rfl
      cases begun : begin s with
      | none =>
          have nothing : step .between s = none := begun
          simp only [lexed, List.foldl_cons, advance, Option.bind_some, again, begun, nothing,
            Option.map_none]
      | some moved =>
          obtain ⟨next, found⟩ := moved
          rw [begun] at again
          rw [lexed_step again, lexed_begin begun]
          simp

theorem digitValue?_digitChar {d : Nat} (small : d < 10) : digitValue? d.digitChar = some d := by
  have digit : d.digitChar.isDigit = true := by
    rw [Nat.isDigit_digitChar]
    exact decide_eq_true small
  rw [digitValue?, if_pos digit, Nat.toNat_digitChar_sub_48_of_lt_ten small]

/-- The digits of a number, from a state in which a first digit starts a number. -/
theorem lexed_digits {start : Lexing} {negative : Bool}
    (starts : ∀ d, 0 < d → d < 10 →
      step start (some d.digitChar) = some (.number negative .whole d, []))
    (n : Nat) (positive : 0 < n) (read : List Token) (rest : List Symbol) :
    lexed (some (start, read)) ((Nat.toDigits 10 n).map some ++ rest) =
      lexed (some (.number negative .whole n, read)) rest := by
  induction n using Nat.strongRecOn generalizing rest with
  | ind n ih =>
      by_cases single : n < 10
      · rw [Nat.toDigits_of_lt_base single, List.map_singleton, List.singleton_append,
          lexed_step (starts n positive single)]
        rfl
      · have digit : n % 10 < 10 := Nat.mod_lt n (by omega)
        have extended : step (.number negative .whole (n / 10)) (some (n % 10).digitChar) =
            some (.number negative .whole n, []) := by
          have value := digitValue?_digitChar digit
          have whole : n / 10 * 10 + n % 10 = n := by omega
          have ordinary : ∀ d, d < 10 → d.digitChar ≠ '.' ∧ d.digitChar ≠ 'e' ∧ d.digitChar ≠ 'E' := by
            decide
          obtain ⟨point, small, big⟩ := ordinary _ digit
          simp [step, extend, point, small, big, value, whole]
        rw [Nat.toDigits_of_base_le (by omega) (by omega), List.map_append, List.append_assoc,
          ih (n / 10) (by omega) (by omega), List.map_singleton, List.singleton_append,
          lexed_step extended]
        rfl

theorem lexed_int (i : Int) (read : List Token) (rest : List Symbol) (ends : EndsNumber rest) :
    lexed (some (.between, read)) ((Decimal.charsOfInt i).map some ++ rest) =
      lexed (some (.between, .int i :: read)) rest := by
  by_cases zero : i = 0
  · subst zero
    have begun : begin (some '0') = some (.number false .zero 0, []) := rfl
    have written : Decimal.charsOfInt 0 = ['0'] := rfl
    rw [written, List.map_singleton, List.singleton_append, lexed_begin begun]
    exact lexed_number (Or.inl rfl) rfl read rest ends
  have positive : 0 < i.natAbs := by omega
  by_cases negative : i < 0
  · have begun : begin (some '-') = some (.number true .sign 0, []) := rfl
    have starts : ∀ d, 0 < d → d < 10 →
        step (.number true .sign 0) (some d.digitChar) = some (.number true .whole d, []) := by
      intro d low high
      have ordinary : ∀ d < 10, 0 < d → d.digitChar ≠ '0' := by decide
      simp [step, extend, ordinary d high low, digitValue?_digitChar high]
    have complete : numberToken true .whole i.natAbs = some (.int i) := by
      have value : -(i.natAbs : Int) = i := by omega
      exact congrArg (fun v => some (Token.int v)) value
    rw [Decimal.charsOfInt, if_pos negative, List.map_cons, List.cons_append, lexed_begin begun,
      lexed_digits starts i.natAbs positive]
    exact lexed_number (Or.inr rfl) complete read rest ends
  · have starts : ∀ d, 0 < d → d < 10 →
        step .between (some d.digitChar) = some (.number false .whole d, []) := by
      intro d low high
      have each : d = 1 ∨ d = 2 ∨ d = 3 ∨ d = 4 ∨ d = 5 ∨ d = 6 ∨ d = 7 ∨ d = 8 ∨ d = 9 := by omega
      rcases each with rfl | rfl | rfl | rfl | rfl | rfl | rfl | rfl | rfl <;> rfl
    have complete : numberToken false .whole i.natAbs = some (.int i) := by
      have value : (i.natAbs : Int) = i := by omega
      simp [numberToken, value]
    rw [Decimal.charsOfInt, if_neg negative, lexed_digits starts i.natAbs positive]
    exact lexed_number (Or.inr rfl) complete read rest ends

/-! ## Strings -/

theorem hexValue?_hexDigit {n : Nat} (small : n < 16) : hexValue? (hexDigit n) = some n := by
  decide +revert

theorem lexed_shortEscape {letter c : Char} (short : shortEscape? letter = some c)
    (notUnit : letter ≠ 'u') (chars : List Char) (read : List Token) (rest : List Symbol) :
    lexed (some (.string (some chars) none .plain, read)) (some '\\' :: some letter :: rest) =
      lexed (some (.string (some (c :: chars)) none .plain, read)) rest := by
  have slash : step (.string (some chars) none .plain) (some '\\') =
      some (.string (some chars) none .slash, []) := rfl
  have escape : step (.string (some chars) none .slash) (some letter) =
      some (.string (some (c :: chars)) none .plain, []) := by
    simp [step, inString, notUnit, short, append]
  rw [lexed_step slash, lexed_step escape]
  rfl

theorem lexed_unitEscape (c : Char) (control : c.toNat < 0x20) (chars : List Char)
    (read : List Token) (rest : List Symbol) :
    lexed (some (.string (some chars) none .plain, read))
      (some '\\' :: some 'u' :: some '0' :: some '0' :: some (hexDigit (c.toNat / 16)) ::
        some (hexDigit (c.toNat % 16)) :: rest) =
      lexed (some (.string (some (c :: chars)) none .plain, read)) rest := by
  have slash : step (.string (some chars) none .plain) (some '\\') =
      some (.string (some chars) none .slash, []) := rfl
  have mark : step (.string (some chars) none .slash) (some 'u') =
      some (.string (some chars) none (.digits 0 0), []) := rfl
  have first : step (.string (some chars) none (.digits 0 0)) (some '0') =
      some (.string (some chars) none (.digits 1 0), []) := rfl
  have second : step (.string (some chars) none (.digits 1 0)) (some '0') =
      some (.string (some chars) none (.digits 2 0), []) := rfl
  have third : step (.string (some chars) none (.digits 2 0)) (some (hexDigit (c.toNat / 16))) =
      some (.string (some chars) none (.digits 3 (c.toNat / 16)), []) := by
    simp [step, inString, hexValue?_hexDigit (show c.toNat / 16 < 16 by omega)]
  have fourth : step (.string (some chars) none (.digits 3 (c.toNat / 16)))
      (some (hexDigit (c.toNat % 16))) =
      some (.string (some (c :: chars)) none .plain, []) := by
    have value : c.toNat / 16 * 16 + c.toNat % 16 = c.toNat := by omega
    have noLow : ¬ (0xDC00 ≤ c.toNat ∧ c.toNat ≤ 0xDFFF) := by omega
    have noHigh : ¬ (0xD800 ≤ c.toNat ∧ c.toNat ≤ 0xDBFF) := by omega
    simp only [step, inString, hexValue?_hexDigit (show c.toNat % 16 < 16 by omega),
      Option.map_some, value, if_true, appendUnit, if_neg noLow, if_neg noHigh, append,
      Option.isSome_none, Bool.false_eq_true, if_false, Char.ofNat_toNat]
  rw [lexed_step slash, lexed_step mark, lexed_step first, lexed_step second, lexed_step third,
    lexed_step fourth]
  rfl

theorem lexed_escaped (c : Char) (chars : List Char) (read : List Token) (rest : List Symbol) :
    lexed (some (.string (some chars) none .plain, read)) ((escaped c).map some ++ rest) =
      lexed (some (.string (some (c :: chars)) none .plain, read)) rest := by
  rw [escaped]
  by_cases quote : c = '"'
  · subst quote
    exact lexed_shortEscape rfl (by decide) chars read rest
  by_cases slash : c = '\\'
  · subst slash
    exact lexed_shortEscape rfl (by decide) chars read rest
  by_cases back : c = '\x08'
  · subst back
    exact lexed_shortEscape rfl (by decide) chars read rest
  by_cases form : c = '\x0c'
  · subst form
    exact lexed_shortEscape rfl (by decide) chars read rest
  by_cases line : c = '\n'
  · subst line
    exact lexed_shortEscape rfl (by decide) chars read rest
  by_cases carriage : c = '\r'
  · subst carriage
    exact lexed_shortEscape rfl (by decide) chars read rest
  by_cases tab : c = '\t'
  · subst tab
    exact lexed_shortEscape rfl (by decide) chars read rest
  simp only [quote, slash, back, form, line, carriage, tab, if_false]
  by_cases control : c.toNat < 0x20
  · rw [if_pos control]
    exact lexed_unitEscape c control chars read rest
  · have plain : step (.string (some chars) none .plain) (some c) =
        some (.string (some (c :: chars)) none .plain, []) := by
      simp [step, inString, quote, slash, control, append]
    rw [if_neg control, List.map_singleton, List.singleton_append, lexed_step plain]
    rfl

theorem lexed_characters (text chars : List Char) (read : List Token) (rest : List Symbol) :
    lexed (some (.string (some chars) none .plain, read))
        ((text.flatMap escaped).map some ++ rest) =
      lexed (some (.string (some (text.reverse ++ chars)) none .plain, read)) rest := by
  induction text generalizing chars with
  | nil => rfl
  | cons c text ih =>
      rw [List.flatMap_cons, List.map_append, List.append_assoc, lexed_escaped, ih]
      simp

theorem lexed_quoted (s : String) (read : List Token) (rest : List Symbol) :
    lexed (some (.between, read)) (quoted s ++ rest) =
      lexed (some (.between, .text s :: read)) rest := by
  have opened : begin (some '"') = some (.string (some []) none .plain, []) := rfl
  have closed : step (.string (some (s.toList.reverse ++ [])) none .plain) (some '"') =
      some (.between, [.text s]) := by
    simp [step, inString]
  rw [quoted, List.cons_append, lexed_begin opened, List.append_assoc]
  simp only [List.reverse_nil, List.nil_append]
  rw [lexed_characters, List.singleton_append, lexed_step closed]
  rfl

end Needle.Json
