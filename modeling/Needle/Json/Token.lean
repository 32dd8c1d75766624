import Needle.Json.Value

/-!
# JSON tokens

The tokens of a text, by a machine that reads one symbol at a time. Blanks between tokens are the
space, the tabulator, the line feed and the carriage return. A number ends where the next symbol
cannot extend it, and that symbol is read again between tokens. A string may hold broken symbols and
lone surrogates: it then is the token `broken`.
-/
set_option autoImplicit false

namespace Needle.Json

inductive Token where
  | openArray
  | closeArray
  | openObject
  | closeObject
  | colon
  | comma
  | null
  | bool (b : Bool)
  | int (i : Int)
  | fraction
  | text (s : String)
  | broken

/-- How far a number has come: after the sign, a leading zero, digits, the point, digits of the
fraction, the exponent mark, its sign, its digits. -/
inductive Phase where
  | sign
  | zero
  | whole
  | point
  | decimals
  | mark
  | markSign
  | exponent

inductive Escape where
  | plain
  | slash
  | digits (count value : Nat)

/-- Where the machine is. The characters of a string are kept last first, and are `none` once it
denotes no text; `high` is a high surrogate that waits for its partner. -/
inductive Lexing where
  | between
  | word (left : List Char) (token : Token)
  | number (negative : Bool) (phase : Phase) (value : Nat)
  | string (chars : Option (List Char)) (high : Option Nat) (escape : Escape)

def hexValue? (c : Char) : Option Nat :=
  let n := c.toNat
  if 48 ≤ n ∧ n ≤ 57 then some (n - 48)
  else if 97 ≤ n ∧ n ≤ 102 then some (n - 87)
  else if 65 ≤ n ∧ n ≤ 70 then some (n - 55)
  else none

def digitValue? (c : Char) : Option Nat :=
  if c.isDigit then some (c.toNat - 48) else none

def shortEscape? : Char → Option Char
  | '"' => some '"'
  | '\\' => some '\\'
  | '/' => some '/'
  | 'b' => some '\x08'
  | 'f' => some '\x0c'
  | 'n' => some '\n'
  | 'r' => some '\r'
  | 't' => some '\t'
  | _ => none

/-- A symbol between tokens: where the machine goes, and the token that the symbol itself is. -/
def begin : Symbol → Option (Lexing × List Token)
  | none => none
  | some c =>
    match c with
    | ' ' | '\t' | '\n' | '\r' => some (.between, [])
    | '[' => some (.between, [.openArray])
    | ']' => some (.between, [.closeArray])
    | '{' => some (.between, [.openObject])
    | '}' => some (.between, [.closeObject])
    | ':' => some (.between, [.colon])
    | ',' => some (.between, [.comma])
    | '"' => some (.string (some []) none .plain, [])
    | 'n' => some (.word ['u', 'l', 'l'] .null, [])
    | 't' => some (.word ['r', 'u', 'e'] (.bool true), [])
    | 'f' => some (.word ['a', 'l', 's', 'e'] (.bool false), [])
    | '-' => some (.number true .sign 0, [])
    | '0' => some (.number false .zero 0, [])
    | c => (digitValue? c).map fun d => (.number false .whole d, [])

def numberToken (negative : Bool) (phase : Phase) (value : Nat) : Option Token :=
  match phase with
  -- `-0` is no integer.
  | .zero => some (if negative then .fraction else .int 0)
  | .whole => some (.int (if negative then -(value : Int) else value))
  | .decimals | .exponent => some .fraction
  | .sign | .point | .mark | .markSign => none

def extend (phase : Phase) (value : Nat) (c : Char) : Option (Phase × Nat) :=
  match phase with
  | .sign =>
    if c = '0' then some (.zero, 0) else (digitValue? c).map fun d => (.whole, d)
  | .zero =>
    if c = '.' then some (.point, value)
    else if c = 'e' ∨ c = 'E' then some (.mark, value) else none
  | .whole =>
    if c = '.' then some (.point, value)
    else if c = 'e' ∨ c = 'E' then some (.mark, value)
    else (digitValue? c).map fun d => (.whole, value * 10 + d)
  | .point => (digitValue? c).map fun _ => (.decimals, value)
  | .decimals =>
    if c = 'e' ∨ c = 'E' then some (.mark, value)
    else (digitValue? c).map fun _ => (.decimals, value)
  | .mark =>
    if c = '+' ∨ c = '-' then some (.markSign, value)
    else (digitValue? c).map fun _ => (.exponent, value)
  | .markSign | .exponent => (digitValue? c).map fun _ => (.exponent, value)

def append (chars : Option (List Char)) (high : Option Nat) (c : Char) : Lexing :=
  -- A high surrogate that still waits for its partner spoils the string.
  .string (if high.isSome then none else chars.map (c :: ·)) none .plain

/-- A code unit written as `\u` and four digits. A high surrogate waits for a low one; each without
the other spoils the string. -/
def appendUnit (chars : Option (List Char)) (high : Option Nat) (unit : Nat) : Lexing :=
  if 0xDC00 ≤ unit ∧ unit ≤ 0xDFFF then
    match high with
    | some h =>
      let c := Char.ofNat (0x10000 + (h - 0xD800) * 0x400 + (unit - 0xDC00))
      .string (chars.map (c :: ·)) none .plain
    | none => .string none none .plain
  else if 0xD800 ≤ unit ∧ unit ≤ 0xDBFF then
    .string (if high.isSome then none else chars) (some unit) .plain
  else append chars high (Char.ofNat unit)

def inString (chars : Option (List Char)) (high : Option Nat) (escape : Escape) (s : Symbol) :
    Option (Lexing × List Token) :=
  match escape, s with
  | .plain, none => some (.string none none .plain, [])
  | .plain, some c =>
    if c = '"' then
      match high, chars with
      | none, some chars => some (.between, [.text (String.ofList chars.reverse)])
      | _, _ => some (.between, [.broken])
    else if c = '\\' then some (.string chars high .slash, [])
    else if c.toNat < 0x20 then none
    else some (append chars high c, [])
  | _, none => none
  | .slash, some c =>
    if c = 'u' then some (.string chars high (.digits 0 0), [])
    else (shortEscape? c).map fun c => (append chars high c, [])
  | .digits count value, some c =>
    (hexValue? c).map fun d =>
      let value := value * 16 + d
      if count = 3 then (appendUnit chars high value, [])
      else (.string chars high (.digits (count + 1) value), [])

def step : Lexing → Symbol → Option (Lexing × List Token)
  | .between, s => begin s
  | .word [] _, _ => none
  | .word (c :: left) token, s =>
    if s = some c then
      some (if left.isEmpty then (.between, [token]) else (.word left token, []))
    else none
  | .number negative phase value, s =>
    match s.bind (extend phase value) with
    | some (phase, value) => some (.number negative phase value, [])
    | none => do
      let token ← numberToken negative phase value
      let (next, tokens) ← begin s
      pure (next, token :: tokens)
  | .string chars high escape, s => inString chars high escape s

def finish : Lexing → Option (List Token)
  | .between => some []
  | .number negative phase value => (numberToken negative phase value).map ([·])
  | _ => none

def advance (state : Option (Lexing × List Token)) (s : Symbol) : Option (Lexing × List Token) :=
  state.bind fun (lexing, read) =>
    (step lexing s).map fun (next, tokens) => (next, tokens.reverse ++ read)

def tokens? (text : List Symbol) : Option (List Token) :=
  (text.foldl advance (some (.between, []))).bind fun (lexing, read) =>
    (finish lexing).map fun last => read.reverse ++ last

end Needle.Json
