import Needle.Text.Decimal
import Needle.Text.Utf8

/-!
# JSON values and their written forms

A value keeps the order and repetition of its fields. Two constructors stand for tokens that are
correct JSON but hold nothing this library uses: `fraction` for a number that is not written as a
plain integer, and `broken` for a string that denotes no text (a lone surrogate, or bytes that are
no UTF-8). A key that denotes no text is `none`.

There are two written forms: `compact` without blanks, and `pretty` with two blanks per level. Where
a value has no written form the symbol `none` stands in the output, so a writer knows how far it
gets.
-/
set_option autoImplicit false

namespace Needle

inductive Json where
  | null
  | bool (b : Bool)
  | int (i : Int)
  | fraction
  | text (s : String)
  | broken
  | arr (items : List Json)
  | obj (fields : List (Option String × Json))

namespace Json

def hexDigit (n : Nat) : Char :=
  if n < 10 then Char.ofNat (48 + n) else Char.ofNat (87 + n)

/-- A quote, a backslash and the control characters below U+0020 are escaped, nothing else. -/
def escaped (c : Char) : List Char :=
  if c = '"' then ['\\', '"']
  else if c = '\\' then ['\\', '\\']
  else if c = '\x08' then ['\\', 'b']
  else if c = '\x0c' then ['\\', 'f']
  else if c = '\n' then ['\\', 'n']
  else if c = '\r' then ['\\', 'r']
  else if c = '\t' then ['\\', 't']
  else if c.toNat < 0x20 then
    ['\\', 'u', '0', '0', hexDigit (c.toNat / 16), hexDigit (c.toNat % 16)]
  else [c]

def quoted (s : String) : List Symbol :=
  some '"' :: ((s.toList.flatMap escaped).map some ++ [some '"'])

def word (s : String) : List Symbol :=
  s.toList.map some

def scalar : Json → List Symbol
  | .null => word "null"
  | .bool b => if b then word "true" else word "false"
  | .int i => (Decimal.charsOfInt i).map some
  | .text s => quoted s
  -- What has no written form is a symbol that is missing.
  | _ => [none]

def keyText : Option String → List Symbol
  | some key => quoted key
  | none => [none]

mutual

def compact : Json → List Symbol
  | .arr items => some '[' :: (compactItems items ++ [some ']'])
  | .obj fields => some '{' :: (compactFields fields ++ [some '}'])
  | v => scalar v

def compactItems : List Json → List Symbol
  | [] => []
  | [v] => compact v
  | v :: rest => compact v ++ some ',' :: compactItems rest

def compactFields : List (Option String × Json) → List Symbol
  | [] => []
  | [(key, v)] => keyText key ++ some ':' :: compact v
  | (key, v) :: rest => keyText key ++ some ':' :: (compact v ++ some ',' :: compactFields rest)

end

def newline (depth : Nat) : List Symbol :=
  some '\n' :: List.replicate (2 * depth) (some ' ')

mutual

/-- The written form with one item or field a line; an empty array or object stays on its line. -/
def pretty (depth : Nat) : Json → List Symbol
  | .arr [] => [some '[', some ']']
  | .arr (v :: rest) =>
    some '[' :: (newline (depth + 1) ++ pretty (depth + 1) v ++ prettyItems depth rest)
  | .obj [] => [some '{', some '}']
  | .obj ((key, v) :: rest) =>
    some '{' :: (newline (depth + 1) ++ keyText key ++ some ':' :: some ' ' ::
      pretty (depth + 1) v ++ prettyFields depth rest)
  | v => scalar v

def prettyItems (depth : Nat) : List Json → List Symbol
  | [] => newline depth ++ [some ']']
  | v :: rest =>
    some ',' :: (newline (depth + 1) ++ pretty (depth + 1) v ++ prettyItems depth rest)

def prettyFields (depth : Nat) : List (Option String × Json) → List Symbol
  | [] => newline depth ++ [some '}']
  | (key, v) :: rest =>
    some ',' :: (newline (depth + 1) ++ keyText key ++ some ':' :: some ' ' ::
      pretty (depth + 1) v ++ prettyFields depth rest)

end

/-- What a writer puts out before it meets something that has no written form, and whether it got
to the end. -/
def written (symbols : List Symbol) : String × Bool :=
  (String.ofList ((symbols.takeWhile Option.isSome).filterMap id), symbols.all Option.isSome)

def toText (v : Json) : String :=
  (written (compact v)).1

def ofNat (n : Nat) : Json := .int n

def record (fields : List (String × Json)) : Json :=
  .obj (fields.map fun (key, v) => (some key, v))

end Json

end Needle
