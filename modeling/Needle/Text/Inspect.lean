import Needle.Text.Hidden

/-!
# Texts as they are shown to a developer

A text between quotes, with the quote, the backslash and whatever would not show escaped.
-/
set_option autoImplicit false

namespace Needle.Text

def hexDigits (c : Char) : List Char := Nat.toDigits 16 c.toNat

def shown (c : Char) : List Char :=
  if c = '"' then ['\\', '"']
  else if c = '\\' then ['\\', '\\']
  else if c = '\n' then ['\\', 'n']
  else if c = '\r' then ['\\', 'r']
  else if c = '\t' then ['\\', 't']
  else if c.toNat = 0 then ['\\', '0']
  else if isHidden c then ['\\', 'u', '{'] ++ hexDigits c ++ ['}']
  else [c]

def inspect (s : String) : String :=
  String.ofList ('"' :: (s.toList.flatMap shown ++ ['"']))

/-- Texts in brackets, separated by commas. -/
def inspectAll (texts : List String) : String :=
  "[" ++ ", ".intercalate (texts.map inspect) ++ "]"

end Needle.Text
