/-!
# Decimal numerals

A numeral is written without leading zeros and with a `-` below zero. Reading is wider: leading
zeros are allowed, and so is either sign where the reader admits one.
-/
set_option autoImplicit false

namespace Needle.Decimal

def ofNat (n : Nat) : String :=
  String.ofList (Nat.toDigits 10 n)

def charsOfInt (i : Int) : List Char :=
  if i < 0 then '-' :: Nat.toDigits 10 i.natAbs else Nat.toDigits 10 i.natAbs

def ofInt (i : Int) : String :=
  String.ofList (charsOfInt i)

def natural? (text : List Char) : Option Nat :=
  if text.isEmpty || text.any (fun c => !c.isDigit) then none
  else some (Nat.ofDigitChars 10 text 0)

/-- The value of an optional sign before one or more ASCII digits. -/
def integer? : List Char → Option Int
  | '+' :: digits => (natural? digits).map Int.ofNat
  | '-' :: digits => (natural? digits).map (fun n => -(n : Int))
  | digits => (natural? digits).map Int.ofNat

def unsigned? : List Char → Option Nat
  | '+' :: digits => natural? digits
  | digits => natural? digits

end Needle.Decimal
