/-!
# UTF-8 text

Bytes are read one at a time by a machine that is either between characters or owes up to three
continuation bytes. A sequence that breaks off gives one `none` for the bytes it had consumed, and
the byte that broke it is read again from the start, so every broken sequence is one symbol and no
byte is lost. `decode?` accepts exactly the sequences without a `none`; `lossy` writes U+FFFD for
each of them.
-/
set_option autoImplicit false

namespace Needle

abbrev Bytes := List UInt8

/-- One character of a text, or `none` where the bytes are no UTF-8. -/
abbrev Symbol := Option Char

namespace Utf8

/-- A character that has begun: its bits so far, the range of the next byte, and how many bytes
follow that one. -/
structure Pending where
  value : Nat
  low : UInt8
  high : UInt8
  owed : Nat

inductive Opening where
  | whole (c : Char)
  | begun (p : Pending)
  | stray

/-- The ranges after `E0`, `ED`, `F0` and `F4` leave out overlong forms, surrogates and code points
past the last. -/
def opening (b : UInt8) : Opening :=
  if b < 0x80 then .whole (Char.ofNat b.toNat)
  else if b < 0xC2 then .stray
  else if b < 0xE0 then .begun ⟨b.toNat - 0xC0, 0x80, 0xBF, 0⟩
  else if b < 0xF0 then
    .begun ⟨b.toNat - 0xE0, if b = 0xE0 then 0xA0 else 0x80, if b = 0xED then 0x9F else 0xBF, 1⟩
  else if b < 0xF5 then
    .begun ⟨b.toNat - 0xF0, if b = 0xF0 then 0x90 else 0x80, if b = 0xF4 then 0x8F else 0xBF, 2⟩
  else .stray

structure Machine where
  read : List Symbol
  pending : Option Pending

def Machine.enter (read : List Symbol) (b : UInt8) : Machine :=
  match opening b with
  | .whole c => ⟨some c :: read, none⟩
  | .begun p => ⟨read, some p⟩
  | .stray => ⟨none :: read, none⟩

def Machine.step (m : Machine) (b : UInt8) : Machine :=
  match m.pending with
  | none => Machine.enter m.read b
  | some p =>
    if p.low ≤ b ∧ b ≤ p.high then
      let value := p.value * 64 + (b.toNat - 0x80)
      match p.owed with
      | 0 => ⟨some (Char.ofNat value) :: m.read, none⟩
      | owed + 1 => ⟨m.read, some ⟨value, 0x80, 0xBF, owed⟩⟩
    else
      Machine.enter (none :: m.read) b

def Machine.finish (m : Machine) : List Symbol :=
  match m.pending with
  | none => m.read.reverse
  -- The end of the text cuts off the character that has begun.
  | some _ => (none :: m.read).reverse

def symbols (bytes : Bytes) : List Symbol :=
  (bytes.foldl Machine.step ⟨[], none⟩).finish

def chars? (text : List Symbol) : Option (List Char) :=
  if text.all Option.isSome then some (text.filterMap id) else none

def encode (text : String) : Bytes :=
  text.toList.flatMap String.utf8EncodeChar

def decode? (bytes : Bytes) : Option String :=
  (chars? (symbols bytes)).map String.ofList

def replacement : Char := '\uFFFD'

def lossy (bytes : Bytes) : String :=
  String.ofList ((symbols bytes).map (·.getD replacement))

end Utf8

end Needle
