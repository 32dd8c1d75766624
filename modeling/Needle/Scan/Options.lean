import Needle.Config

/-!
# Scan options

How a scan is run: in fast mode or not, and for how long. The engine gets a word of flags and a
timeout in whole seconds that fits 31 bits, where 0 means no timeout. Fractions of a second are
rounded up in the 64 bits of the seconds. The addition is checked: what asks for the whole seconds of
a timeout above the greatest number of seconds dies of it.
-/
set_option autoImplicit false

namespace Needle

def additionOverflow : String := "attempt to add with overflow"

/-- The sum of two words, or what the addition dies of if no word is so great. -/
def checkedAdd (a b : UInt64) : Except String UInt64 :=
  if a.toNat + b.toNat < wordSize then .ok (a + b) else .error additionOverflow

/-- A span of time: whole seconds in 64 bits and nanoseconds below one second. -/
structure Duration where
  seconds : UInt64
  nanos : Nat
  nanos_lt : nanos < 1000000000 := by decide
deriving DecidableEq

namespace Duration

def ofSeconds (seconds : UInt64) : Duration := ⟨seconds, 0, by decide⟩

def isZero (d : Duration) : Bool := d.seconds == 0 && d.nanos == 0

def ceilSeconds (d : Duration) : Except String UInt64 :=
  checkedAdd d.seconds (if d.nanos = 0 then 0 else 1)

def fractionText (value places : Nat) : String :=
  let digits := Nat.toDigits 10 value
  let padded := List.replicate (places - digits.length) '0' ++ digits
  let kept := (padded.reverse.dropWhile (· == '0')).reverse
  if kept.isEmpty then "" else "." ++ String.ofList kept

def display (d : Duration) : String :=
  if d.seconds ≠ 0 then Decimal.ofNat d.seconds.toNat ++ fractionText d.nanos 9 ++ "s"
  else if 1000000 ≤ d.nanos then
    Decimal.ofNat (d.nanos / 1000000) ++ fractionText (d.nanos % 1000000) 6 ++ "ms"
  else if 1000 ≤ d.nanos then
    Decimal.ofNat (d.nanos / 1000) ++ fractionText (d.nanos % 1000) 3 ++ "µs"
  else Decimal.ofNat d.nanos ++ "ns"

end Duration

structure ScanOptions where
  fastMode : Bool := false
  timeout : Option Duration := none
deriving DecidableEq

namespace ScanOptions

def configuredTimeout (c : ScanConfig) : Option Duration :=
  if c.timeoutSecs = 0 then none else some (.ofSeconds c.timeoutSecs)

def ofConfig (c : ScanConfig) : ScanOptions :=
  ⟨c.fastMode, configuredTimeout c⟩

def flags (o : ScanOptions) : Nat := if o.fastMode then 1 else 0

/-- The timeout as the engine counts it, or what its conversion dies of. -/
def timeoutSecs (o : ScanOptions) : Except String Nat :=
  match o.timeout with
  | none => .ok 0
  | some d =>
    if d.isZero then .ok 0
    else d.ceilSeconds.map fun seconds => min seconds.toNat Config.maxTimeout

end ScanOptions

end Needle
