/-!
# Log levels

The levels in the order of how much they let through, from `off` to `trace`.
-/
set_option autoImplicit false

namespace Needle

inductive Level where
  | off
  | error
  | warn
  | info
  | debug
  | trace
deriving DecidableEq

namespace Level

def rank : Level → Nat
  | .off => 0
  | .error => 1
  | .warn => 2
  | .info => 3
  | .debug => 4
  | .trace => 5

def label : Level → String
  | .off => "OFF"
  | .error => "ERROR"
  | .warn => "WARN"
  | .info => "INFO"
  | .debug => "DEBUG"
  | .trace => "TRACE"

def name : Level → String
  | .off => "Off"
  | .error => "Error"
  | .warn => "Warn"
  | .info => "Info"
  | .debug => "Debug"
  | .trace => "Trace"

def admits (l record : Level) : Bool := record.rank ≤ l.rank

/-- The small form of an ASCII capital. No letter outside ASCII has a small form that occurs in the
name of a level, so no other folding can matter here. -/
def fold (c : Char) : Char := c.toLower

def ofName? (name : String) : Option Level :=
  match String.ofList (name.toList.map fold) with
  | "trace" => some .trace
  | "debug" => some .debug
  | "info" => some .info
  | "warn" | "warning" => some .warn
  | "error" => some .error
  | "off" => some .off
  | _ => none

end Level

end Needle
