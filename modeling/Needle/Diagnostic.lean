import Needle.Json.Reader

/-!
# Diagnostics

What the compilation of a rule text has to say about one of its lines. Lines are counted from 1 in
32 bits; line 0 stands for the text as a whole.
-/
set_option autoImplicit false

namespace Needle

inductive Severity where
  | error
  | warning
deriving DecidableEq

structure Diagnostic where
  severity : Severity
  file : Option String
  line : UInt32
  message : String
deriving DecidableEq

namespace Severity

def label : Severity → String
  | .error => "error"
  | .warning => "warning"

def ofLabel? : String → Option Severity
  | "error" => some .error
  | "warning" => some .warning
  | _ => none

/-- A label, or an object whose single key is the label and whose value is `null`. -/
def ofJson? : Json → Option Severity
  | .text s => ofLabel? s
  | .obj [(some s, .null)] => ofLabel? s
  | _ => none

end Severity

namespace Diagnostic

/-- The form `file(line): level: message`, or `line N: level: message` for a text without a file. -/
def display (d : Diagnostic) : String :=
  let line := Decimal.ofNat d.line.toNat
  let place := match d.file with
    | some file => file ++ "(" ++ line ++ ")"
    | none => "line " ++ line
  place ++ ": " ++ d.severity.label ++ ": " ++ d.message

def fieldNames : List String := ["level", "file", "line", "message"]

def toJson (d : Diagnostic) : Json :=
  .record [("level", .text d.severity.label),
    ("file", match d.file with | some file => .text file | none => .null),
    ("line", .ofNat d.line.toNat), ("message", .text d.message)]

def fileOfJson? : Option Json → Option (Option String)
  | none => some none
  | some .null => some none
  | some v => v.asText?.map some

def ofJson? (v : Json) : Option Diagnostic :=
  match v.record? fieldNames with
  | some ⟨positional, [some level, file, some line, some message]⟩ => do
    if positional && file.isNone then none
    let severity ← Severity.ofJson? level
    let file ← fileOfJson? file
    let line ← line.asNat? 4294967296
    let message ← message.asText?
    pure ⟨severity, file, .ofNat line, message⟩
  | _ => none

end Diagnostic

end Needle
