import Needle.Command.Request
import Needle.Log
import Needle.Scan.Run

/-!
# Reports

What the commands have to tell at the end, as lines of text and as a JSON document. In the lines a
path is shown with U+FFFD for bytes that are no UTF-8; a JSON document has no written form for such
a path, and writing stops before it.
-/
set_option autoImplicit false

namespace Needle

structure Outcome where
  text : String := ""
  failure : Option Error := none

namespace Outcome

def ofLines (lines : List String) : Outcome :=
  ⟨String.join (lines.map (· ++ "\n")), none⟩

/-- A JSON document and the end of its last line, as far as it can be written. -/
def ofJson (v : Json) : Outcome :=
  match Json.written (v.pretty 0) with
  | (text, true) => ⟨text ++ "\n", none⟩
  | (text, false) => ⟨text, some (.other "failed to write JSON output")⟩

def fail (cause : Error) : Outcome := ⟨"", some cause⟩

end Outcome

def Path.toJson (p : Path) : Json :=
  match Utf8.decode? p.bytes with
  | some s => .text s
  | none => .broken

structure CompileReport where
  output : Option Path
  sources : Nat
  namespaces : List String
  warnings : List Diagnostic

namespace CompileReport

def toJson (r : CompileReport) : Json :=
  .record [("output", match r.output with | some p => p.toJson | none => .null),
    ("sources", .ofNat r.sources), ("namespaces", .arr (r.namespaces.map .text)),
    ("warnings", .arr (r.warnings.map Diagnostic.toJson))]

def lines (r : CompileReport) : List String :=
  let sources := Decimal.ofNat r.sources
  let result := match r.output with
    | some p => "Compiled " ++ sources ++ " file(s) into " ++ p.display
    | none => sources ++ " file(s) OK"
  r.warnings.map Diagnostic.display ++
    [result, "Namespaces:      " ++ ", ".intercalate r.namespaces,
      "Warnings:        " ++ Decimal.ofNat r.warnings.length]

def outcome (r : CompileReport) : OutputFormat → Outcome
  | .json => .ofJson r.toJson
  | .text => .ofLines r.lines

end CompileReport

structure FileReport where
  path : Path
  found : List Rule
  error : Option String
deriving DecidableEq

namespace FileReport

def toJson (r : FileReport) : Json :=
  .record ([("path", r.path.toJson), ("matches", .arr (r.found.map Rule.toJson))] ++
    match r.error with
    | some error => [("error", .text error)]
    | none => [])

def lines (r : FileReport) : List String :=
  r.found.map (fun rule => rule.display ++ " " ++ r.path.display) ++
    match r.error with
    | some error => ["error: " ++ r.path.display ++ ": " ++ error]
    | none => []

end FileReport

structure ScanReport where
  scanned : Nat := 0
  matched : Nat := 0
  skipped : Nat := 0
  errors : Nat := 0
  files : List FileReport := []
deriving DecidableEq

namespace ScanReport

def toJson (r : ScanReport) : Json :=
  .record [("files_scanned", .ofNat r.scanned), ("files_matched", .ofNat r.matched),
    ("files_skipped", .ofNat r.skipped), ("errors", .ofNat r.errors),
    ("files", .arr (r.files.map FileReport.toJson))]

def lines (r : ScanReport) : List String :=
  r.files.flatMap FileReport.lines ++
    ["", "=== Scan Complete ===",
      "Files Scanned:   " ++ Decimal.ofNat r.scanned,
      "Files Matched:   " ++ Decimal.ofNat r.matched,
      "Files Skipped:   " ++ Decimal.ofNat r.skipped,
      "Errors:          " ++ Decimal.ofNat r.errors]

def outcome (r : ScanReport) : OutputFormat → Outcome
  | .json => .ofJson r.toJson
  | .text => .ofLines r.lines

/-- Whether an error concerns one file alone; any other stops the command. -/
def concernsFile : Error → Bool
  | .scanTimeout | .fileRead .. | .engine _ => true
  | _ => false

def addFile (r : ScanReport) (path : Path) (found : List Rule) (error : Option String) :
    ScanReport :=
  { r with
    matched := r.matched + if found.isEmpty then 0 else 1
    files := if found.isEmpty && error.isNone then r.files else r.files ++ [⟨path, found, error⟩] }

/-- Takes the scan of a file into the report. A failure that concerns the file alone is told and
counted. -/
def record (r : ScanReport) (path : Path) (found : List Rule) (result : Except Error ScanSummary) :
    Except Error ScanReport :=
  match result with
  | .ok _ => .ok ({ r with scanned := r.scanned + 1 }.addFile path found none)
  | .error cause =>
    if concernsFile cause then
      .ok ({ r with errors := r.errors + 1 }.addFile path found (some cause.message))
    else .error cause

end ScanReport

end Needle
