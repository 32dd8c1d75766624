import Needle.Error
import Needle.Pattern

/-!
# Saved patterns

A saved rule set is a JSON object with a format name, a version and the patterns in order. Reading
tells three faults apart, in this order: bytes that are not of that shape, another format, another
version.
-/
set_option autoImplicit false

namespace Needle.Pattern

def formatName : String := "literal-rules"

def formatVersion : Nat := 1

def fieldNames : List String := ["namespace", "identifier", "literal", "tags", "metadata"]

def toJson (p : Pattern) : Json :=
  .record [("namespace", .text p.ns), ("identifier", .text p.identifier),
    ("literal", .text p.literal), ("tags", .arr (p.tags.map .text)),
    ("metadata", .arr (p.metadata.map Rule.pairToJson))]

def ofJson? (v : Json) : Option Pattern :=
  match v.fullRecord? fieldNames with
  | some [name, identifier, literal, tags, metadata] => do
    let name ← name.asText?
    let identifier ← identifier.asText?
    let literal ← literal.asText?
    let tags ← tags.asList? Json.asText?
    let metadata ← metadata.asList? Rule.pairOfJson?
    pure ⟨name, identifier, literal, tags, metadata⟩
  | _ => none

/-- A saved rule set as it stands, whatever its format and version. -/
structure Artifact where
  format : String
  version : Nat
  patterns : List Pattern

namespace Artifact

def fieldNames : List String := ["format", "version", "rules"]

def toJson (a : Artifact) : Json :=
  .record [("format", .text a.format), ("version", .ofNat a.version),
    ("rules", .arr (a.patterns.map Pattern.toJson))]

def ofJson? (v : Json) : Option Artifact :=
  match v.fullRecord? fieldNames with
  | some [format, version, patterns] => do
    let format ← format.asText?
    let version ← version.asNat? 4294967296
    let patterns ← patterns.asList? Pattern.ofJson?
    pure ⟨format, version, patterns⟩
  | _ => none

end Artifact

def save (patterns : List Pattern) : Bytes :=
  Utf8.encode (Artifact.toJson ⟨formatName, formatVersion, patterns⟩).toText

/-- The patterns of a saved rule set, or the status for its fault. -/
def load (content : Bytes) : Except Code (List Pattern) :=
  match (Json.ofBytes? content).bind Artifact.ofJson? with
  | none => .error Code.corruptFile
  | some a =>
    if a.format ≠ formatName then .error Code.invalidFile
    else if a.version ≠ formatVersion then .error Code.unsupportedVersion
    else .ok a.patterns

end Needle.Pattern
