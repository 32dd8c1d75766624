import Needle.Json.Reader

/-!
# Rules as they are reported

A `Rule` is the record of one satisfied rule. Its metadata are pairs in the order in which their
keys came first; `insertMeta` replaces the value of a known key where it stands. An `Event` is what
an engine reports: there a key may stand repeatedly, and `Event.toRule` keeps its last value at its
first place.
-/
set_option autoImplicit false

namespace Needle

inductive MetaValue where
  | integer (i : Int64)
  | boolean (b : Bool)
  | text (s : String)
deriving DecidableEq

namespace MetaValue

def display : MetaValue → String
  | .integer i => Decimal.ofInt i.toInt
  | .boolean b => if b then "true" else "false"
  | .text s => s

def toJson : MetaValue → Json
  | .integer i => .int i.toInt
  | .boolean b => .bool b
  | .text s => .text s

/-- An integer of 64 bits, a boolean or a text; nothing else is a metadata value. -/
def ofJson? : Json → Option MetaValue
  | .bool b => some (.boolean b)
  | .text s => some (.text s)
  | v => (v.asInt? (-9223372036854775808) 9223372036854775807).map fun i => .integer (.ofInt i)

end MetaValue

structure Rule where
  identifier : String
  ns : String
  tags : List String := []
  metadata : List (String × MetaValue) := []
deriving DecidableEq

namespace Rule

def meta? (r : Rule) (key : String) : Option MetaValue :=
  r.metadata.lookup key

/-- The pairs with a key set: in place where it is known, at the end where it is new. -/
def setMeta (key : String) (value : MetaValue) :
    List (String × MetaValue) → List (String × MetaValue)
  | [] => [(key, value)]
  | (k, v) :: rest =>
    if k = key then (k, value) :: rest else (k, v) :: setMeta key value rest

def insertMeta (r : Rule) (key : String) (value : MetaValue) : Rule :=
  { r with metadata := setMeta key value r.metadata }

def hasTag (r : Rule) (tag : String) : Bool :=
  r.tags.contains tag

def qualifiedName (r : Rule) : String :=
  r.ns ++ ":" ++ r.identifier

def display (r : Rule) : String :=
  if r.tags.isEmpty then r.qualifiedName
  else r.qualifiedName ++ " [" ++ ",".intercalate r.tags ++ "]"

def fieldNames : List String := ["identifier", "namespace", "tags", "metadata"]

def pairToJson (pair : String × MetaValue) : Json :=
  .arr [.text pair.1, pair.2.toJson]

def pairOfJson? : Json → Option (String × MetaValue)
  | .arr [key, value] => do
    let key ← key.asText?
    let value ← MetaValue.ofJson? value
    pure (key, value)
  | _ => none

def toJson (r : Rule) : Json :=
  .record [("identifier", .text r.identifier), ("namespace", .text r.ns),
    ("tags", .arr (r.tags.map .text)), ("metadata", .arr (r.metadata.map pairToJson))]

/-- All four fields are required. -/
def ofJson? (v : Json) : Option Rule :=
  match v.fullRecord? fieldNames with
  | some [identifier, name, tags, metadata] => do
    let identifier ← identifier.asText?
    let name ← name.asText?
    let tags ← tags.asList? Json.asText?
    let metadata ← metadata.asList? pairOfJson?
    pure ⟨identifier, name, tags, metadata⟩
  | _ => none

end Rule

structure Event where
  identifier : String
  ns : String
  tags : List String := []
  metadata : List (String × MetaValue) := []
deriving DecidableEq

def Event.toRule (e : Event) : Rule :=
  e.metadata.foldl (fun r pair => r.insertMeta pair.1 pair.2) ⟨e.identifier, e.ns, e.tags, []⟩

end Needle
