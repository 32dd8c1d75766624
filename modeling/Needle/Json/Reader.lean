import Needle.Json.Token

/-!
# Reading JSON

A value is put together from tokens by a machine with a stack of open arrays and objects, so nesting
has no limit. The text of a value may be surrounded by blanks and by nothing else.

`record?` reads a value as a record with known fields: from an object, where unknown keys are passed
over and a known key may stand once, or from an array with the fields in order.
-/
set_option autoImplicit false

namespace Needle.Json

/-- An array or object that has been opened, with what it holds so far, the last part first. -/
inductive Frame where
  | items (done : List Json)
  | fields (done : List (Option String × Json)) (key : Option String)

/-- What the machine expects: a value; the first item or the end of an array; the first key or the
end of an object; a key after a comma; the colon after a key; or what may follow the value that has
just been completed. -/
inductive Reading where
  | value (stack : List Frame)
  | firstItem (stack : List Frame)
  | firstKey (stack : List Frame)
  | key (done : List (Option String × Json)) (stack : List Frame)
  | colon (done : List (Option String × Json)) (key : Option String) (stack : List Frame)
  | after (v : Json) (stack : List Frame)

def readValue (stack : List Frame) : Token → Option Reading
  | .openArray => some (.firstItem stack)
  | .openObject => some (.firstKey stack)
  | .null => some (.after .null stack)
  | .bool b => some (.after (.bool b) stack)
  | .int i => some (.after (.int i) stack)
  | .fraction => some (.after .fraction stack)
  | .text s => some (.after (.text s) stack)
  | .broken => some (.after .broken stack)
  | _ => none

def readKey (done : List (Option String × Json)) (stack : List Frame) : Token → Option Reading
  | .text s => some (.colon done (some s) stack)
  | .broken => some (.colon done none stack)
  | _ => none

def read : Reading → Token → Option Reading
  | .value stack, t => readValue stack t
  | .firstItem stack, .closeArray => some (.after (.arr []) stack)
  | .firstItem stack, t => readValue (.items [] :: stack) t
  | .firstKey stack, .closeObject => some (.after (.obj []) stack)
  | .firstKey stack, t => readKey [] stack t
  | .key done stack, t => readKey done stack t
  | .colon done key stack, .colon => some (.value (.fields done key :: stack))
  | .after v (.items done :: stack), .comma => some (.value (.items (v :: done) :: stack))
  | .after v (.items done :: stack), .closeArray => some (.after (.arr (v :: done).reverse) stack)
  | .after v (.fields done key :: stack), .comma => some (.key ((key, v) :: done) stack)
  | .after v (.fields done key :: stack), .closeObject =>
    some (.after (.obj ((key, v) :: done).reverse) stack)
  | _, _ => none

def readAll (state : Option Reading) (tokens : List Token) : Option Reading :=
  tokens.foldl (fun state t => state.bind (read · t)) state

def complete? : Reading → Option Json
  | .after v [] => some v
  | _ => none

def ofTokens? (tokens : List Token) : Option Json :=
  (readAll (some (.value [])) tokens).bind complete?

def parse? (text : List Symbol) : Option Json :=
  (tokens? text).bind ofTokens?

def ofBytes? (bytes : Bytes) : Option Json :=
  parse? (Utf8.symbols bytes)

def ofText? (text : String) : Option Json :=
  parse? (text.toList.map some)

/-- The fields of a record as far as they are given. -/
structure Record where
  /-- Given as an array, where leaving out a field is leaving out all that follow. -/
  positional : Bool
  values : List (Option Json)

def field? (fields : List (Option String × Json)) (name : String) : Option (Option Json) :=
  match fields.filter (fun f => f.1 == some name) with
  | [] => some none
  | [(_, v)] => some (some v)
  | _ => none

def record? (names : List String) : Json → Option Record
  | .obj fields =>
    if fields.all (fun f => f.1.isSome) then
      (names.mapM (field? fields)).map fun values => ⟨false, values⟩
    else none
  | .arr items =>
    if items.length ≤ names.length then
      some ⟨true, items.map some ++ List.replicate (names.length - items.length) none⟩
    else none
  | _ => none

def fullRecord? (names : List String) (v : Json) : Option (List Json) :=
  (record? names v).bind fun r => r.values.mapM id

def asText? : Json → Option String
  | .text s => some s
  | _ => none

def asBool? : Json → Option Bool
  | .bool b => some b
  | _ => none

def asInt? (low high : Int) : Json → Option Int
  | .int i => if low ≤ i ∧ i ≤ high then some i else none
  | _ => none

def asNat? (limit : Nat) : Json → Option Nat
  | .int i => if 0 ≤ i ∧ i.toNat < limit then some i.toNat else none
  | _ => none

def asList? {α : Type} (item : Json → Option α) : Json → Option (List α)
  | .arr items => items.mapM item
  | _ => none

end Needle.Json
