import Needle.Diagnostic
import Needle.Pattern
import Needle.Text.Blank

/-!
# Rule text

One pattern a line: an identifier, a literal, and then tags `#tag` and metadata `key=value` in any
order, all separated by blanks. Lines without words and lines that begin with `//` are passed over.
An identifier stands once in its namespace. A text is taken as a whole: if one of its lines is
faulty, none of its patterns is added.
-/
set_option autoImplicit false

namespace Needle

namespace MetaValue

def minInteger : Int := -9223372036854775808

def maxInteger : Int := 9223372036854775807

/-- A numeral that 64 bits hold is an integer, `true` and `false` are booleans, all else is text. -/
def ofWord (word : List Char) : MetaValue :=
  match Decimal.integer? word with
  | some i =>
    if minInteger ≤ i ∧ i ≤ maxInteger then .integer (.ofInt i) else .text (String.ofList word)
  | none =>
    if word = ['t', 'r', 'u', 'e'] then .boolean true
    else if word = ['f', 'a', 'l', 's', 'e'] then .boolean false
    else .text (String.ofList word)

end MetaValue

namespace Pattern

inductive Clause where
  | tag (tag : String)
  | metadata (key : String) (value : MetaValue)
  | unexpected (word : String)

def Clause.ofWord (word : List Char) : Clause :=
  match word with
  | '#' :: name => .tag (String.ofList name)
  | _ =>
    match Text.cutAt '=' word with
    | some (key, value) => .metadata (String.ofList key) (MetaValue.ofWord value)
    | none => .unexpected (String.ofList word)

def Clause.tag? : Clause → Option String
  | .tag name => some name
  | _ => none

def Clause.metadata? : Clause → Option (String × MetaValue)
  | .metadata key value => some (key, value)
  | _ => none

def Clause.unexpected? : Clause → Option String
  | .unexpected word => some word
  | _ => none

/-- The text that is being read: the namespace, the file it comes from and the patterns that the
session already holds. -/
structure Source where
  ns : String
  file : Option String
  known : List Pattern

structure Progress where
  added : List Pattern := []
  diagnostics : List Diagnostic := []
  errors : Nat := 0

def Source.diagnostic (s : Source) (severity : Severity) (line : Nat) (message : String) :
    Diagnostic :=
  ⟨severity, s.file, .ofNat line, message⟩

def Source.taken (s : Source) (added : List Pattern) (identifier : String) : Bool :=
  (s.known ++ added).any fun p => p.ns == s.ns && p.identifier == identifier

/-- A line with an identifier that is free. A private rule, whose identifier begins with `_`, gives
a warning. -/
def Source.readPattern (s : Source) (p : Progress) (line : Nat) (identifier literal : List Char)
    (rest : List (List Char)) : Progress :=
  let name := String.ofList identifier
  let clauses := rest.map Clause.ofWord
  let warnings :=
    if identifier.head? = some '_' then
      [s.diagnostic .warning line ("rule \"" ++ name ++ "\" is private")]
    else []
  let faults := (clauses.filterMap Clause.unexpected?).map fun word =>
    s.diagnostic .error line ("unexpected token \"" ++ word ++ "\"")
  let diagnostics := p.diagnostics ++ warnings ++ faults
  if faults.isEmpty then
    let pattern : Pattern := ⟨s.ns, name, String.ofList literal,
      clauses.filterMap Clause.tag?, clauses.filterMap Clause.metadata?⟩
    { p with added := p.added ++ [pattern], diagnostics := diagnostics }
  else { p with diagnostics := diagnostics, errors := p.errors + 1 }

def Source.refuse (s : Source) (p : Progress) (line : Nat) (message : String) : Progress :=
  { p with
    diagnostics := p.diagnostics ++ [s.diagnostic .error line message]
    errors := p.errors + 1 }

def Source.readLine (s : Source) (p : Progress) (line : Nat) : List (List Char) → Progress
  | [] => p
  | ('/' :: '/' :: _) :: _ => p
  | [_] => s.refuse p line "syntax error"
  | identifier :: literal :: rest =>
    if s.taken p.added (String.ofList identifier) then
      s.refuse p line ("duplicated identifier \"" ++ String.ofList identifier ++ "\"")
    else s.readPattern p line identifier literal rest

def Source.read (s : Source) (text : List Char) : Progress :=
  (Text.lines text).zipIdx.foldl (fun p (line, n) => s.readLine p (n + 1) (Text.words line)) {}

end Pattern

end Needle
