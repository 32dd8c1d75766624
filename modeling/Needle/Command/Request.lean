import Needle.Error
import Needle.Text.Blank

/-!
# Requests

What a command line asks for. A request holds nothing that a command could not work with: a scan has
one origin of its rules, never two and never none.
-/
set_option autoImplicit false

namespace Needle

inductive OutputFormat where
  | text
  | json
deriving DecidableEq

inductive RuleOrigin where
  | sources (arguments : List String)
  | saved (path : Path)
deriving DecidableEq

structure ScanRequest where
  origin : RuleOrigin
  targets : List Path
  /-- Whether directories are entered below the targets themselves. -/
  deep : Bool
  fast : Bool
  /-- Seconds. -/
  timeout : Option UInt64
  firstMatch : Bool
  tag : Option String
deriving DecidableEq

inductive ConfigAction where
  | display
  | reset (confirmed : Bool)
  | path
deriving DecidableEq

inductive Command where
  | compile (rules : List String) (ns : Option String) (output : Path)
  | scan (request : ScanRequest)
  | check (rules : List String)
  | config (action : ConfigAction)
  | info
deriving DecidableEq

structure Request where
  verbose : Bool := false
  format : Option OutputFormat := none
  config : Option Path := none
  command : Option Command := none
deriving DecidableEq

structure RuleSource where
  ns : String
  path : Path
deriving DecidableEq

namespace RuleSource

/-- A single letter before a slash or backslash names a drive and no namespace. -/
def isDrive (before after : List Char) : Bool :=
  match before, after with
  | [c], first :: _ => c.toNat < 0x80 && (first == '/' || first == '\\')
  | _, _ => false

/-- The argument `namespace:path`, or a path alone, which goes into the default namespace. -/
def ofArgument (argument defaultNs : String) : Except Error RuleSource :=
  if argument.isEmpty then .error (.invalidArgument "empty rule file argument")
  else
    match Text.cutAt ':' argument.toList with
    | some (before, after) =>
      if before.isEmpty || after.isEmpty || isDrive before after then
        .ok ⟨defaultNs, .ofText argument⟩
      else .ok ⟨String.ofList before, .ofText (String.ofList after)⟩
    | none => .ok ⟨defaultNs, .ofText argument⟩

end RuleSource

end Needle
