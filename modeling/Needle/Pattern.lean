import Needle.Rule

/-!
# Literal patterns

A pattern is a compiled rule: it is satisfied by every buffer in which its literal occurs. The empty
literal occurs everywhere.
-/
set_option autoImplicit false

namespace Needle

structure Pattern where
  ns : String
  identifier : String
  literal : String
  tags : List String := []
  metadata : List (String × MetaValue) := []
deriving DecidableEq

def occurs (needle : Bytes) : Bytes → Bool
  | [] => needle.isEmpty
  | b :: rest => needle.isPrefixOf (b :: rest) || occurs needle rest

namespace Pattern

def matchesData (data : Bytes) (p : Pattern) : Bool :=
  occurs (Utf8.encode p.literal) data

def toEvent (p : Pattern) : Event :=
  ⟨p.identifier, p.ns, p.tags, p.metadata⟩

/-- The events of the patterns that a buffer satisfies, in the order of the patterns. -/
def events (data : Bytes) (patterns : List Pattern) : List Event :=
  (patterns.filter (matchesData data)).map toEvent

end Pattern

end Needle
