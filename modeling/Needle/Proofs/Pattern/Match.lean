import Mathlib.Data.List.Forall2
import Mathlib.Data.List.Infix
import Needle.Pattern
import Needle.Proofs.Rule.Metadata

/-!
# Which buffers satisfy a pattern

The search for a literal looks at one place after another; what it finds out is whether the literal
stands in the buffer at some place. What is reported of a buffer is a record of each pattern whose
literal it holds.
-/
set_option autoImplicit false

namespace Needle

theorem occurs_iff (needle data : Bytes) : occurs needle data = true ↔ needle <:+: data := by
  induction data with
  | nil =>
      simp [occurs]
  | cons b rest ih =>
      rw [occurs, Bool.or_eq_true, ih, List.infix_cons_iff, List.isPrefixOf_iff_prefix]

namespace Pattern

theorem matchesData_iff (data : Bytes) (p : Pattern) :
    p.matchesData data = true ↔ Utf8.encode p.literal <:+: data :=
  occurs_iff _ data

def rulesIn (data : Bytes) (patterns : List Pattern) : List Rule :=
  (patterns.filter fun p => Utf8.encode p.literal <:+: data).map fun p =>
    Event.toRule ⟨p.identifier, p.ns, p.tags, p.metadata⟩

/-- The rules are the records of the patterns, one of each. -/
def Recorded (patterns : List Pattern) (rules : List Rule) : Prop :=
  List.Forall₂ (fun p r => r.Records ⟨p.identifier, p.ns, p.tags, p.metadata⟩) patterns rules

theorem recorded_rulesIn (data : Bytes) (patterns : List Pattern) :
    Recorded (patterns.filter fun p => Utf8.encode p.literal <:+: data) (rulesIn data patterns) := by
  unfold Recorded rulesIn
  rw [List.forall₂_map_right_iff, List.forall₂_same]
  exact fun p _ => Rule.records_toRule _

theorem map_toRule_events (data : Bytes) (patterns : List Pattern) :
    (events data patterns).map Event.toRule = rulesIn data patterns := by
  have same : (fun p : Pattern => decide (Utf8.encode p.literal <:+: data)) = matchesData data := by
    funext p
    rw [Bool.eq_iff_iff, decide_eq_true_iff, matchesData_iff]
  rw [events, rulesIn, same, List.map_map]
  rfl

end Pattern

end Needle
