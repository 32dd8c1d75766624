import Needle.Command.Compile
import Needle.Proofs.Client.Files
import Needle.Proofs.Client.History
import Needle.Proofs.RuleSet.RoundTrip

/-!
# A command and its engine

A command starts an engine of its own and stops it in the end. As long as it goes on, its owner
holds the engine, with what the command has made; when all of that is given up, the engine can be
stopped, so a command ends with what its body came to.
-/
set_option autoImplicit false

namespace Needle

open Host

namespace Owner

/-- A host on which a command has an engine, and what these keys stand for. -/
structure Serves (r : Owner) (keys : List (Nat × Resource)) (h : Host) : Prop where
  attended : h.Attended [r.slot] keys
  faults : (h.engine r.slot).faults = {}

variable {r : Owner} {keys left : List (Nat × Resource)} {h after : Host}

theorem Serves.started (serves : r.Serves keys h) : r.slot < h.engines.length := by
  obtain ⟨slot, start, busy⟩ := serves.attended.of_owner List.mem_cons_self
  exact (List.getElem?_eq_some_iff.mp busy.found).1

theorem Serves.genuine (serves : r.Serves keys h) : (h.engine r.slot).faults.Genuine := by
  rw [serves.faults]
  exact rfl

theorem Serves.later (serves : r.Serves keys h) (precedes : h.Precedes after)
    (attended : after.Attended [r.slot] left) : r.Serves left after := by
  obtain ⟨calls, passes⟩ := precedes.passes r.slot serves.started
  exact ⟨attended, passes.faults.trans serves.faults⟩

theorem Serves.finalize_ok (serves : r.Serves [] h) : (r.finalize h).1 = .ok () := by
  obtain ⟨slot, start, busy⟩ := serves.attended.of_owner List.mem_cons_self
  have holders : slot.holders = 1 := by
    rw [busy.tended.holders, List.count_cons_self]
    rfl
  have running := (busy.tended.runs busy.busy).2.1
  have stops : (h.call r.slot Engine.stop).1 = Code.success := by
    rw [(changes_call busy.found Engine.stop).1, ← engine_of_found busy.found]
    exact congrArg Faults.stop serves.faults
  unfold finalize Host.stop
  rw [slot_of_found busy.found, if_pos holders, running, if_neg Bool.false_ne_true]
  dsimp only
  rw [stops]
  rfl

/-- A rule set that a command has made. -/
structure Holds (r : Owner) (s : RuleSet) (patterns : List Pattern) (h : Host) : Prop where
  serves : r.Serves [s.key] h
  slot : s.slot = r.slot
  patterns : s.patterns? h = some patterns

theorem Serves.literal (serves : r.Serves keys h) : (h.engine r.slot).Literal :=
  ⟨congrArg Faults.save serves.faults, congrArg Faults.load serves.faults,
    congrArg Faults.scan serves.faults⟩

theorem Holds.literal {s : RuleSet} {patterns : List Pattern} (holds : r.Holds s patterns h) :
    (h.engine s.slot).Literal :=
  holds.slot ▸ holds.serves.literal

theorem Serves.saves {s : RuleSet} (serves : r.Serves [s.key] h) (path : Path) :
    r.Serves [s.key] (s.save path h).2 :=
  serves.later (s.precedes_save path h)
    (s.attended_save serves.attended List.mem_cons_self path)

theorem Serves.drops {s : RuleSet} (serves : r.Serves [s.key] h) : r.Serves [] (s.drop h) :=
  serves.later (s.precedes_drop h) (s.attended_drop serves.attended)

theorem Serves.destroys {s : RuleSet} (serves : r.Serves [s.key] h) : ∃ ended,
    s.destroy h = (.ok (), ended) ∧ r.Serves [] ended ∧ ended.files = h.files := by
  obtain ⟨success, attended⟩ := s.attended_destroy serves.attended
  exact ⟨_, Prod.ext success rfl, serves.later (s.precedes_destroy h) attended, s.files_destroy h⟩

theorem serves_start (bare : h.engines = []) : ∃ begun,
    Owner.start {} h = (.ok ⟨0⟩, begun) ∧ Serves ⟨0⟩ [] begun ∧
      begun.files = h.files ∧ (begun.engine 0).last = 0 := by
  have nobody : h.Attended [] [] := by
    intro i
    rw [bare]
    exact ⟨rfl, rfl⟩
  obtain ⟨begun, started⟩ := start_eq {} h
  obtain ⟨ok, engines⟩ : Owner.start {} h = (.ok ⟨0⟩, begun) ∧ begun.engines = [began {} 1] := by
    rw [bare] at started
    exact started
  have engine : begun.engine 0 = (began {} 1).engine := by
    unfold Host.engine Host.slot
    rw [engines]
    rfl
  have attended : begun.Attended [0] [] := by
    rcases attended_start nobody 0 0 0 with ⟨r, after, answer, held⟩ | ⟨e, after, answer, _⟩
    · cases ok.symm.trans answer
      exact held
    · cases ok.symm.trans answer
  refine ⟨begun, ok, ⟨attended, ?_⟩, ?_, ?_⟩
  · rw [engine]
    rfl
  · have files := files_start {} h
    rw [ok] at files
    exact files
  · rw [engine]
    rfl

end Owner

namespace Program

theorem destroyAfter_eq {r : Owner} {s : RuleSet} {h : Host} (serves : r.Serves [s.key] h)
    (text : String) : ∃ ended, destroyAfter text s h = (⟨text, none⟩, ended) ∧
      r.Serves [] ended ∧ ended.files = h.files := by
  obtain ⟨ended, destroyed, idle, files⟩ := serves.destroys
  refine ⟨ended, ?_, idle, files⟩
  unfold destroyAfter
  rw [destroyed]

/-- A command comes to what its body comes to, if that gives everything up again. -/
theorem withOwner_eq {h : Host} (bare : h.engines = []) {body : Owner → Host → Outcome × Host}
    {outcome : Outcome} {files : FileTree}
    (comes : ∀ begun, Owner.Serves ⟨0⟩ [] begun → begun.files = h.files →
      (begun.engine 0).last = 0 → ∃ ended, body ⟨0⟩ begun = (outcome, ended) ∧
        Owner.Serves ⟨0⟩ [] ended ∧ ended.files = files) :
    ∃ after, withOwner h body = (outcome, after) ∧ after.files = files := by
  obtain ⟨begun, started, serves, same, first⟩ := Owner.serves_start bare
  obtain ⟨ended, came, idle, still⟩ := comes begun serves same first
  obtain ⟨text, failure⟩ := outcome
  unfold withOwner
  rw [started]
  dsimp only
  rw [came]
  cases failure with
  | some e => exact ⟨_, rfl, (files_release _ _).trans still⟩
  | none =>
      have result := idle.finalize_ok
      have kept := Owner.files_finalize ⟨0⟩ ended
      dsimp only
      generalize Owner.finalize ⟨0⟩ ended = answer at result kept
      obtain ⟨_ | _, final⟩ := answer
      · contradiction
      · exact ⟨final, rfl, kept.trans still⟩

end Program

end Needle
