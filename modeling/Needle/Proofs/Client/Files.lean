import Needle.Compiler

/-!
# What leaves the files alone

An engine is started and stopped, a compiler or a rule set is made and given up without any change
to a file.
-/
set_option autoImplicit false

namespace Needle

namespace Host

theorem files_stop (h : Host) (i : Nat) : (h.stop i).2.files = h.files := by
  unfold stop
  split
  · rfl
  · dsimp only
    split
    · rfl
    · rfl

theorem files_release (h : Host) (i : Nat) : (h.release i).files = h.files := by
  have stopped := (h.setSlot i fun s => { s with holders := s.holders - 1 }).files_stop i
  unfold release
  dsimp only
  split
  · split
    case h_1 ended => rw [ended] at stopped; exact stopped
    case h_2 ended => rw [ended] at stopped; exact stopped
  · rfl

end Host

namespace Owner

theorem files_start (faults : Faults) (h : Host) : (Owner.start faults h).2.files = h.files := by
  unfold start
  dsimp only
  split
  · rfl
  · rfl

theorem files_finalize (r : Owner) (h : Host) : (r.finalize h).2.files = h.files := by
  unfold finalize
  split
  · exact h.files_stop r.slot
  · exact h.files_release r.slot

end Owner

namespace Compiler

theorem files_create (r : Owner) (h : Host) : (create r h).2.files = h.files := by
  unfold create
  split
  case h_1 called => exact congrArg (·.2.files) called.symm
  case h_2 called => exact congrArg (·.2.files) called.symm

theorem files_drop (c : Compiler) (h : Host) : (c.drop h).files = h.files :=
  Host.files_release _ c.slot

theorem files_finish (c : Compiler) (h : Host) : (c.finish h).2.files = h.files := by
  unfold finish
  split
  · rfl
  · split
    · rfl
    · split
      case h_1 called => exact congrArg (·.2.files) called.symm
      case h_2 called => exact congrArg (·.2.files) called.symm

theorem files_rules (c : Compiler) (h : Host) : (c.rules h).2.files = h.files :=
  (c.files_drop _).trans (c.files_finish h)

end Compiler

namespace RuleSet

theorem files_destroy (s : RuleSet) (h : Host) : (s.destroy h).2.files = h.files :=
  Host.files_release _ s.slot

theorem files_drop (s : RuleSet) (h : Host) : (s.drop h).files = h.files := by
  unfold drop
  dsimp only
  rw [Host.files_release]
  split
  · rfl
  · rfl

end RuleSet

end Needle
