import Needle.Host

/-!
# Engines on a host

What a change of one engine's slot leaves of the others. An engine is genuine if the only answers it
is told to give are the statuses of starting, of stopping and of a scan.
-/
set_option autoImplicit false

namespace Needle

/-- Nothing that the engine does itself is replaced by a given answer. -/
def Faults.Genuine (f : Faults) : Prop :=
  f = { start := f.start, stop := f.stop, scans := f.scans }

namespace Faults.Genuine

variable {f : Faults}

theorem createCompiler (genuine : f.Genuine) : f.createCompiler = none :=
  congrArg Faults.createCompiler genuine

theorem add (genuine : f.Genuine) : f.add = none := congrArg Faults.add genuine

theorem getRules (genuine : f.Genuine) : f.getRules = none := congrArg Faults.getRules genuine

theorem load (genuine : f.Genuine) : f.load = none := congrArg Faults.load genuine

theorem save (genuine : f.Genuine) : f.save = none := congrArg Faults.save genuine

theorem destroyRules (genuine : f.Genuine) : f.destroyRules = none :=
  congrArg Faults.destroyRules genuine

theorem scan (genuine : f.Genuine) : f.scan = none := congrArg Faults.scan genuine

end Faults.Genuine

namespace Host

variable (h : Host) (i : Nat) (change : EngineSlot → EngineSlot)

theorem slot_setSlot (j : Nat) :
    (h.setSlot i change).slot j =
      if j = i ∧ i < h.engines.length then change (h.slot i) else h.slot j := by
  unfold slot setSlot
  rw [List.getD_eq_getElem?_getD, List.getD_eq_getElem?_getD, List.getD_eq_getElem?_getD,
    List.getElem?_modify]
  by_cases same : i = j
  · subst same
    by_cases started : i < h.engines.length
    · simp [started]
    · simp [started]
  · simp [same, Ne.symm same]

theorem engine_setSlot (j : Nat) :
    (h.setSlot i change).engine j =
      if j = i ∧ i < h.engines.length then (change (h.slot i)).engine else h.engine j := by
  unfold engine
  rw [slot_setSlot]
  split
  case isTrue => rfl
  case isFalse => rfl

@[simp]
theorem length_setSlot : (h.setSlot i change).engines.length = h.engines.length :=
  List.length_modify ..

end Host

end Needle
