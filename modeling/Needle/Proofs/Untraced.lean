import Needle.Proofs.Host
import Needle.RuleSet

/-!
# Hosts without their traces

Engines keep a trace of their calls, and a host has a log. Neither is read by anything the library
does, so two hosts that differ in nothing else are the same for it. `untraced` leaves the two out.
-/
set_option autoImplicit false

namespace Needle

def Engine.untraced (e : Engine) : Engine := { e with calls := [] }

def EngineSlot.untraced (s : EngineSlot) : EngineSlot := { s with engine := s.engine.untraced }

def Host.untraced (h : Host) : Host :=
  { h with engines := h.engines.map EngineSlot.untraced, notes := [] }

namespace Host

variable (h : Host) (i : Nat)

theorem untraced_scans {h k : Host} (same : h.untraced = k.untraced) (table : ScanTable) :
    ({ h with scans := table } : Host).untraced = ({ k with scans := table } : Host).untraced :=
  congrArg (fun h : Host => { h with scans := table }) same

theorem untraced_files {h k : Host} (same : h.untraced = k.untraced) (files : FileTree) :
    ({ h with files := files } : Host).untraced = ({ k with files := files } : Host).untraced :=
  congrArg (fun h : Host => { h with files := files }) same

theorem slot_untraced : h.untraced.slot i = (h.slot i).untraced := by
  unfold untraced slot
  rw [List.getD_eq_getElem?_getD, List.getD_eq_getElem?_getD, List.getElem?_map]
  cases h.engines[i]? <;> rfl

theorem engine_untraced : h.untraced.engine i = (h.engine i).untraced :=
  congrArg EngineSlot.engine (h.slot_untraced i)

theorem untraced_setSlot (e : Engine) :
    (h.setSlot i fun s => { s with engine := e }).untraced =
      h.untraced.setSlot i fun s => { s with engine := e.untraced } := by
  have engines : (h.engines.modify i fun s => { s with engine := e }).map EngineSlot.untraced =
      (h.engines.map EngineSlot.untraced).modify i fun s => { s with engine := e.untraced } := by
    apply List.ext_getElem?
    intro j
    rw [List.getElem?_map, List.getElem?_modify, List.getElem?_modify, List.getElem?_map]
    by_cases here : i = j
    · cases h.engines[j]? <;> simp [here, EngineSlot.untraced]
    · cases h.engines[j]? <;> simp [here]
  unfold untraced setSlot
  dsimp only
  rw [engines]

theorem setSlot_engine : (h.setSlot i fun s => { s with engine := h.engine i }) = h := by
  have engines : (h.engines.modify i fun s => { s with engine := h.engine i }) = h.engines := by
    apply List.ext_getElem?
    intro j
    rw [List.getElem?_modify]
    by_cases here : i = j
    · subst here
      cases found : h.engines[i]? with
      | none => simp
      | some s =>
          have same : h.engine i = s.engine := by
            unfold engine slot
            rw [List.getD_eq_getElem?_getD, found]
            rfl
          simp [same]
    · simp [here]
  unfold setSlot
  rw [engines]

theorem untraced_setEngine {e : Engine} (same : e.untraced = (h.engine i).untraced) :
    (h.setSlot i fun s => { s with engine := e }).untraced = h.untraced := by
  rw [untraced_setSlot, same, ← engine_untraced, setSlot_engine]

/-- Engines that are the same but for their traces, put in the place of such ones. -/
theorem untraced_setEngine_congr {other : Host} {e f : Engine} (same : h.untraced = other.untraced)
    (engines : e.untraced = f.untraced) :
    (h.setSlot i fun s => { s with engine := e }).untraced =
      (other.setSlot i fun s => { s with engine := f }).untraced := by
  rw [untraced_setSlot, untraced_setSlot, same, engines]

end Host

end Needle
