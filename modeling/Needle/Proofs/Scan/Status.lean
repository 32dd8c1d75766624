import Needle.Proofs.Scan.Protocol

/-!
# What decides a scan

The engine's own loops heed every answer of the handler, be it that the handler dies. So a scan ends
with the first answer that does not let it proceed, or it gets through all its reports and ends with
the status of the engine.
-/
set_option autoImplicit false

namespace Needle.Scan

variable {σ : Type} {rules : List Rule} {calls : List Call}

def endedBy (calls : Nat) : Reply → ScanOutcome
  | .panic text => .panicked text
  | .verdict .abort => .returned (.ok ⟨calls, true⟩)
  | .verdict _ => .returned (.error .callbackFailed)

theorem endedBy_ne_engine (calls : Nat) (reply : Reply) (code : Code) :
    endedBy calls reply ≠ .returned (.error (.engine code)) := by
  cases reply with
  | panic text => nofun
  | verdict v => cases v <;> nofun

theorem EndsAt.lastDeath {text : String} (ends : EndsAt rules calls (.panic text)) :
    lastDeath calls = some text := by
  obtain ⟨before, rule, rest, _, made⟩ := ends
  obtain ⟨early, late, rfl, _, last⟩ := List.map_eq_append_iff.mp made
  obtain ⟨call, rfl, answer⟩ := List.map_eq_singleton_iff.mp last
  exact lastDeath_eq_some_iff.mpr ⟨early, call, [], rfl, congrArg Prod.snd answer, by simp⟩

/-- How a run over events comes to its end. -/
theorem run_heeds (handler : Handler σ) (code : Code) (events : List Event) (h : Host) (own : σ)
    {ending : Ending} {after : Host} {left : σ} {ledger : Ledger}
    (ran : run handler.recorded (fun _ => .ofEvents false code events) (h, own, {}) =
      (ending, after, left, ledger))
    (kept : ledger.Keeps h.scans.next) (path : Option Path) :
    (Through (events.map Event.toRule) ledger.calls ∧
      ending.outcome path = .returned (conclude ⟨code, events.length, .proceed⟩ path)) ∨
    ∃ reply, reply ≠ .verdict .proceed ∧ EndsAt (events.map Event.toRule) ledger.calls reply ∧
      ending.outcome path = endedBy ledger.calls.length reply := by
  have mirrors (_ : ScanId) := mirrors_ofEvents (σ := σ) false code events
  obtain ⟨finished, last, driven, running, _, told⟩ := run_recorded handler mirrors h own ran kept
  obtain ⟨calls, all, played⟩ := Running.drive_heeds handler code events (h.openScan.2, own, {})
    (running_openScan h) driven kept
  obtain rfl : ledger.calls = calls := all
  obtain ⟨status, tally⟩ := finished
  obtain rfl : tally = counted ledger.calls := running.tally_eq
  rcases played with ⟨through, rfl⟩ | ⟨rule, state, other, ends⟩
  · obtain ⟨quiet, count⟩ := through.counted
    rw [quiet] at told
    subst told
    rw [count, List.length_map]
    exact .inl ⟨through, rfl⟩
  · generalize (handler rule state).1 = reply at other ends
    refine .inr ⟨reply, other, ends, ?_⟩
    cases reply with
    | panic text =>
        rw [ends.lastDeath] at told
        subst told
        rfl
    | verdict v =>
        obtain ⟨quiet, count⟩ := StopsAt.counted (v := v) ends
        rw [quiet] at told
        subst told
        rw [count]
        cases v with
        | proceed => exact absurd rfl other
        | abort => rfl
        | fail => rfl

end Needle.Scan
