import Needle.Client
import Needle.Proofs.Scan.Call

/-!
# What a client keeps

A property of a client's moments that depends on no more than its values and the engines. If each
operation keeps it, and asking an engine for a scan does, then so does every client, with all that
the handlers of its scans do in between.
-/
set_option autoImplicit false

namespace Needle

open Scan

namespace Client

structure Invariant (P : Moment × List Moment → Prop) : Prop where
  congr : ∀ {v : Values} {h other : Host} {past : List Moment}, other.engines = h.engines →
    P ({ v with host := h }, past) → P ({ v with host := other }, past)
  /-- The present moment becomes one of those before. -/
  pass : ∀ {m : Moment} {past : List Moment}, P (m, past) → P (m, past ++ [m])
  perform : ∀ {m : Moment} {past : List Moment} (operation : Operation),
    P (m, past) → P (m.perform operation, past)
  ask : ∀ {S : Type} {v : Values} {h : Host} {past : List Moment} (r : ScanCall),
    r.rules ∈ v.ruleSets → P ({ v with host := h }, past) →
    P ({ v with host := (r.ask (S := S) h).2 }, past)

/-- What a handler keeps: the property, on every host with these engines. -/
def HoldsOn (P : Moment × List Moment → Prop) (engines : List EngineSlot)
    (own : Nat × Values × List Moment) : Prop :=
  ∀ h : Host, h.engines = engines → P ({ own.2.1 with host := h }, own.2.2)

variable {P : Moment × List Moment → Prop}

theorem Invariant.handle (invariant : Invariant P)
    {body : Nat → Moment × List Moment → Reply × (Moment × List Moment)}
    (bodies : ∀ number state, P state → P (body number state).2) :
    KeepsEngines (HoldsOn P) (handle body) := by
  intro rule h own holds after same
  obtain ⟨number, v, past⟩ := own
  have replied := bodies number _ (invariant.pass (holds h rfl))
  exact invariant.congr same replied

theorem Invariant.run (invariant : Invariant P) (client : Client) {state : Moment × List Moment}
    (holds : P state) : P (client.run state).2 := by
  induction client generalizing state with
  | finish reply => exact holds
  | call operation rest ih => exact ih (invariant.pass (invariant.perform operation holds))
  | scan place target options handler rest bodies ih =>
      obtain ⟨m, past⟩ := state
      unfold Client.run
      dsimp only
      cases found : m.ruleSets[place]? with
      | none => exact ih holds
      | some s =>
          let call : ScanCall := ⟨s, target, options⟩
          let own : Nat × Values × List Moment := (0, m.toValues, past)
          have asks {S : Type} (h : Host) (here : HoldsOn P h.engines own) :
              HoldsOn P (call.ask (S := S) h).2.engines own := by
            intro after same
            have listed := List.mem_of_getElem? found
            exact invariant.congr same (invariant.ask call listed (here h rfl))
          have begins : HoldsOn P m.host.engines own := fun h same => invariant.congr same holds
          have keeps := invariant.handle fun number state => @bodies number state
          have scanned := ScanCall.keeps_run keeps call asks begins
          exact ih (invariant.pass (scanned _ rfl))

theorem Invariant.moments (invariant : Invariant P) (client : Client) {h : Host}
    (begins : P ({ host := h }, [])) : ∃ m, P (m, client.moments h) :=
  ⟨_, invariant.run client (invariant.pass begins)⟩

end Client

end Needle
