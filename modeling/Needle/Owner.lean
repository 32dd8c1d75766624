import Needle.Host

/-!
# Owners

An owner starts an engine and holds it. It can be asked to stop the engine, which is refused while
compilers or rule sets hold it too; the last of those then stops it.
-/
set_option autoImplicit false

namespace Needle

structure Owner where
  slot : Nat
deriving DecidableEq

namespace Owner

def start (faults : Faults) (h : Host) : Except Error Owner × Host :=
  let i := h.engines.length
  let h := { h with engines := h.engines ++ [({ engine := .fresh faults } : EngineSlot)] }
  let (code, h) := h.call i Engine.start
  if code = Code.success then (.ok ⟨i⟩, (h.note (.initialized Engine.name)).hold i)
  else (.error (.startup code), h.note (.startupFailed Engine.name code))

def liveResources (r : Owner) (h : Host) : Nat :=
  (h.slot r.slot).holders - 1

/-- Gives the owner up and stops the engine, unless others hold it. -/
def finalize (r : Owner) (h : Host) : Except Error Unit × Host :=
  if (h.slot r.slot).holders = 1 then
    let (result, h) := h.stop r.slot
    (result, h.setSlot r.slot fun s => { s with holders := 0 })
  else
    (.error (.resourcesOutstanding (r.liveResources h)), h.release r.slot)

def drop (r : Owner) (h : Host) : Host := h.release r.slot

def inspect (r : Owner) (h : Host) : String :=
  "Runtime \x7b engine: \"" ++ Engine.name ++ "\", live_resources: "
    ++ Decimal.ofNat (r.liveResources h) ++ " \x7d"

end Owner

end Needle
