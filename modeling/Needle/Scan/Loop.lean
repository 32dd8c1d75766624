import Needle.Rule
import Needle.Scan.Table

/-!
# Engine loops

What an engine does during one scan: it reports events one after another, sees the verdict on each,
and ends with a status. A loop may also report under a number of its own choice or from another
thread, and may act on the state `S` of its surroundings in between; an engine need not heed a
verdict.
-/
set_option autoImplicit false

namespace Needle

inductive Channel where
  /-- By the number of the scan itself, on its thread. -/
  | sink
  /-- By some number, on the thread of the scan. -/
  | raw (id : ScanId)
  /-- By the number of the scan itself, on another thread. -/
  | foreign
deriving DecidableEq

def Channel.address (id : ScanId) (thread : ThreadId) : Channel → ScanId × ThreadId
  | .sink => (id, thread)
  | .raw other => (other, thread)
  | .foreign => (id, thread + 1)

inductive EngineLoop (S : Type) where
  | finish (code : Code)
  | report (channel : Channel) (event : Event) (next : Verdict → EngineLoop S)
  | act (change : S → S) (next : S → EngineLoop S)

namespace EngineLoop

/-- Going on after a verdict: an engine that heeds it ends with success on `abort` and with the
callback's status on `fail`. -/
def heed {S : Type} (stubborn : Bool) (rest : EngineLoop S) (verdict : Verdict) : EngineLoop S :=
  if stubborn then rest
  else
    match verdict with
    | .proceed => rest
    | .abort => .finish Code.success
    | .fail => .finish Code.callbackError

def ofEvents {S : Type} (stubborn : Bool) (code : Code) : List Event → EngineLoop S
  | [] => .finish code
  | e :: rest => .report .sink e (heed stubborn (ofEvents stubborn code rest))

end EngineLoop

end Needle
