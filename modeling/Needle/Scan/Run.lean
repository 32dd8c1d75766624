import Needle.Host

/-!
# Running a scan

A scan is entered into the table, the engine's loop is driven to its end, and the scan is taken out
again. Each report that the table lets through is handed to the handler as a rule; the others are
noted in the log and answered with `fail`. A handler that dies answers `fail`, and what it died of
comes up again once the scan is out of the table.

A handler sees the host and may start scans of its own; besides it keeps a state of type `σ`.
-/
set_option autoImplicit false

namespace Needle

abbrev Handler (σ : Type) := Rule → Host × σ → Reply × (Host × σ)

/-- What a scan counts: the calls of the handler that returned, and the last verdict. -/
structure Tally where
  calls : Nat := 0
  last : Verdict := .proceed
deriving DecidableEq

def Tally.count (t : Tally) : Reply → Tally
  | .verdict v => ⟨t.calls + 1, v⟩
  | .panic _ => t

structure ScanSummary where
  matched : Nat
  aborted : Bool
deriving DecidableEq

structure ScanRun where
  code : Code
  tally : Tally
deriving DecidableEq

def Host.openScan (h : Host) : ScanId × Host :=
  let (id, table) := h.scans.register h.thread
  (id, ({ h with scans := table }).note (.scan .registered id))

/-- A report to a scan arrives on a thread: the host with the handler at work, or, where the report
is turned away, the host with a note of it. -/
def Host.receive (h : Host) (thread : ThreadId) (id : ScanId) : Except Host Host :=
  match h.scans.enter thread id with
  | .ok table => .ok { h with scans := table }
  | .error refusal => .error (h.note (.scan refusal.notice id))

namespace Scan

variable {σ : Type}

def handle (handler : Handler σ) (id : ScanId) (event : Event) (tally : Tally) (h : Host) (s : σ) :
    Verdict × Tally × (Host × σ) :=
  let (reply, h, s) := handler event.toRule (h, s)
  let (settlement, table) := h.scans.settle id reply
  (settlement.verdict, tally.count reply, { h with scans := table }, s)

/-- A report through a channel. A handler can be reached only by the loop of its own scan: a report
to any other scan ends in the table. -/
def dispatch (handler : Handler σ) (id : ScanId) (channel : Channel) (event : Event) (tally : Tally)
    (state : Host × σ) : Verdict × Tally × (Host × σ) :=
  let (h, s) := state
  let (target, thread) := channel.address id h.thread
  match h.receive thread target with
  | .error noted => (.fail, tally, noted, s)
  | .ok entered =>
    if target = id then handle handler id event tally entered s else (.fail, tally, h, s)

def drive (handler : Handler σ) (id : ScanId) :
    EngineLoop (Host × σ) → Tally → Host × σ → ScanRun × (Host × σ)
  | .finish code, tally, state => (⟨code, tally⟩, state)
  | .report channel event next, tally, state =>
    let (v, tally, state) := dispatch handler id channel event tally state
    drive handler id (next v) tally state
  | .act change next, tally, state =>
    let state := change state
    drive handler id (next state) tally state

inductive Ending where
  | panicked (text : String)
  | ran (run : ScanRun)
deriving DecidableEq

def close (id : ScanId) (run : ScanRun) (h : Host) : Ending × Host :=
  let (panic, table) := h.scans.finish id
  let h := { h with scans := table }
  match panic with
  | some text => (.panicked text, h)
  | none => (.ran run, h)

def run (handler : Handler σ) (loop : ScanId → EngineLoop (Host × σ)) (state : Host × σ) :
    Ending × (Host × σ) :=
  let (h, s) := state
  let (id, h) := h.openScan
  let (run, h, s) := drive handler id (loop id) {} (h, s)
  let (ending, h) := close id run h
  (ending, h, s)

/-- What a run means for the caller: the last verdict decides before the status does. -/
def conclude (run : ScanRun) (path : Option Path) : Except Error ScanSummary :=
  match run.tally.last with
  | .fail => .error .callbackFailed
  | .abort => .ok ⟨run.tally.calls, true⟩
  | .proceed =>
    if run.code = Code.callbackError then .error (.engine run.code)
    else (Code.checkScan run.code path).map fun _ => ⟨run.tally.calls, false⟩

end Scan

inductive ScanOutcome where
  | panicked (text : String)
  | returned (result : Except Error ScanSummary)

def Scan.Ending.outcome (path : Option Path) : Scan.Ending → ScanOutcome
  | .panicked text => .panicked text
  | .ran run => .returned (Scan.conclude run path)

end Needle
