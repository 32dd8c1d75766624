import Needle.RuleSet

/-!
# Scans as calls

A scan as the call that asks for it: the rule set, what is to be scanned, and the options. The
timeout is converted for the engine once the scan is in the table; where that fails, the scan is
taken out again and the failure comes up, and the engine is not asked.
-/
set_option autoImplicit false

namespace Needle

inductive ScanTarget where
  | buffer (data : Bytes)
  | file (path : Path)

structure ScanCall where
  rules : RuleSet
  target : ScanTarget
  options : ScanOptions

namespace ScanTarget

def refusal? (files : FileTree) : ScanTarget → Option Error
  | .buffer data => if data.isEmpty then some .emptyBuffer else none
  | .file path =>
    -- That there is something to open is looked at before how it is named.
    match files.openObject path, Plain.path path with
    | .error cause, _ => some (.fileRead path cause)
    | .ok _, .error e => some e
    | .ok _, .ok _ => none

def note : ScanTarget → Note
  | .buffer data => .scanningBuffer data.length
  | .file path => .scanningFile path

def path? : ScanTarget → Option Path
  | .buffer _ => none
  | .file path => some path

end ScanTarget

namespace ScanCall

/-- The scan with a handler, for a timeout that can be converted. -/
def scan {σ : Type} (r : ScanCall) (handler : Handler σ) (state : Host × σ) :
    ScanOutcome × (Host × σ) :=
  match r.target with
  | .buffer data => r.rules.scanBuffer data r.options handler state
  | .file path => r.rules.scanFile path r.options handler state

def lapse (r : ScanCall) (h : Host) : Host :=
  let (id, h) := (h.note r.target.note).openScan
  { h with scans := (h.scans.finish id).2 }

/-- The scan as a call of the library, with a handler. -/
def run {σ : Type} (r : ScanCall) (handler : Handler σ) (state : Host × σ) :
    ScanOutcome × (Host × σ) :=
  match r.target.refusal? state.1.files, r.options.timeoutSecs with
  | none, .error text => (.panicked text, r.lapse state.1, state.2)
  | _, _ => r.scan handler state

def ask {S : Type} (r : ScanCall) (h : Host) : EngineLoop S × Host :=
  match r.target with
  | .buffer data => h.call r.rules.slot fun e => e.scanBuffer r.rules.handle data r.options
  | .file path => h.call r.rules.slot fun e => e.scanFile h.files r.rules.handle path r.options

end ScanCall

end Needle
