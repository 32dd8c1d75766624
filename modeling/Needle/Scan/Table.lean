import Needle.Log

/-!
# The table of running scans

An engine reports a match to a scan by number. The table says which thread started the scan and
whether its handler is at work, and lets a report through only on that thread and only while the
handler is idle. Numbers have 64 bits and are handed out in order. Every operation here is one step,
handing out a number or a section under the table's lock; only `register` is one after the other.
-/
set_option autoImplicit false

namespace Needle

inductive Verdict where
  | proceed
  | abort
  | fail
deriving DecidableEq

namespace Verdict

def raw : Verdict → Int
  | .proceed => 0
  | .abort => 1
  | .fail => 2

def ofRaw? (raw : Int) : Option Verdict :=
  if raw = 0 then some .proceed
  else if raw = 1 then some .abort
  else if raw = 2 then some .fail
  else none

end Verdict

inductive Reply where
  | verdict (v : Verdict)
  | panic (text : String)
deriving DecidableEq

/-- The number of a scan, below `idLimit`. -/
abbrev ScanId := Nat

def idLimit : Nat := 18446744073709551616

abbrev ThreadId := Nat

structure ScanSlot where
  thread : ThreadId
  busy : Bool := false
  panic : Option String := none
deriving DecidableEq

inductive Refusal where
  | unknown
  | foreign
  | reentrant
deriving DecidableEq

def Refusal.notice : Refusal → ScanNotice
  | .unknown => .unknown
  | .foreign => .foreign
  | .reentrant => .reentrant

structure ScanTable where
  slots : List (ScanId × ScanSlot) := []
  next : ScanId := 1
deriving DecidableEq

namespace ScanTable

def slot? (t : ScanTable) (id : ScanId) : Option ScanSlot :=
  t.slots.lookup id

def active (t : ScanTable) : Nat := t.slots.length

def issue (t : ScanTable) : ScanId × ScanTable :=
  (t.next, { t with next := (t.next + 1) % idLimit })

def insert (t : ScanTable) (thread : ThreadId) (id : ScanId) : ScanTable :=
  { t with slots := t.slots.filter (·.1 ≠ id) ++ [(id, ⟨thread, false, none⟩)] }

def register (t : ScanTable) (thread : ThreadId) : ScanId × ScanTable :=
  let (id, t) := t.issue
  (id, t.insert thread id)

def update (t : ScanTable) (id : ScanId) (change : ScanSlot → ScanSlot) : ScanTable :=
  { t with slots := t.slots.map fun (k, s) => if k = id then (k, change s) else (k, s) }

/-- A report to a scan arrives on a thread: its handler becomes busy, or the report is refused. -/
def enter (t : ScanTable) (thread : ThreadId) (id : ScanId) : Except Refusal ScanTable :=
  match t.slot? id with
  | none => .error .unknown
  | some s =>
    if s.thread ≠ thread then .error .foreign
    else if s.busy then .error .reentrant
    else .ok (t.update id fun s => { s with busy := true })

def leave (t : ScanTable) (id : ScanId) : ScanTable :=
  t.update id fun s => { s with busy := false }

def leavePanicked (t : ScanTable) (id : ScanId) (text : String) : ScanTable :=
  t.update id fun s => { s with busy := false, panic := some text }

/-- What the end of a handler leads to: a status for the engine, or a death that goes on because
the scan is gone. -/
inductive Settlement where
  | status (v : Verdict)
  | unwinds (text : String)
deriving DecidableEq

def Settlement.verdict : Settlement → Verdict
  | .status v => v
  | .unwinds _ => .fail

/-- The handler of a scan has ended. Its death is kept in the slot. -/
def settle (t : ScanTable) (id : ScanId) (reply : Reply) : Settlement × ScanTable :=
  match reply, t.slot? id with
  | .verdict v, some _ => (.status v, t.leave id)
  | .verdict v, none => (.status v, t)
  | .panic text, some _ => (.status .fail, t.leavePanicked id text)
  | .panic text, none => (.unwinds text, t)

def finish (t : ScanTable) (id : ScanId) : Option String × ScanTable :=
  ((t.slot? id).bind (·.panic), { t with slots := t.slots.filter (·.1 ≠ id) })

end ScanTable

end Needle
