import Needle.Scan.Table

/-!
# Threads that scan

Several threads share one table of running scans. A thread may start a scan within a scan or within
a handler, and may report to any number at any time; what it is in the middle of is a stack of
frames, the innermost first. A step hands out a number or is one section under the table's lock.

A scan is taken out of the table when it is over, and once more when its registration is dropped;
a scan that an engine's death cuts short is only dropped.
-/
set_option autoImplicit false

namespace Needle

namespace Threads

inductive Frame where
  /-- A scan that has a number and is not yet in the table. -/
  | entering (id : ScanId)
  | running (id : ScanId)
  /-- A scan that is over and whose registration is not yet dropped. -/
  | leaving (id : ScanId)
  /-- A call of the handler of a scan. -/
  | handling (id : ScanId)
deriving DecidableEq

inductive Action where
  | issue (thread : ThreadId)
  | insert (thread : ThreadId)
  | report (thread : ThreadId) (id : ScanId)
  | settle (thread : ThreadId) (reply : Reply)
  | finish (thread : ThreadId)
  | drop (thread : ThreadId)

inductive Outcome where
  | done
  | refused (verdict : Verdict)
  | called
  | settled (settlement : ScanTable.Settlement)
deriving DecidableEq

end Threads

open Threads

/-- The threads with their table. `issued` are the numbers that have been handed out, the last one
first. -/
structure Threads where
  table : ScanTable := {}
  stack : ThreadId → List Frame := fun _ => []
  issued : List ScanId := []

namespace Threads

def put (stack : ThreadId → List Frame) (thread : ThreadId) (frames : List Frame) :
    ThreadId → List Frame :=
  fun t => if t = thread then frames else stack t

def setStack (s : Threads) (thread : ThreadId) (frames : List Frame) : Threads :=
  { s with stack := put s.stack thread frames }

/-- A thread between two steps that belong together does nothing else. -/
def midway : List Frame → Bool
  | .entering _ :: _ => true
  | .leaving _ :: _ => true
  | _ => false

def step (s : Threads) : Action → Option (Threads × Outcome)
  | .issue thread =>
    if midway (s.stack thread) then none
    else
      let (id, table) := s.table.issue
      let s := { s with table := table, issued := id :: s.issued }
      some (s.setStack thread (.entering id :: s.stack thread), .done)
  | .insert thread =>
    match s.stack thread with
    | .entering id :: rest =>
      let s := { s with table := s.table.insert thread id }
      some (s.setStack thread (.running id :: rest), .done)
    | _ => none
  | .report thread id =>
    if midway (s.stack thread) then none
    else
      match s.table.enter thread id with
      | .error _ => some (s, .refused .fail)
      | .ok table =>
        let s := { s with table := table }
        some (s.setStack thread (.handling id :: s.stack thread), .called)
  | .settle thread reply =>
    match s.stack thread with
    | .handling id :: rest =>
      let (settlement, table) := s.table.settle id reply
      let s := { s with table := table }
      some (s.setStack thread rest, .settled settlement)
    | _ => none
  | .finish thread =>
    match s.stack thread with
    | .running id :: rest =>
      let s := { s with table := (s.table.finish id).2 }
      some (s.setStack thread (.leaving id :: rest), .done)
    | _ => none
  | .drop thread =>
    match s.stack thread with
    | .running id :: rest | .leaving id :: rest =>
      let s := { s with table := (s.table.finish id).2 }
      some (s.setStack thread rest, .done)
    | _ => none

def exec (s : Threads) : List Action → Option Threads
  | [] => some s
  | action :: rest =>
    match s.step action with
    | some (s, _) => s.exec rest
    | none => none

end Threads

end Needle
