import Mathlib.Logic.Function.Basic
import Needle.Scan.Call

/-!
# Scans on many threads

Scans of any rule sets run at the same time, on the threads of one host. What a thread is in the
middle of is a stack of scans, the innermost first: a handler may start another scan on its thread
before it answers, and the scan it belongs to waits meanwhile.

A scan has its place on the stack of its thread, which is where its handler is. A report knows no
more than a number: it goes to the handler at the place that was entered for the number. A step
hands out a number or is one section under a lock, that of the table of scans or that of an engine.
-/
set_option autoImplicit false

namespace Needle

namespace Parallel

inductive Phase where
  /-- The scan has a number and is not yet in the table. -/
  | entering
  | entered
  | looping (loop : EngineLoop Unit)
  /-- A report has called the handler at a place on the stack. -/
  | waiting (place : Nat) (next : Verdict → EngineLoop Unit)
  /-- The scan is over, and its registration is not yet dropped. -/
  | leaving (outcome : ScanOutcome)

/-- A scan on a stack, with what its handler has seen and answered. -/
structure Frame where
  call : ScanCall
  id : ScanId
  phase : Phase := .entering
  seen : List Rule := []
  replies : List Reply := []
  tally : Tally := {}

structure Finished where
  call : ScanCall
  seen : List Rule := []
  replies : List Reply := []
  outcome : ScanOutcome

inductive Move where
  | start (call : ScanCall)
  | insert
  | ask
  | report
  | reply (reply : Reply)
  | finish
  | drop

namespace Frame

def hear (rule : Rule) (f : Frame) : Frame := { f with seen := f.seen ++ [rule] }

def answer (reply : Reply) (f : Frame) : Frame :=
  { f with replies := f.replies ++ [reply], tally := f.tally.count reply }

end Frame

def atPlace (place : Nat) (change : Frame → Frame) : List Frame → List Frame
  | [] => []
  | f :: rest => (if rest.length = place then change f else f) :: atPlace place change rest

def canStart : List Frame → Bool
  | [] => true
  | f :: _ => match f.phase with
    | .waiting _ _ => true
    | _ => false

end Parallel

open Parallel

/-- The host with the stacks of its threads and the scans that have come back. `place` is where the
handler is that was last entered under a number. -/
structure Parallel where
  host : Host
  stack : ThreadId → List Frame := fun _ => []
  place : ScanId → Nat := fun _ => 0
  finished : List Finished := []

namespace Parallel

section Moves

variable (s : Parallel) (thread : ThreadId)

def start (call : ScanCall) : Parallel :=
  match call.target.refusal? s.host.files with
  | some e =>
    let came : Finished := { call := call, outcome := .returned (.error e) }
    { s with finished := s.finished ++ [came] }
  | none =>
    let h := s.host.note call.target.note
    let (id, table) := h.scans.issue
    { s with
      host := { h with scans := table }
      stack := Function.update s.stack thread ({ call := call, id := id } :: s.stack thread) }

variable (f : Frame) (rest : List Frame)

def insert : Parallel :=
  let h := { s.host with scans := s.host.scans.insert thread f.id }
  { s with
    host := h.note (.scan .registered f.id)
    place := fun id => if id = f.id then rest.length else s.place id
    stack := Function.update s.stack thread ({ f with phase := .entered } :: rest) }

/-- The engine of the scan on top of a stack is asked, if the timeout can be converted for it. -/
def ask : Parallel :=
  match f.call.options.timeoutSecs with
  | .error text =>
    let phase := Phase.leaving (.panicked text)
    { s with stack := Function.update s.stack thread ({ f with phase := phase } :: rest) }
  | .ok _ =>
    let (loop, h) := f.call.ask s.host
    { s with
      host := h
      stack := Function.update s.stack thread ({ f with phase := .looping loop } :: rest) }

def report (event : Event) (next : Verdict → EngineLoop Unit) : Parallel :=
  match s.host.receive thread f.id with
  | .error noted =>
    { s with
      host := noted
      stack := Function.update s.stack thread ({ f with phase := .looping (next .fail) } :: rest) }
  | .ok received =>
    let place := s.place f.id
    let frames := { f with phase := .waiting place next } :: rest
    { s with
      host := received
      stack := Function.update s.stack thread (atPlace place (Frame.hear event.toRule) frames) }

def reply (place : Nat) (next : Verdict → EngineLoop Unit) (reply : Reply) : Parallel :=
  let (settlement, table) := s.host.scans.settle f.id reply
  let frames := { f with phase := .looping (next settlement.verdict) } :: rest
  { s with
    host := { s.host with scans := table }
    stack := Function.update s.stack thread (atPlace place (Frame.answer reply) frames) }

def finish (code : Code) : Parallel :=
  let (ending, h) := Scan.close f.id ⟨code, f.tally⟩ s.host
  let phase := Phase.leaving (ending.outcome f.call.target.path?)
  { s with
    host := h
    stack := Function.update s.stack thread ({ f with phase := phase } :: rest) }

def drop (outcome : ScanOutcome) : Parallel :=
  { s with
    host := { s.host with scans := (s.host.scans.finish f.id).2 }
    stack := Function.update s.stack thread rest
    finished := s.finished ++ [⟨f.call, f.seen, f.replies, outcome⟩] }

def advance : Phase → Move → Option Parallel
  | .entering, .insert => some (s.insert thread f rest)
  | .entered, .ask => some (s.ask thread f rest)
  | .looping (.report .sink event next), .report => some (s.report thread f rest event next)
  | .waiting place next, .reply answer => some (s.reply thread f rest place next answer)
  | .looping (.finish code), .finish => some (s.finish thread f rest code)
  | .leaving outcome, .drop => some (s.drop thread f rest outcome)
  | _, _ => none

end Moves

/-- One step of one thread, where the thread can take it. -/
def step (s : Parallel) (thread : ThreadId) (move : Move) : Option Parallel :=
  match move, s.stack thread with
  | .start call, frames => if canStart frames then some (s.start thread call) else none
  | _, [] => none
  | move, f :: rest => s.advance thread f rest f.phase move

def exec (s : Parallel) : List (ThreadId × Move) → Option Parallel
  | [] => some s
  | (thread, move) :: rest =>
    match s.step thread move with
    | some next => next.exec rest
    | none => none

end Parallel

end Needle
