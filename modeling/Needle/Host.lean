import Needle.Engine

/-!
# Hosts

A host is all that a call of the library can see and change: the files, the engines that have been
started, the table of running scans and the log. An engine is kept alive by the values that hold it
(an owner, compilers, rule sets); the host counts them and stops the engine when the last one lets
go.
-/
set_option autoImplicit false

namespace Needle

structure EngineSlot where
  engine : Engine := .fresh {}
  holders : Nat := 0
  stopped : Bool := false

structure Host where
  files : FileTree
  tempDir : Path
  engines : List EngineSlot := []
  scans : ScanTable := {}
  notes : List Note := []
  thread : ThreadId := 0

namespace Host

def note (h : Host) (n : Note) : Host :=
  { h with notes := h.notes ++ [n] }

def slot (h : Host) (i : Nat) : EngineSlot := h.engines.getD i {}

def engine (h : Host) (i : Nat) : Engine := (h.slot i).engine

def setSlot (h : Host) (i : Nat) (change : EngineSlot → EngineSlot) : Host :=
  { h with engines := h.engines.modify i change }

def call {α : Type} (h : Host) (i : Nat) (f : Engine → α × Engine) : α × Host :=
  let (answer, e) := f (h.engine i)
  (answer, h.setSlot i fun s => { s with engine := e })

def hold (h : Host) (i : Nat) : Host :=
  h.setSlot i fun s => { s with holders := s.holders + 1 }

def stop (h : Host) (i : Nat) : Except Error Unit × Host :=
  if (h.slot i).stopped then (.ok (), h)
  else
    let (code, h) := h.call i Engine.stop
    let h := h.setSlot i fun s => { s with stopped := true }
    match Code.check code with
    | .ok () => (.ok (), h.note (.finalized Engine.name))
    | .error cause => (.error cause, h)

/-- A holder lets go; the last one stops the engine. -/
def release (h : Host) (i : Nat) : Host :=
  let h := h.setSlot i fun s => { s with holders := s.holders - 1 }
  if (h.slot i).holders = 0 then
    match h.stop i with
    | (.ok (), h) => h
    | (.error cause, h) => h.note (.finalizeFailed Engine.name cause)
  else h

end Host

end Needle
