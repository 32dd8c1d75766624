import Needle.Pattern.Artifact
import Needle.Pattern.Source
import Needle.Scan.Loop
import Needle.Scan.Options

/-!
# The matching engine

The engine keeps compilers and rule sets under handles, which it counts upwards from 1 and never
gives out twice. It answers with status codes, counts what it does and keeps a trace of its calls.
It takes a path as text, so it opens the file whose name is the path with U+FFFD for bytes that are
no UTF-8.

`Faults` holds answers that an engine is told to give: for most calls in place of its own, so that
the engine itself does nothing then.
-/
set_option autoImplicit false

namespace Needle

abbrev Handle := Nat

/-- A scan that reports these events whatever the rules and the data. -/
structure CannedScan where
  events : List Event
  code : Code
  stubborn : Bool

structure Faults where
  start : Code := Code.success
  stop : Code := Code.success
  /-- The status of a scan that got through all its reports. -/
  scans : Code := Code.success
  createCompiler : Option Code := none
  add : Option (Nat × List Diagnostic) := none
  getRules : Option Code := none
  load : Option Code := none
  save : Option Code := none
  destroyRules : Option Code := none
  scan : Option CannedScan := none

structure EngineStats where
  started : Nat := 0
  stopped : Nat := 0
  compilersDestroyed : Nat := 0
  rulesDestroyed : Nat := 0
  scans : Nat := 0
deriving DecidableEq

/-- One call of the engine. A call with an answer is in the trace once it has returned, the others
before they begin. -/
inductive EngineCall where
  | start
  | stop
  | createCompiler (answer : Except Code Handle)
  | destroyCompiler (compiler : Handle)
  | addFile (compiler : Handle) (ns : String) (path : Path)
  | addText (compiler : Handle) (ns : String) (size : Nat)
  | getRules (compiler : Handle) (answer : Except Code Handle)
  | load (path : Path) (answer : Except Code Handle)
  | save (rules : Handle) (path : Path) (answer : Code)
  | destroyRules (rules : Handle) (answer : Code)
  | scanBuffer (rules : Handle) (size flags : Nat) (timeout : Option Nat)
  | scanFile (rules : Handle) (path : Path) (flags : Nat) (timeout : Option Nat)

/-- What a compiler holds: the patterns of the texts that were added without a fault, and the number
of faulty lines. -/
structure CompilerSession where
  patterns : List Pattern := []
  errors : Nat := 0

def CompilerSession.add (s : CompilerSession) (read : Pattern.Progress) : CompilerSession :=
  ⟨if read.errors = 0 then s.patterns ++ read.added else s.patterns, s.errors + read.errors⟩

/-- Every handle in a table has been given out. -/
def Issued {α : Type} (last : Handle) (table : List (Handle × α)) : Prop :=
  ∀ entry ∈ table, entry.1 ≤ last

namespace Issued

variable {α : Type} {last : Handle} {table : List (Handle × α)}

theorem nil : Issued last ([] : List (Handle × α)) :=
  fun _ member => absurd member List.not_mem_nil

theorem next (issued : Issued last table) : Issued (last + 1) table :=
  fun entry member => Nat.le_succ_of_le (issued entry member)

theorem add (issued : Issued last table) (value : α) :
    Issued (last + 1) (table ++ [(last + 1, value)]) := by
  intro entry member
  rcases List.mem_append.mp member with old | new
  · exact issued.next entry old
  · obtain rfl := List.mem_singleton.mp new
    exact Nat.le_refl _

theorem filter (issued : Issued last table) (keep : Handle × α → Bool) :
    Issued last (table.filter keep) :=
  fun entry member => issued entry (List.mem_filter.mp member).1

theorem map (issued : Issued last table) {change : Handle × α → Handle × α}
    (keys : ∀ entry, (change entry).1 = entry.1) : Issued last (table.map change) := by
  intro entry member
  obtain ⟨old, found, rfl⟩ := List.mem_map.mp member
  rw [keys]
  exact issued old found

end Issued

structure Engine where
  last : Handle := 0
  compilers : List (Handle × CompilerSession) := []
  ruleSets : List (Handle × List Pattern) := []
  stats : EngineStats := {}
  calls : List EngineCall := []
  faults : Faults := {}
  compilers_issued : Issued last compilers := by exact Issued.nil
  ruleSets_issued : Issued last ruleSets := by exact Issued.nil

namespace Engine

def name : String := "literal"

def fresh (faults : Faults) : Engine := { faults := faults }

/-- The path whose name is the shown text of a path. -/
def shownPath (p : Path) : Path := .ofText p.display

def trace (e : Engine) (call : EngineCall) : Engine :=
  { e with calls := e.calls ++ [call] }

def compiler? (e : Engine) (h : Handle) : Option CompilerSession := e.compilers.lookup h

def ruleSet? (e : Engine) (h : Handle) : Option (List Pattern) := e.ruleSets.lookup h

def start (e : Engine) : Code × Engine :=
  let e := e.trace .start
  let done := if e.faults.start = Code.success then 1 else 0
  (e.faults.start, { e with stats.started := e.stats.started + done })

def stop (e : Engine) : Code × Engine :=
  let e := e.trace .stop
  (e.faults.stop, { e with stats.stopped := e.stats.stopped + 1 })

def createCompiler (e : Engine) : Except Code Handle × Engine :=
  match e.faults.createCompiler with
  | some code => (.error code, e.trace (.createCompiler (.error code)))
  | none =>
    let h := e.last + 1
    let e := { e with
      last := h
      compilers := e.compilers ++ [(h, ({} : CompilerSession))]
      compilers_issued := e.compilers_issued.add _
      ruleSets_issued := e.ruleSets_issued.next }
    (.ok h, e.trace (.createCompiler (.ok h)))

def destroyCompiler (e : Engine) (h : Handle) : Engine :=
  let e := e.trace (.destroyCompiler h)
  if (e.compiler? h).isSome then
    { e with
      compilers := e.compilers.filter (·.1 ≠ h)
      stats.compilersDestroyed := e.stats.compilersDestroyed + 1
      compilers_issued := e.compilers_issued.filter _ }
  else e

def addSource (e : Engine) (h : Handle) (ns : String) (file : Option String)
    (text : String) : (Nat × List Diagnostic) × Engine :=
  match e.compiler? h with
  | none => ((1, []), e)
  | some session =>
    let source : Pattern.Source := ⟨ns, file, session.patterns⟩
    let read := source.read text.toList
    let compilers := e.compilers.map fun (k, s) => if k = h then (k, s.add read) else (k, s)
    let issued : Issued e.last compilers := e.compilers_issued.map fun entry => by
      dsimp only
      split <;> rfl
    ((read.errors, read.diagnostics), { e with compilers := compilers, compilers_issued := issued })

def addText (e : Engine) (h : Handle) (ns text : String) :
    (Nat × List Diagnostic) × Engine :=
  let e := e.trace (.addText h ns (Utf8.encode text).length)
  match e.faults.add with
  | some answer => (answer, e)
  | none => e.addSource h ns none text

/-- Adds the content of an open file; a content that cannot be read as text is one fault, and leaves
the compiler as it was. -/
def addFile (e : Engine) (h : Handle) (ns : String) (path : Path)
    (content : Except IoError String) : (Nat × List Diagnostic) × Engine :=
  let e := e.trace (.addFile h ns path)
  match e.faults.add with
  | some answer => (answer, e)
  | none =>
    match content with
    | .ok text => e.addSource h ns (some path.display) text
    | .error cause => ((1, [⟨.error, some path.display, 0, cause.text⟩]), e)

def addRuleSet (e : Engine) (patterns : List Pattern) : Handle × Engine :=
  let h := e.last + 1
  (h, { e with
    last := h
    ruleSets := e.ruleSets ++ [(h, patterns)]
    compilers_issued := e.compilers_issued.next
    ruleSets_issued := e.ruleSets_issued.add _ })

def getRules (e : Engine) (h : Handle) : Except Code Handle × Engine :=
  let (answer, e) : Except Code Handle × Engine :=
    match e.faults.getRules with
    | some code => (.error code, e)
    | none =>
      match e.compiler? h with
      | some session =>
        if session.errors = 0 then
          let (r, e) := e.addRuleSet session.patterns
          (.ok r, e)
        else (.error Code.invalidArgument, e)
      | none => (.error Code.invalidArgument, e)
  (answer, e.trace (.getRules h answer))

def load (e : Engine) (files : FileTree) (path : Path) : Except Code Handle × Engine :=
  let (answer, e) : Except Code Handle × Engine :=
    match e.faults.load with
    | some code => (.error code, e)
    | none =>
      match files.readFile (shownPath path) with
      | .error _ => (.error Code.couldNotOpenFile, e)
      | .ok content =>
        match Pattern.load content with
        | .error code => (.error code, e)
        | .ok patterns =>
          let (r, e) := e.addRuleSet patterns
          (.ok r, e)
  (answer, e.trace (.load path answer))

def save (e : Engine) (files : FileTree) (h : Handle) (path : Path) : Code × FileTree × Engine :=
  let (answer, files) : Code × FileTree :=
    match e.faults.save with
    | some code => (code, files)
    | none =>
      match e.ruleSet? h with
      | none => (Code.invalidArgument, files)
      | some patterns =>
        match files.writeFile (shownPath path) (Pattern.save patterns) with
        | .ok files => (Code.success, files)
        | .error _ => (Code.couldNotOpenFile, files)
  (answer, files, e.trace (.save h path answer))

def destroyRules (e : Engine) (h : Handle) : Code × Engine :=
  let (answer, e) : Code × Engine :=
    match e.faults.destroyRules with
    | some code => (code, e)
    | none =>
      if (e.ruleSet? h).isSome then
        (Code.success, { e with
          ruleSets := e.ruleSets.filter (·.1 ≠ h)
          stats.rulesDestroyed := e.stats.rulesDestroyed + 1
          ruleSets_issued := e.ruleSets_issued.filter _ })
      else (Code.invalidArgument, e)
  (answer, e.trace (.destroyRules h answer))

def scan {S : Type} (e : Engine) (h : Handle) (data : Bytes) : EngineLoop S × Engine :=
  match e.ruleSet? h with
  | none => (.finish Code.invalidArgument, e)
  | some patterns =>
    (.ofEvents false e.faults.scans (Pattern.events data patterns),
      { e with stats.scans := e.stats.scans + 1 })

def scanBuffer {S : Type} (e : Engine) (h : Handle) (data : Bytes) (o : ScanOptions) :
    EngineLoop S × Engine :=
  let e := e.trace (.scanBuffer h data.length o.flags o.timeoutSecs.toOption)
  match e.faults.scan with
  | some canned => (.ofEvents canned.stubborn canned.code canned.events, e)
  | none => e.scan h data

def scanFile {S : Type} (e : Engine) (files : FileTree) (h : Handle) (path : Path)
    (o : ScanOptions) : EngineLoop S × Engine :=
  let e := e.trace (.scanFile h path o.flags o.timeoutSecs.toOption)
  match e.faults.scan with
  | some canned => (.ofEvents canned.stubborn canned.code canned.events, e)
  | none =>
    match files.readFile (shownPath path) with
    | .ok content => e.scan h content
    | .error _ => (.finish Code.couldNotOpenFile, e)

end Engine

end Needle
