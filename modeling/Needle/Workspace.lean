import Needle.Compiler
import Needle.Scan.Call

/-!
# Workspaces

A workspace keeps owners of engines, compilers and rule sets under names and carries out steps on
them, one after another. A name holds one value of each kind; what a new value replaces is given up
after the new one was made. A step that needs a value which is not there is skipped.
-/
set_option autoImplicit false

namespace Needle

abbrev Slots (α : Type) := List (String × α)

namespace Slots

variable {α : Type}

def get? (s : Slots α) (name : String) : Option α := s.lookup name

def erase (s : Slots α) (name : String) : Slots α := s.filter (·.1 ≠ name)

def put (s : Slots α) (name : String) (value : α) : Slots α :=
  s.takeWhile (·.1 < name) ++ (name, value) :: (s.erase name).dropWhile (·.1 < name)

end Slots

/-- What a scripted handler does at a match. -/
inductive Response where
  | verdict (v : Verdict)
  | panic
deriving DecidableEq

/-- How a scripted handler answers: the responses in order, then `proceed`; and the scan that it
makes before each of them. -/
structure Script where
  responses : List Response := []
  /-- The name of a rule set and the buffer to look at with it. -/
  nested : Option (String × Bytes) := none
deriving DecidableEq

structure Probe where
  seen : List Rule := []
  nested : List (Except Error (List Rule)) := []
  responses : List Response := []

inductive Step where
  | start (name : String) (faults : Faults)
  | compiler (owner name : String) (strict : Option Bool)
  | addText (compiler ns text : String)
  | addFile (compiler ns : String) (path : Path)
  | addFiles (compiler ns : String) (paths : List Path)
  | rules (compiler name : String)
  | withOptions (rules : String) (options : ScanOptions)
  | scanBuffer (rules : String) (data : Bytes) (options : Option ScanOptions) (script : Script)
  | scanFile (rules : String) (path : Path) (options : Option ScanOptions) (script : Script)
  | matchBuffer (rules : String) (data : Bytes)
  | matchFile (rules : String) (path : Path)
  | matchOnThreads (rules : String) (buffers : List Bytes)
  | save (rules : String) (path : Path)
  | saveBytes (rules : String)
  | load (owner name : String) (path : Path)
  | loadBytes (owner name : String) (content : Bytes)
  | destroyCompiler (compiler : String)
  | destroyRules (rules : String)
  | dropRules (rules : String)
  | finalize (owner : String)
  | dropOwner (owner : String)
  | live (owner : String)
  | inspect
  | writeFile (path : Path) (entry : Entry)
  | fileContent (path : Path)
  | removeFile (path : Path)

inductive Kind where
  | owner
  | compiler
  | rules
deriving DecidableEq

def Kind.label : Kind → String
  | .owner => "runtime"
  | .compiler => "compiler"
  | .rules => "rules"

inductive Value where
  | nothing
  | text (s : String)
  | compiler (c : Compiler)
  | options (o : ScanOptions)
  | bytes (content : Option Bytes)
  | flag (b : Bool)
  | count (n : Nat)
  | rules (found : List Rule)
  | matchLists (results : List (Except Error (List Rule)))
  | scan (probe : Probe) (outcome : ScanOutcome)
  | inspection (compilers rules owners : List String)

inductive Answer where
  | skipped (kind : Kind) (name : String)
  | result (r : Except Error Value)

structure Workspace where
  host : Host
  compilers : Slots Compiler := []
  ruleSets : Slots RuleSet := []
  owners : Slots Owner := []

namespace Workspace

/-- A handler that follows a script. `nested` is the rule set of its own scans. -/
def scripted (nested : Option (RuleSet × Bytes)) : Handler Probe :=
  fun rule (h, p) =>
    let p := { p with seen := p.seen ++ [rule] }
    let (h, p) : Host × Probe :=
      match nested with
      | none => (h, p)
      | some (s, data) =>
        let (result, h) := s.matchBuffer data h
        (h, { p with nested := p.nested ++ [result] })
    match p.responses with
    | [] => (.verdict .proceed, h, p)
    | .verdict v :: rest => (.verdict v, h, { p with responses := rest })
    | .panic :: rest => (.panic "handler panic", h, { p with responses := rest })

def nestedScan (w : Workspace) (script : Script) : Option (RuleSet × Bytes) :=
  script.nested.bind fun (name, data) => (w.ruleSets.get? name).map (·, data)

def putRules (w : Workspace) (name : String) (s : RuleSet) : Workspace :=
  let old := w.ruleSets.get? name
  let w := { w with ruleSets := w.ruleSets.put name s }
  match old with
  | some old => { w with host := old.drop w.host }
  | none => w

def putCompiler (w : Workspace) (name : String) (c : Compiler) : Workspace :=
  let old := w.compilers.get? name
  let w := { w with compilers := w.compilers.put name c }
  match old with
  | some old => { w with host := old.drop w.host }
  | none => w

def putOwner (w : Workspace) (name : String) (r : Owner) : Workspace :=
  let old := w.owners.get? name
  let w := { w with owners := w.owners.put name r }
  match old with
  | some old => { w with host := old.drop w.host }
  | none => w

def withCompiler (w : Workspace) (name : String) (f : Compiler → Answer × Workspace) :
    Answer × Workspace :=
  match w.compilers.get? name with
  | some c => f c
  | none => (.skipped .compiler name, w)

def withRules (w : Workspace) (name : String) (f : RuleSet → Answer × Workspace) :
    Answer × Workspace :=
  match w.ruleSets.get? name with
  | some s => f s
  | none => (.skipped .rules name, w)

def withOwner (w : Workspace) (name : String) (f : Owner → Answer × Workspace) :
    Answer × Workspace :=
  match w.owners.get? name with
  | some r => f r
  | none => (.skipped .owner name, w)

def done (r : Except Error Unit) : Answer := .result (r.map fun _ => .nothing)

def added (w : Workspace) (name : String) (answer : Except Error Unit × Compiler × Host) :
    Answer × Workspace :=
  let (r, c, h) := answer
  (done r, { w with host := h, compilers := w.compilers.put name c })

def produced (w : Workspace) (name : String) (value : RuleSet → Value)
    (answer : Except Error RuleSet × Host) : Answer × Workspace :=
  match answer with
  | (.ok s, h) => (.result (.ok (value s)), { w with host := h }.putRules name s)
  | (.error e, h) => (.result (.error e), { w with host := h })

def scanned (w : Workspace) (call : ScanCall) (script : Script) : Answer × Workspace :=
  let (outcome, h, probe) := call.run (scripted (w.nestedScan script))
    (w.host, { responses := script.responses })
  (.result (.ok (.scan probe outcome)), { w with host := h })

def matchEach (s : RuleSet) (h : Host) : List Bytes → List (Except Error (List Rule)) × Host
  | [] => ([], h)
  | data :: rest =>
    let (result, h) := s.matchBuffer data { h with thread := h.thread + 1 }
    let (results, h) := matchEach s h rest
    (result :: results, h)

def step (w : Workspace) : Step → Answer × Workspace
  | .start name faults =>
    match Owner.start faults w.host with
    | (.ok r, h) => (.result (.ok (.text Engine.name)), { w with host := h }.putOwner name r)
    | (.error e, h) => (.result (.error e), { w with host := h })
  | .compiler owner name strict =>
    w.withOwner owner fun r =>
      match Compiler.create r w.host with
      | (.ok c, h) =>
        let c := { c with failOnWarnings := strict.getD c.failOnWarnings }
        (.result (.ok (.compiler c)), { w with host := h }.putCompiler name c)
      | (.error e, h) => (.result (.error e), { w with host := h })
  | .addText name ns text =>
    w.withCompiler name fun c => w.added name (c.addText ns text w.host)
  | .addFile name ns path =>
    w.withCompiler name fun c => w.added name (c.addFile ns path w.host)
  | .addFiles name ns paths =>
    w.withCompiler name fun c => w.added name (c.addFiles ns w.host paths)
  | .rules compiler name =>
    w.withCompiler compiler fun c =>
      let w := { w with compilers := w.compilers.erase compiler }
      w.produced name (fun s => .options s.options) (c.rules w.host)
  | .withOptions name options =>
    w.withRules name fun s =>
      (.result (.ok (.options options)),
        { w with ruleSets := w.ruleSets.put name (s.withOptions options) })
  | .scanBuffer name data options script =>
    w.withRules name fun s =>
      w.scanned ⟨s, .buffer data, options.getD s.options⟩ script
  | .scanFile name path options script =>
    w.withRules name fun s =>
      w.scanned ⟨s, .file path, options.getD s.options⟩ script
  | .matchBuffer name data =>
    w.withRules name fun s =>
      let (r, h) := s.matchBuffer data w.host
      (.result (r.map .rules), { w with host := h })
  | .matchFile name path =>
    w.withRules name fun s =>
      let (r, h) := s.matchFile path w.host
      (.result (r.map .rules), { w with host := h })
  | .matchOnThreads name buffers =>
    w.withRules name fun s =>
      let (results, h) := matchEach s w.host buffers
      (.result (.ok (.matchLists results)), { w with host := { h with thread := w.host.thread } })
  | .save name path =>
    w.withRules name fun s =>
      let (r, h) := s.save path w.host
      (done r, { w with host := h })
  | .saveBytes name =>
    w.withRules name fun s =>
      let (r, h) := s.saveBytes w.host
      (.result (r.map fun content => .bytes (some content)), { w with host := h })
  | .load owner name path =>
    w.withOwner owner fun r => w.produced name (fun _ => .nothing) (RuleSet.load r path w.host)
  | .loadBytes owner name content =>
    w.withOwner owner fun r =>
      w.produced name (fun _ => .nothing) (RuleSet.loadBytes r content w.host)
  | .destroyCompiler name =>
    w.withCompiler name fun c =>
      (done (.ok ()), { w with host := c.drop w.host, compilers := w.compilers.erase name })
  | .destroyRules name =>
    w.withRules name fun s =>
      let (r, h) := s.destroy w.host
      (done r, { w with host := h, ruleSets := w.ruleSets.erase name })
  | .dropRules name =>
    w.withRules name fun s =>
      (done (.ok ()), { w with host := s.drop w.host, ruleSets := w.ruleSets.erase name })
  | .finalize name =>
    w.withOwner name fun r =>
      let (result, h) := r.finalize w.host
      (done result, { w with host := h, owners := w.owners.erase name })
  | .dropOwner name =>
    w.withOwner name fun r =>
      (done (.ok ()), { w with host := r.drop w.host, owners := w.owners.erase name })
  | .live name =>
    w.withOwner name fun r => (.result (.ok (.count (r.liveResources w.host))), w)
  | .inspect =>
    (.result (.ok (.inspection (w.compilers.map (·.2.inspect)) (w.ruleSets.map (·.2.inspect))
      (w.owners.map (·.2.inspect w.host)))), w)
  | .writeFile path entry =>
    (done (.ok ()), { w with host := { w.host with files := w.host.files.plant path entry } })
  | .fileContent path =>
    (.result (.ok (.bytes (w.host.files.readFile path).toOption)), w)
  | .removeFile path =>
    match path.ask (w.host.files.remove path) with
    | .ok files => (.result (.ok (.flag true)), { w with host := { w.host with files := files } })
    | .error _ => (.result (.ok (.flag false)), w)

def close (w : Workspace) : Workspace :=
  let h := w.compilers.foldl (fun h (_, c) => c.drop h) w.host
  let h := w.ruleSets.foldl (fun h (_, s) => s.drop h) h
  let h := w.owners.foldl (fun h (_, r) => r.drop h) h
  { host := h }

end Workspace

end Needle
