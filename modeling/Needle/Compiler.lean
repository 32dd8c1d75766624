import Needle.RuleSet
import Needle.Text.Inspect

/-!
# Compilers

A compiler takes rule texts one after another and gives a rule set at the end. A text with a faulty
line makes the session fail: nothing more can be added, and there will be no rule set. What is
wrong with the arguments or the file is found before the engine sees the text, and leaves the
session as it was.
-/
set_option autoImplicit false

namespace Needle

structure Compiler where
  slot : Nat
  handle : Handle
  failOnWarnings : Bool := false
  /-- The number of faulty lines, once there are any. -/
  failed : Option Nat := none
  warnings : List Diagnostic := []
  /-- The namespaces of the texts that were added, in the order of their first use. -/
  namespaces : List String := []
  sources : Nat := 0
deriving DecidableEq

namespace Compiler

def create (r : Owner) (h : Host) : Except Error Compiler × Host :=
  match h.call r.slot Engine.createCompiler with
  | (.error code, h) => (.error (.engine code), h)
  | (.ok handle, h) =>
    (.ok { slot := r.slot, handle := handle }, (h.note .compilerCreated).hold r.slot)

def usable (c : Compiler) : Except Error Unit :=
  match c.failed with
  | some errors => .error (.sessionFailed errors)
  | none => .ok ()

/-- Takes the engine's answer to a text: warnings are kept in any case; a faulty line fails the
session. -/
def absorb (c : Compiler) (ns : String) (errors : Nat) (diagnostics : List Diagnostic) (h : Host) :
    Except Error Unit × Compiler × Host :=
  let warnings := diagnostics.filter (·.severity = .warning)
  let h := warnings.foldl (fun h d => h.note (.compileWarning d)) h
  let c := { c with warnings := c.warnings ++ warnings }
  if 0 < errors then
    (.error (.compile ns errors diagnostics), { c with failed := some errors }, h)
  else
    let namespaces := if c.namespaces.contains ns then c.namespaces else c.namespaces ++ [ns]
    (.ok (), { c with namespaces := namespaces, sources := c.sources + 1 }, h)

def accepts (c : Compiler) (ns : String) : Except Error Unit := do
  c.usable
  let _ ← Plain.namespaceName ns

def addText (c : Compiler) (ns text : String) (h : Host) :
    Except Error Unit × Compiler × Host :=
  match c.accepts ns, Plain.text text "rule source" with
  | .error e, _ => (.error e, c, h)
  | .ok _, .error e => (.error e, c, h)
  | .ok _, .ok _ =>
    let ((errors, diagnostics), h) := (h.note (.compilingText ns)).call c.slot
      fun e => e.addText c.handle ns text
    c.absorb ns errors diagnostics h

def sourceFile (files : FileTree) (path : Path) : Except Error Bytes :=
  match files.openObject path with
  | .ok (.file content) => .ok content
  | .ok _ => .error (.fileRead path (.other "not a regular file"))
  | .error cause => .error (.fileRead path cause)

def addFile (c : Compiler) (ns : String) (path : Path) (h : Host) :
    Except Error Unit × Compiler × Host :=
  match c.accepts ns, Plain.path path, sourceFile h.files path with
  | .error e, _, _ => (.error e, c, h)
  | .ok _, .error e, _ => (.error e, c, h)
  | .ok _, .ok _, .error e => (.error e, c, h)
  | .ok _, .ok _, .ok content =>
    let ((errors, diagnostics), h) := (h.note (.compilingFile path ns)).call c.slot
      fun e => e.addFile c.handle ns path (FileTree.textOf content)
    c.absorb ns errors diagnostics h

def addFiles (c : Compiler) (ns : String) (h : Host) :
    List Path → Except Error Unit × Compiler × Host
  | [] => (.ok (), c, h)
  | path :: rest =>
    match c.addFile ns path h with
    | (.ok (), c, h) => addFiles c ns h rest
    | (.error e, c, h) => (.error e, c, h)

def drop (c : Compiler) (h : Host) : Host :=
  let (_, h) := h.call c.slot fun e => ((), e.destroyCompiler c.handle)
  h.release c.slot

def finish (c : Compiler) (h : Host) : Except Error RuleSet × Host :=
  match c.usable with
  | .error e => (.error e, h)
  | .ok () =>
    if c.failOnWarnings && !c.warnings.isEmpty then
      (.error (.compile (",".intercalate c.namespaces) c.warnings.length c.warnings), h)
    else
      match h.call c.slot fun e => e.getRules c.handle with
      | (.error code, h) => (.error (.engine code), h)
      | (.ok handle, h) =>
        (.ok ⟨c.slot, handle, {}⟩,
          (h.note (.compiled c.sources c.namespaces.length)).hold c.slot)

/-- Turns the compiler into its rule set; the compiler is given up in any case. -/
def rules (c : Compiler) (h : Host) : Except Error RuleSet × Host :=
  let (result, h) := c.finish h
  (result, c.drop h)

def inspect (c : Compiler) : String :=
  let failed := match c.failed with
    | none => "None"
    | some errors => "Some(" ++ Decimal.ofNat errors ++ ")"
  "Compiler \x7b namespaces: " ++ Text.inspectAll c.namespaces ++ ", sources: "
    ++ Decimal.ofNat c.sources ++ ", warnings: " ++ Decimal.ofNat c.warnings.length
    ++ ", failed: " ++ failed ++ " \x7d"

end Compiler

end Needle
