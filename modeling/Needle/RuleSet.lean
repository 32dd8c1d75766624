import Needle.Plain
import Needle.Owner
import Needle.Scan.Run

/-!
# Rule sets

A rule set holds its engine until it is released. It is loaded from a file or made by a compiler,
never changes, and can be scanned with any number of times, also from within a scan. Files are
opened before the engine is asked for them, so a path that cannot be read is an error of the file
and not of the engine. Scans are described here for timeouts that can be converted for the engine;
`ScanCall.run` is the call with any timeout.
-/
set_option autoImplicit false

namespace Needle

structure RuleSet where
  slot : Nat
  handle : Handle
  options : ScanOptions := {}
deriving DecidableEq

namespace RuleSet

/-- Makes a file with some content in the directory for temporary files. -/
def makeTemp (h : Host) (content : Bytes) : Except Error Path × Host :=
  let path := h.files.freshPath h.tempDir
  match h.files.writeFile path content with
  | .ok files => (.ok path, { h with files := files })
  | .error cause =>
    let place := " at path \"" ++ path.display ++ "\""
    (.error (.fileWrite h.tempDir (.other (cause.text ++ place))), h)

def dropTemp (h : Host) (path : Path) : Host :=
  match h.files.remove path with
  | .ok files => { h with files := files }
  | .error _ => h

def load (r : Owner) (path : Path) (h : Host) : Except Error RuleSet × Host :=
  match h.files.openObject path with
  | .error cause => (.error (.fileRead path cause), h)
  | .ok _ =>
    match Plain.path path with
    | .error e => (.error e, h)
    | .ok _ =>
      match h.call r.slot (fun e => e.load h.files path) with
      | (.error code, h) => (.error (Code.loadError code path), h)
      | (.ok handle, h) => (.ok ⟨r.slot, handle, {}⟩, (h.note (.loaded path)).hold r.slot)

def loadBytes (r : Owner) (content : Bytes) (h : Host) : Except Error RuleSet × Host :=
  match makeTemp h content with
  | (.error e, h) => (.error e, h)
  | (.ok path, h) =>
    let (result, h) := load r path h
    (result, dropTemp h path)

/-- Writes the rule set to a file, over whatever the file held. -/
def save (s : RuleSet) (path : Path) (h : Host) : Except Error Unit × Host :=
  match Plain.path path with
  | .error e => (.error e, h)
  | .ok _ =>
    let (code, files, e) := (h.engine s.slot).save h.files s.handle path
    let h := ({ h with files := files }).setSlot s.slot fun slot => { slot with engine := e }
    match Code.checkSave code path with
    | .error e => (.error e, h)
    | .ok () => (.ok (), h.note (.saved path))

def saveBytes (s : RuleSet) (h : Host) : Except Error Bytes × Host :=
  match makeTemp h [] with
  | (.error e, h) => (.error e, h)
  | (.ok path, h) =>
    match s.save path h with
    | (.error e, h) => (.error e, dropTemp h path)
    | (.ok (), h) =>
      let result := (h.files.readFile path).mapError (.fileRead path ·)
      (result, dropTemp h path)

/-- The rule set with options for scans that bring none of their own. -/
def withOptions (s : RuleSet) (options : ScanOptions) : RuleSet :=
  { s with options := options }

section Scanning

variable {σ : Type}

def scanBuffer (s : RuleSet) (data : Bytes) (options : ScanOptions) (handler : Handler σ)
    (state : Host × σ) : ScanOutcome × (Host × σ) :=
  if data.isEmpty then (.returned (.error .emptyBuffer), state)
  else
    let (h, own) := state
    let (loop, h) := (h.note (.scanningBuffer data.length)).call s.slot
      fun e => e.scanBuffer s.handle data options
    let (ending, state) := Scan.run handler (fun _ => loop) (h, own)
    (ending.outcome none, state)

def scanFile (s : RuleSet) (path : Path) (options : ScanOptions) (handler : Handler σ)
    (state : Host × σ) : ScanOutcome × (Host × σ) :=
  let (h, own) := state
  match h.files.openObject path with
  | .error cause => (.returned (.error (.fileRead path cause)), state)
  | .ok _ =>
    match Plain.path path with
    | .error e => (.returned (.error e), state)
    | .ok _ =>
      let (loop, h) := (h.note (.scanningFile path)).call s.slot
        fun e => e.scanFile h.files s.handle path options
      let (ending, state) := Scan.run handler (fun _ => loop) (h, own)
      (ending.outcome (some path), state)

end Scanning

def collect : Handler (List Rule) :=
  fun rule (h, seen) => (.verdict .proceed, (h, seen ++ [rule]))

/-- What a collecting scan has found, unless it failed. -/
def collected (outcome : ScanOutcome × (Host × List Rule)) : Except Error (List Rule) × Host :=
  match outcome with
  | (.returned (.ok _), h, seen) => (.ok seen, h)
  | (.returned (.error e), h, _) => (.error e, h)
  | (.panicked text, h, _) => (.error (.other text), h)

def matchBuffer (s : RuleSet) (data : Bytes) (h : Host) : Except Error (List Rule) × Host :=
  collected (s.scanBuffer data s.options collect (h, []))

def matchFile (s : RuleSet) (path : Path) (h : Host) : Except Error (List Rule) × Host :=
  collected (s.scanFile path s.options collect (h, []))

def destroy (s : RuleSet) (h : Host) : Except Error Unit × Host :=
  let (code, h) := h.call s.slot fun e => e.destroyRules s.handle
  (Code.check code, h.release s.slot)

def drop (s : RuleSet) (h : Host) : Host :=
  let (code, h) := h.call s.slot fun e => e.destroyRules s.handle
  let h := match Code.check code with
    | .ok () => h
    | .error cause => h.note (.releaseFailed cause)
  h.release s.slot

def inspect (s : RuleSet) : String :=
  let fast := if s.options.fastMode then "true" else "false"
  let timeout := match s.options.timeout with
    | none => "None"
    | some d => "Some(" ++ d.display ++ ")"
  "RuleSet \x7b engine: \"" ++ Engine.name ++ "\", options: ScanOptions \x7b fast_mode: " ++ fast
    ++ ", timeout: " ++ timeout ++ " \x7d \x7d"

end RuleSet

end Needle
