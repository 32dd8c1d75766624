import Needle.Command.Run
import Std.Time.Format

/-!
# The program

Everything a run can look at is read from the disk into a file tree first; then the run is computed,
and what it changed is written back. Only this module does any input or output.
-/
set_option autoImplicit false

namespace Needle.Disk

structure Snapshot where
  tree : FileTree
  entered : List Location := []

def Snapshot.put (s : Snapshot) (l : Location) (e : Entry) : Snapshot :=
  { s with tree := s.tree.put l e }

def locationOf (absolute : String) : Location := (Path.ofText absolute).names

mutual

/-- Reads the object of a name in a directory, and all that lies below it if `deep`. A link is kept
with the place that it finally leads to, which is then read as well. A link that leads in a circle
is kept as a link to itself, and one that leads nowhere as a link to the empty path. -/
partial def readObject (deep : Bool) (s : Snapshot) (dir name : String) : IO Snapshot := do
  let parent ← IO.FS.realPath (if dir.isEmpty then "/" else dir)
  let path := parent / name
  let location := locationOf path.toString
  let kind : Option IO.FS.FileType := (← path.symlinkMetadata.toBaseIO).toOption.map (·.type)
  match kind with
  | some .file =>
    let content ← IO.FS.readBinFile path
    return s.put location (.file content.toList)
  | some .dir =>
    let s := s.put location .directory
    if deep && !s.entered.contains location then
      let s := { s with entered := location :: s.entered }
      (← path.readDir).foldlM (fun s e => readObject deep s path.toString e.fileName) s
    else return s
  | some .symlink =>
    match (← (IO.FS.realPath path).toBaseIO) with
    | .error _ =>
      match (← path.metadata.toBaseIO) with
      | .error (.invalidArgument ..) => return s.put location (.link (.ofText path.toString))
      | _ => return s.put location (.link ⟨[]⟩)
    | .ok target => readPath deep (s.put location (.link (.ofText target.toString))) target.toString
  | _ => return s

/-- Reads the directories that lead to an absolute path, and then the object itself. What cannot be
read is left out. -/
partial def readPath (deep : Bool) (s : Snapshot) (absolute : String) : IO Snapshot := do
  let names := (absolute.splitOn "/").filter fun name => !name.isEmpty
  let step (state : Snapshot × String) (i : Nat) : IO (Snapshot × String) := do
    let (s, dir) := state
    let name := names.getD i ""
    let s ←
      if name = "." ∨ name = ".." then pure s
      else
        try readObject (deep && i + 1 = names.length) s dir name
        catch _ => pure s
    return (s, dir ++ "/" ++ name)
  return (← (List.range names.length).foldlM step (s, "")).1

end

def read (current : String) (deep : Bool) (s : Snapshot) (p : Path) : IO Snapshot :=
  readPath deep s (if p.isAbsolute then p.display else current ++ "/" ++ p.display)

def write (old new : FileTree) : IO Unit :=
  new.entries.forM fun (location, entry) => do
    if old.entry? location != some entry then
      let path := "/" ++ "/".intercalate (location.map Utf8.lossy)
      match entry with
      | .file content => IO.FS.writeBinFile path ⟨content.toArray⟩
      | .directory => IO.FS.createDirAll path
      | .link _ => pure ()

end Needle.Disk

namespace Needle

def RuleSource.paths (arguments : List String) : List Path :=
  arguments.filterMap fun argument => ((ofArgument argument "").toOption).map (·.path)

def Request.paths (r : Request) (place : Path) : List (Path × Bool) :=
  let shallow (paths : List Path) : List (Path × Bool) := paths.map (·, false)
  match r.command with
  | some (.compile rules _ output) => shallow (place :: output :: RuleSource.paths rules)
  | some (.check rules) => shallow (place :: RuleSource.paths rules)
  | some (.scan ⟨.sources rules, targets, _, _, _, _, _⟩) =>
    shallow (place :: RuleSource.paths rules) ++ targets.map (·, true)
  | some (.scan ⟨.saved path, targets, _, _, _, _, _⟩) =>
    shallow [place, path] ++ targets.map (·, true)
  | _ => shallow [place]

end Needle

open Needle in
def main (arguments : List String) : IO UInt32 := do
  let now ← Std.Time.PlainDateTime.now
  let time := now.format "uuuu-MM-dd HH:mm:ss"
  let env : Environment :=
    { home := (← IO.getEnv "HOME").map .ofText
      configHome := (← IO.getEnv "XDG_CONFIG_HOME").map .ofText }
  let current := (← IO.FS.realPath (← IO.currentDir)).toString
  let raw := arguments.map Utf8.encode
  let paths := match Request.ofArguments raw with
    | .ok r => r.paths (r.configPath env)
    | .error _ => []
  let start : Disk.Snapshot := { tree := ⟨[], Disk.locationOf current⟩ }
  let files := (← paths.foldlM (fun s (p, deep) => Disk.read current deep s p) start).tree
  let done := Completion.ofArguments env time raw { files := files, tempDir := .ofText "/tmp" }
  Disk.write files done.files
  IO.print done.output
  IO.eprint done.errors
  return done.exitCode.toUInt32
