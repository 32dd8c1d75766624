import Needle.File.Path

/-!
# File trees

A tree keeps what every location holds: a file with its content, a directory or a symbolic link. A
location is the list of names that lead to it from the root without any link, so two paths name the
same object exactly when they resolve to the same location. Resolving walks a path name by name,
follows links, at most forty of them, and fails for the causes that an operating system gives.

Every operation that changes a tree changes one location.
-/
set_option autoImplicit false

namespace Needle

inductive OsError where
  | notFound
  | alreadyExists
  | notDirectory
  | isDirectory
  | nameTooLong
  | tooManyLinks
deriving DecidableEq

/-- The names from the root, without links. -/
abbrev Location := List Name

inductive Entry where
  | file (content : Bytes)
  | directory
  | link (target : Path)
deriving DecidableEq

structure FileTree where
  entries : List (Location × Entry)
  current : Location
deriving DecidableEq

/-- Where a path leads: to an object, or to a free name in a directory. -/
inductive Place where
  | object (location : Location) (entry : Entry)
  | free (location : Location)
deriving DecidableEq

namespace FileTree

def entry? (t : FileTree) (l : Location) : Option Entry :=
  if l.isEmpty then some .directory else t.entries.lookup l

def members (t : FileTree) (dir : Location) : List (Location × Entry) :=
  t.entries.filter fun (l, _) => !l.isEmpty && l.dropLast == dir

def put (t : FileTree) (l : Location) (e : Entry) : FileTree :=
  if t.entries.any (·.1 == l) then
    { t with entries := t.entries.map fun old => if old.1 == l then (l, e) else old }
  else { t with entries := t.entries ++ [(l, e)] }

def drop (t : FileTree) (l : Location) : FileTree :=
  { t with entries := t.entries.filter (·.1 != l) }

def nameLimit : Nat := 255

def pathLimit : Nat := 4096

def linkLimit : Nat := 40

/-- What the last name of a path is looked up for: for the object itself, also if it is a link; for
what the object leads to; or for a file to be written, which a slash at the end refuses unseen. -/
inductive Purpose where
  | itself
  | target
  | writing
deriving DecidableEq

/-- The names of a path, with an empty name at the end where the path ends in a slash and so has to
lead to a directory. -/
def steps (p : Path) : List Name :=
  if p.endsInSlash then p.names ++ [[]] else p.names

/-- Walks names from a directory. A link in the middle is always followed. -/
def walk (t : FileTree) (purpose : Purpose) (links : Nat) (here : Location) (todo : List Name) :
    Except OsError Place :=
  match todo with
  | [] => .ok (.object here .directory)
  | name :: rest =>
    if name.isEmpty || name == Path.dot then walk t purpose links here rest
    else if name == Path.dotDot then walk t purpose links here.dropLast rest
    else if purpose = .writing ∧ rest = [[]] then .error .isDirectory
    else if name.length > nameLimit then .error .nameTooLong
    else
      let there := here ++ [name]
      match t.entry? there with
      | none => if rest.isEmpty then .ok (.free there) else .error .notFound
      | some .directory => walk t purpose links there rest
      | some (.file content) =>
        if rest.isEmpty then .ok (.object there (.file content)) else .error .notDirectory
      | some (.link target) =>
        if rest.isEmpty && purpose = .itself then .ok (.object there (.link target))
        else
          match links with
          | 0 => .error .tooManyLinks
          | links + 1 =>
            if target.bytes.isEmpty then .error .notFound
            else
              walk t purpose links (if target.isAbsolute then [] else here) (steps target ++ rest)
termination_by (links, todo.length)

def refusal? (p : Path) : Option OsError :=
  if p.bytes.isEmpty then some .notFound
  else if p.bytes.length ≥ pathLimit then some .nameTooLong
  else none

def locate (t : FileTree) (purpose : Purpose) (p : Path) (names : List Name) :
    Except OsError Place :=
  match refusal? p with
  | some cause => .error cause
  | none => walk t purpose linkLimit (if p.isAbsolute then [] else t.current) names

def find (t : FileTree) (purpose : Purpose) (p : Path) : Except OsError (Location × Entry) :=
  match locate t purpose p (steps p) with
  | .ok (.object l e) => .ok (l, e)
  | .ok (.free _) => .error .notFound
  | .error e => .error e

def stat (t : FileTree) (p : Path) : Except OsError Entry :=
  (find t .target p).map Prod.snd

def exists? (t : FileTree) (p : Path) : Bool :=
  match stat t p with
  | .ok _ => true
  | .error _ => false

def isDirectory (t : FileTree) (p : Path) : Bool :=
  match stat t p with
  | .ok .directory => true
  | _ => false

def read (t : FileTree) (p : Path) : Except OsError Bytes :=
  match stat t p with
  | .ok (.file content) => .ok content
  | .ok _ => .error .isDirectory
  | .error e => .error e

def writeTarget (t : FileTree) (p : Path) : Except OsError Location :=
  match locate t .writing p (steps p) with
  | .ok (.object l (.file _)) => .ok l
  | .ok (.object _ _) => .error .isDirectory
  | .ok (.free l) => .ok l
  | .error e => .error e

def write (t : FileTree) (p : Path) (content : Bytes) : Except OsError FileTree :=
  (writeTarget t p).map fun l => t.put l (.file content)

def create (t : FileTree) (p : Path) (names : List Name) (e : Entry) : Except OsError FileTree :=
  match locate t .itself p names with
  | .ok (.free l) => .ok (t.put l e)
  | .ok (.object _ _) => .error .alreadyExists
  | .error e => .error e

def makeDirectory (t : FileTree) (p : Path) : Except OsError FileTree :=
  create t p p.names .directory

def makeLink (t : FileTree) (p target : Path) : Except OsError FileTree :=
  match refusal? target with
  | some cause => .error cause
  -- The target need not lead anywhere.
  | none => create t p (steps p) (.link target)

/-- Makes the directory at the end of `ancestors`, whose first element is the directory itself and
whose later elements are its ancestors, the nearest first, up to the first that exists. -/
def makeChain (t : FileTree) : List Path → FileTree × Except OsError Unit
  | [] => (t, .ok ())
  | p :: ancestors =>
    match makeDirectory t p with
    | .ok t => (t, .ok ())
    | .error .notFound =>
      match makeChain t ancestors with
      | (t, .error e) => (t, .error e)
      | (t, .ok ()) =>
        match makeDirectory t p with
        | .ok t => (t, .ok ())
        | .error e => if t.isDirectory p then (t, .ok ()) else (t, .error e)
    | .error e => if t.isDirectory p then (t, .ok ()) else (t, .error e)

/-- Makes a directory and every missing directory above it, but neither the root nor the empty path.
What was made stays also when a later step fails. -/
def makeDirectories (t : FileTree) (p : Path) : FileTree × Except OsError Unit :=
  if p.bytes.isEmpty then (t, .ok ())
  else makeChain t (p :: p.ancestors.filter (·.parent?.isSome))

def remove (t : FileTree) (p : Path) : Except OsError FileTree :=
  match find t .itself p with
  | .ok (_, .directory) => .error .isDirectory
  | .ok (l, _) => .ok (t.drop l)
  | .error e => .error e

end FileTree

end Needle
