import Needle.File.Tree

/-!
# Reading and writing by path

Access to files as programs see it: a path with a NUL byte is refused before the system sees it, a
directory can be opened but not read, and text has to be UTF-8. `IoError.text` is the wording of
each cause.
-/
set_option autoImplicit false

namespace Needle

inductive IoError where
  | os (cause : OsError)
  | nulInName
  | notUtf8
  | other (text : String)
deriving DecidableEq

def OsError.text : OsError → String
  | .notFound => "No such file or directory (os error 2)"
  | .alreadyExists => "File exists (os error 17)"
  | .notDirectory => "Not a directory (os error 20)"
  | .isDirectory => "Is a directory (os error 21)"
  | .nameTooLong => "File name too long (os error 36)"
  | .tooManyLinks => "Too many levels of symbolic links (os error 40)"

def IoError.text : IoError → String
  | .os cause => cause.text
  | .nulInName => "file name contained an unexpected NUL byte"
  | .notUtf8 => "stream did not contain valid UTF-8"
  | .other text => text

/-- The answer of the system about a path, unless the path holds a NUL byte. -/
def Path.ask {α : Type} (p : Path) (answer : Except OsError α) : Except IoError α :=
  if p.hasNul then .error .nulInName else answer.mapError .os

namespace FileTree

def openObject (t : FileTree) (p : Path) : Except IoError Entry :=
  p.ask (t.stat p)

def readFile (t : FileTree) (p : Path) : Except IoError Bytes :=
  p.ask (t.read p)

def textOf (content : Bytes) : Except IoError String :=
  match Utf8.decode? content with
  | some s => .ok s
  | none => .error .notUtf8

def readText (t : FileTree) (p : Path) : Except IoError String :=
  t.readFile p >>= textOf

def writeFile (t : FileTree) (p : Path) (content : Bytes) : Except IoError FileTree :=
  p.ask (t.write p content)

def makePath (t : FileTree) (p : Path) : FileTree × Except IoError Unit :=
  if p.hasNul then (t, .error .nulInName)
  else
    let (t, result) := t.makeDirectories p
    (t, result.mapError .os)

def holds (t : FileTree) (p : Path) : Bool :=
  !p.hasNul && t.exists? p

def linkTo (t : FileTree) (p target : Path) : Except IoError FileTree :=
  if target.hasNul then .error .nulInName else p.ask (t.makeLink p target)

/-- Puts an object at a path and makes the directories above it as needed. What cannot be made is
left out. -/
def plant (t : FileTree) (p : Path) (e : Entry) : FileTree :=
  let t := match p.parent? with
    | some dir => (t.makePath dir).1
    | none => t
  match e with
  | .file content => (t.writeFile p content).toOption.getD t
  | .directory => (t.makePath p).1
  | .link target => (t.linkTo p target).toOption.getD t

def isTaken (t : FileTree) (p : Path) : Bool :=
  match t.find .itself p with
  | .ok _ => true
  | .error _ => false

def tempName (n : Nat) : String :=
  let digits := Nat.toDigits 10 n
  String.ofList (['.', 't', 'm', 'p'] ++ List.replicate (6 - digits.length) '0' ++ digits)

/-- A path in a directory under a name that no member has. -/
def freshPath (t : FileTree) (dir : Path) : Path :=
  let candidates := (List.range (t.entries.length + 1)).map fun n =>
    dir.join (Path.ofText (tempName n))
  (candidates.find? fun p => !t.isTaken p).getD dir

end FileTree

end Needle
