import Needle.Text.Utf8

/-!
# Paths

A path is a byte string; `/` separates names. Where a path is shown, bytes that are no UTF-8 appear
as U+FFFD, so two paths may look alike and still name different files.
-/
set_option autoImplicit false

namespace Needle

structure Path where
  bytes : Bytes
deriving DecidableEq

abbrev Name := Bytes

namespace Path

def ofText (s : String) : Path := ⟨Utf8.encode s⟩

def slash : UInt8 := 0x2F

def dot : Name := [0x2E]

def dotDot : Name := [0x2E, 0x2E]

def display (p : Path) : String := Utf8.lossy p.bytes

def isAbsolute (p : Path) : Bool :=
  p.bytes.head? == some slash

def hasNul (p : Path) : Bool := p.bytes.contains 0

def endsInSlash (p : Path) : Bool :=
  p.bytes.getLast? == some slash

def pieceStep (b : UInt8) : List Name → List Name
  | [] => if b = slash then [[], []] else [[b]]
  | name :: names => if b = slash then [] :: name :: names else (b :: name) :: names

/-- What stands between the slashes, also where nothing does. -/
def pieces (p : Path) : List Name := p.bytes.foldr pieceStep [[]]

def names (p : Path) : List Name := p.pieces.filter (fun name => !name.isEmpty)

/-- A path below a directory; an absolute path stands for itself. -/
def join (dir below : Path) : Path :=
  if below.isAbsolute || dir.bytes.isEmpty then below
  else if dir.endsInSlash then ⟨dir.bytes ++ below.bytes⟩
  else ⟨dir.bytes ++ slash :: below.bytes⟩

def ofPieces : List Name → Path
  | [[]] => ⟨[slash]⟩
  | pieces => ⟨[slash].intercalate pieces⟩

def isIdle (piece : Name) : Bool := piece.isEmpty || piece == dot

def trim (pieces : List Name) : List Name := (pieces.reverse.dropWhile isIdle).reverse

/-- The path without its last name and without idle pieces at its end. What stands before is left
as it is written, so a path that is too long can have a parent that is too long as well. The root
and the empty path have no parent; a `.` that a relative path begins with counts as a name. -/
def parent? (p : Path) : Option Path :=
  match p.pieces with
  | [] => none
  | first :: rest =>
    if isIdle first then
      match trim rest with
      | [] => if first = dot then some ⟨[]⟩ else none
      | body => some (ofPieces (first :: trim body.dropLast))
    else some (ofPieces (trim (trim (first :: rest)).dropLast))

def climb (p : Path) : Nat → List Path
  | 0 => []
  | n + 1 =>
    match p.parent? with
    | some dir => dir :: climb dir n
    | none => []

def ancestors (p : Path) : List Path := p.climb p.bytes.length

end Path

end Needle
