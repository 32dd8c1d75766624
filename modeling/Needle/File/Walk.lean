import Needle.File.Access

/-!
# Walks

A walk visits what lies at and below a path, each directory before its members, and yields an item
for everything it visits: an object with its kind, or an error. A directory tells the kinds of its
members itself, so a member is met even where its own path is refused; what such a path is needed
for, the size of a file, the members of a directory or the goal of a link, stays unknown or fails.

Links are followed or yielded as links, as the caller asks, except that a link named as the start of
a walk is entered if it leads to a directory. A followed link to a directory that the walk is just
in would never end, and is an error of its own.
-/
set_option autoImplicit false

namespace Needle

inductive WalkError where
  | system (path : Path) (cause : IoError)
  | loop (ancestor child : Path)
deriving DecidableEq

def WalkError.text : WalkError → String
  | .system path cause => "IO error for operation on " ++ path.display ++ ": " ++ cause.text
  | .loop ancestor child =>
    "File system loop found: " ++ child.display ++ " points to an ancestor " ++ ancestor.display

def WalkError.path : WalkError → Path
  | .system path _ => path
  | .loop _ child => child

/-- The kind of an object that a walk visits. The size of a file is unknown where the system
refuses its path. -/
inductive WalkKind where
  | file (size : Option Nat)
  | directory
  | link
deriving DecidableEq

inductive WalkItem where
  | visited (path : Path) (kind : WalkKind)
  | failed (error : WalkError)
deriving DecidableEq

namespace FileTree

structure WalkOptions where
  followLinks : Bool
  maxDepth : Option Nat
deriving DecidableEq

def WalkOptions.enters (o : WalkOptions) (depth : Nat) : Bool :=
  match o.maxDepth with
  | none => true
  | some limit => depth < limit

def inspect (t : FileTree) (purpose : Purpose) (path : Path) :
    Except WalkError (Location × Entry) :=
  (path.ask (t.find purpose path)).mapError (.system path ·)

def linkedDirectory (t : FileTree) (path : Path) : Except WalkError (Option Location) :=
  (t.inspect .target path).map fun (l, e) => if e = .directory then some l else none

def directories (t : FileTree) : List Location :=
  [] :: (t.entries.filter (·.2 = .directory)).map Prod.fst

def deepest (t : FileTree) : Nat :=
  (t.entries.map fun e => e.1.length).foldl max 0

def size? (t : FileTree) (path : Path) : Option Nat :=
  match t.stat path with
  | .ok (.file content) => some content.length
  | _ => none

/-- What a walk makes of an object that it meets at a location: the item for it, and the directory
to enter if it is or leads to one. `inside` are the directories that the walk is in, the innermost
first, with the paths by which it came. -/
def meet (t : FileTree) (o : WalkOptions) (inside : List (Location × Path)) (path : Path)
    (here : Location) : Entry → WalkItem × Option Location
  | .file _ => (.visited path (.file (t.size? path)), none)
  | .directory => (.visited path .directory, some here)
  | .link _ =>
    if o.followLinks then
      match t.inspect .target path with
      | .error e => (.failed e, none)
      | .ok (l, .directory) =>
        match inside.find? (·.1 == l) with
        | some (_, ancestor) => (.failed (.loop ancestor path), none)
        | none => (.visited path .directory, some l)
      | .ok (_, .file _) => (.visited path (.file (t.size? path)), none)
      | .ok (_, .link _) => (.visited path .link, none)
    else if inside.isEmpty then
      match t.linkedDirectory path with
      | .error e => (.failed e, none)
      | .ok l => (.visited path .link, l)
    else (.visited path .link, none)

/-- Visits the members of a directory and what lies below them. Every directory that is entered is
either one of the `unseen`, in which the walk is not yet, or lies deeper than the one it is entered
from, so the walk ends. -/
def descend (t : FileTree) (o : WalkOptions) (unseen : List Location)
    (inside : List (Location × Path)) (here : Location) (path : Path) : List WalkItem :=
  if o.enters (inside.length - 1) then
    match t.inspect .target path with
    | .error e => [.failed e]
    | .ok _ =>
      (t.members here).flatMap fun (member, entry) =>
        let child := path.join ⟨member.getLastD []⟩
        match t.meet o inside child member entry with
        | (item, none) => [item]
        | (item, some l) =>
          item ::
            if l ∈ unseen ∨ (here.length < l.length ∧ l.length ≤ t.deepest) then
              t.descend o (unseen.erase l) ((l, child) :: inside) l child
            else []
  else []
termination_by (unseen.length, t.deepest - here.length)
decreasing_by
  rename_i entered
  by_cases seen : l ∈ unseen
  · have shorter := List.length_erase_of_mem seen
    have nonempty := List.length_pos_of_mem seen
    exact Prod.Lex.left _ _ (by omega)
  · have deeper := entered.resolve_left seen
    rw [List.erase_of_not_mem seen]
    exact Prod.Lex.right _ (by omega)

def walkFrom (t : FileTree) (o : WalkOptions) (path : Path) : List WalkItem :=
  match t.inspect .itself path with
  | .error e => [.failed e]
  | .ok (start, entry) =>
    match t.meet o [] path start entry with
    | (item, none) => [item]
    | (item, some l) => item :: t.descend o (t.directories.erase l) [(l, path)] l path

end FileTree

end Needle
