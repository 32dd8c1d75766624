import Needle.File.Tree

/-!
# Where a path leads

`Leads` says by rules where a walk along names ends: one rule for each kind of name and for each
kind of object that a name can stand for. The walk ends at a place exactly when the rules lead
there, so what holds of every place is proved by induction over the rules.
-/
set_option autoImplicit false

namespace Needle.FileTree

/-- A name that is looked up: neither idle nor `..`, not too long, and not refused because a slash
follows the name of a file to be written. -/
structure LookedUp (purpose : Purpose) (name : Name) (rest : List Name) : Prop where
  named : ¬ (name.isEmpty || name == Path.dot) = true
  below : ¬ (name == Path.dotDot) = true
  allowed : ¬ (purpose = .writing ∧ rest = [[]])
  short : ¬ name.length > nameLimit

def startOf (target : Path) (here : Location) : Location :=
  if target.isAbsolute then [] else here

inductive Leads (t : FileTree) (purpose : Purpose) :
    Nat → Location → List Name → Place → Prop where
  | here {links : Nat} {here : Location} : Leads t purpose links here [] (.object here .directory)
  | idle {links : Nat} {here : Location} {name : Name} {rest : List Name} {place : Place}
      (named : (name.isEmpty || name == Path.dot) = true)
      (next : Leads t purpose links here rest place) : Leads t purpose links here (name :: rest) place
  | up {links : Nat} {here : Location} {name : Name} {rest : List Name} {place : Place}
      (named : ¬ (name.isEmpty || name == Path.dot) = true) (above : (name == Path.dotDot) = true)
      (next : Leads t purpose links here.dropLast rest place) :
      Leads t purpose links here (name :: rest) place
  | free {links : Nat} {here : Location} {name : Name} (looked : LookedUp purpose name [])
      (absent : t.entry? (here ++ [name]) = none) :
      Leads t purpose links here [name] (.free (here ++ [name]))
  | down {links : Nat} {here : Location} {name : Name} {rest : List Name} {place : Place}
      (looked : LookedUp purpose name rest)
      (found : t.entry? (here ++ [name]) = some .directory)
      (next : Leads t purpose links (here ++ [name]) rest place) :
      Leads t purpose links here (name :: rest) place
  | file {links : Nat} {here : Location} {name : Name} {content : Bytes}
      (looked : LookedUp purpose name []) (found : t.entry? (here ++ [name]) = some (.file content)) :
      Leads t purpose links here [name] (.object (here ++ [name]) (.file content))
  | itself {links : Nat} {here : Location} {name : Name} {target : Path}
      (looked : LookedUp purpose name []) (found : t.entry? (here ++ [name]) = some (.link target))
      (last : purpose = .itself) :
      Leads t purpose links here [name] (.object (here ++ [name]) (.link target))
  | follow {links : Nat} {here : Location} {name : Name} {rest : List Name} {target : Path}
      {place : Place} (looked : LookedUp purpose name rest)
      (found : t.entry? (here ++ [name]) = some (.link target))
      (followed : ¬ (rest.isEmpty && purpose = .itself) = true)
      (leads : ¬ target.bytes.isEmpty = true)
      (next : Leads t purpose links (startOf target here) (steps target ++ rest) place) :
      Leads t purpose (links + 1) here (name :: rest) place

theorem leads_of_walk {t : FileTree} {purpose : Purpose} {links : Nat} {here : Location}
    {todo : List Name} {place : Place} (walked : walk t purpose links here todo = .ok place) :
    Leads t purpose links here todo place := by
  fun_induction walk t purpose links here todo with
  | case1 links here =>
      cases walked
      exact .here
  | case2 links here name rest named ih => exact .idle named (ih walked)
  | case3 links here name rest named above ih => exact .up named above (ih walked)
  | case4 => cases walked
  | case5 => cases walked
  | case6 links here name rest named below allowed short there absent last =>
      cases walked
      rw [List.isEmpty_iff] at last
      subst last
      exact .free ⟨named, below, allowed, short⟩ absent
  | case7 => cases walked
  | case8 links here name rest named below allowed short there found ih =>
      exact .down ⟨named, below, allowed, short⟩ found (ih walked)
  | case9 links here name rest named below allowed short there content found last =>
      cases walked
      rw [List.isEmpty_iff] at last
      subst last
      exact .file ⟨named, below, allowed, short⟩ found
  | case10 => cases walked
  | case11 links here name rest named below allowed short there target found last =>
      cases walked
      rw [Bool.and_eq_true, List.isEmpty_iff, decide_eq_true_eq] at last
      obtain ⟨rfl, itself⟩ := last
      exact .itself ⟨named, below, allowed, short⟩ found itself
  | case12 => cases walked
  | case13 => cases walked
  | case14 here name rest named below allowed short there target found followed links leads ih =>
      exact .follow ⟨named, below, allowed, short⟩ found followed leads (ih walked)

theorem walk_of_leads {t : FileTree} {purpose : Purpose} {links : Nat} {here : Location}
    {todo : List Name} {place : Place} (leads : Leads t purpose links here todo place) :
    walk t purpose links here todo = .ok place := by
  induction leads with
  | here => rw [walk]
  | idle named _ ih => rw [walk, if_pos named, ih]
  | up named above _ ih => rw [walk, if_neg named, if_pos above, ih]
  | free looked absent =>
      rw [walk, if_neg looked.named, if_neg looked.below, if_neg looked.allowed,
        if_neg looked.short]
      simp only [absent]
      rfl
  | down looked found _ ih =>
      rw [walk, if_neg looked.named, if_neg looked.below, if_neg looked.allowed,
        if_neg looked.short]
      simp only [found, ih]
  | file looked found =>
      rw [walk, if_neg looked.named, if_neg looked.below, if_neg looked.allowed,
        if_neg looked.short]
      simp only [found]
      rfl
  | itself looked found last =>
      subst last
      rw [walk, if_neg looked.named, if_neg looked.below, if_neg looked.allowed,
        if_neg looked.short]
      simp only [found]
      rfl
  | follow looked found followed leads _ ih =>
      rw [walk, if_neg looked.named, if_neg looked.below, if_neg looked.allowed,
        if_neg looked.short]
      simp only [found, if_neg followed, if_neg leads]
      exact ih

theorem walk_eq_ok_iff {t : FileTree} {purpose : Purpose} {links : Nat} {here : Location}
    {todo : List Name} {place : Place} :
    walk t purpose links here todo = .ok place ↔ Leads t purpose links here todo place :=
  ⟨leads_of_walk, walk_of_leads⟩

end Needle.FileTree
