import Needle.Config.Store
import Needle.Proofs.File.Write

/-!
# Making directories

A directory that is made fills a free location, and a file that is written replaces nothing but a
file. So every directory and every link stays, and a path that leads to a directory leads there
still. Whatever directories are made on the way to a path, each is at the end of a path above it.
-/
set_option autoImplicit false

namespace Needle

def Path.Above (dir p : Path) : Prop := ∃ n, dir ∈ p.climb n

theorem Path.above_of_climb {dir parent p : Path} (named : p.parent? = some parent) {n : Nat}
    (member : dir ∈ parent :: parent.climb n) : dir.Above p := by
  refine ⟨n + 1, ?_⟩
  unfold climb
  rw [named]
  exact member

namespace FileTree

variable {t middle after : FileTree} {p : Path} {l : Location}

/-! ## Trees that grow -/

/-- Every directory and every link of a tree is still there. -/
structure Grows (t after : FileTree) : Prop where
  current : after.current = t.current
  kept : ∀ l e, t.entry? l = some e → (∀ content, e ≠ .file content) → after.entry? l = some e

theorem Grows.refl (t : FileTree) : t.Grows t := ⟨rfl, fun _ _ found _ => found⟩

theorem Grows.trans (first : t.Grows middle) (second : middle.Grows after) : t.Grows after where
  current := second.current.trans first.current
  kept l e found other := second.kept l e (first.kept l e found other) other

/-- A tree grows where there was nothing, or no more than a file. -/
theorem grows_put (plain : ∀ e, t.entry? l = some e → ∃ content, e = .file content) (e : Entry) :
    t.Grows (t.put l e) := by
  refine ⟨current_put t l e, ?_⟩
  intro there old found other
  have apart : there ≠ l := by
    rintro rfl
    obtain ⟨content, rfl⟩ := plain old found
    exact other content rfl
  rw [entry?_put_of_ne t apart, found]

theorem grows_write {content : Bytes} (wrote : t.write p content = .ok after) : t.Grows after := by
  obtain ⟨l, target, rfl⟩ := write_eq_ok_iff.mp wrote
  obtain ⟨place, located, takes⟩ := writeTarget_eq_ok_iff.mp target
  exact grows_put ((locate_eq_ok_iff.mp located).2.plain_of_takes takes) _

theorem Leads.grown {purpose : Purpose} {links : Nat} {here : Location} {todo : List Name}
    (grows : t.Grows after) (leads : Leads t purpose links here todo (.object l .directory)) :
    Leads after purpose links here todo (.object l .directory) := by
  generalize goal : Place.object l .directory = place at leads
  induction leads with
  | here => exact .here
  | idle named _ ih => exact .idle named (ih goal)
  | up named above _ ih => exact .up named above (ih goal)
  | free => contradiction
  | down looked found _ ih => exact .down looked (grows.kept _ _ found (by simp)) (ih goal)
  | file => cases goal
  | itself => cases goal
  | follow looked found followed leads _ ih =>
      exact .follow looked (grows.kept _ _ found (by simp)) followed leads (ih goal)

theorem find_grown {purpose : Purpose} (grows : t.Grows after)
    (found : t.find purpose p = .ok (l, .directory)) :
    after.find purpose p = .ok (l, .directory) := by
  rw [find_eq_ok_iff, locate_eq_ok_iff] at found ⊢
  rw [grows.current]
  exact ⟨found.1, found.2.grown grows⟩

/-! ## One directory -/

theorem leads_idle (t : FileTree) (purpose : Purpose) (links : Nat) (here : Location)
    {tail : List Name} (idle : ∀ name ∈ tail, name.isEmpty = true) :
    Leads t purpose links here tail (.object here .directory) := by
  induction tail with
  | nil => exact .here
  | cons name rest ih =>
      have named : (name.isEmpty || name == Path.dot) = true := by simp [idle name List.mem_cons_self]
      exact .idle named (ih fun other member => idle other (List.mem_cons_of_mem _ member))

/-- What leads to a free name leads to the directory that is put there, also with slashes behind. -/
theorem Leads.fill {purpose : Purpose} {links : Nat} {here : Location} {todo tail : List Name}
    (leads : Leads t purpose links here todo (.free l))
    (idle : ∀ name ∈ tail, name.isEmpty = true) :
    Leads (t.put l .directory) .target links here (todo ++ tail) (.object l .directory) := by
  have absent : t.entry? l = none := leads.held_of_takes .free
  have grows : t.Grows (t.put l .directory) :=
    grows_put (fun e found => by rw [absent] at found; contradiction) .directory
  have made := entry?_put_self t (leads.below_of_takes .free) .directory
  generalize goal : Place.free l = place at leads
  -- On the way to the free name; nothing on it has changed, since there was nothing at its end.
  induction leads with
  | here => contradiction
  | idle named _ ih => exact .idle named (ih goal)
  | up named above _ ih => exact .up named above (ih goal)
  | free looked =>
      cases goal
      exact .down (looked.relax (by decide)) made (leads_idle _ _ _ _ idle)
  | down looked found _ ih =>
      exact .down (looked.relax (by decide)) (grows.kept _ _ found (by simp)) (ih goal)
  | file => contradiction
  | itself => contradiction
  | follow looked found followed leads _ ih =>
      have rest := ih goal
      rw [List.append_assoc] at rest
      exact .follow (looked.relax (by decide)) (grows.kept _ _ found (by simp)) (by simp) leads rest

/-- Directories were made, each at the end of one of these paths, and nothing else was changed. -/
structure Makes (paths : Path → Prop) (t after : FileTree) : Prop where
  grows : t.Grows after
  made : ∀ l, after.entry? l = t.entry? l ∨ t.entry? l = none ∧
    ∃ dir, paths dir ∧ after.find .target dir = .ok (l, .directory)

theorem Makes.refl (paths : Path → Prop) (t : FileTree) : Makes paths t t :=
  ⟨.refl t, fun _ => Or.inl rfl⟩

theorem Makes.trans {paths : Path → Prop} (first : Makes paths t middle)
    (second : Makes paths middle after) : Makes paths t after where
  grows := first.grows.trans second.grows
  made l := by
    rcases first.made l with same | ⟨absent, dir, among, found⟩
    · rcases second.made l with still | ⟨absent, made⟩
      · exact Or.inl (still.trans same)
      · exact Or.inr ⟨same.symm.trans absent, made⟩
    · exact Or.inr ⟨absent, dir, among, find_grown second.grows found⟩

theorem steps_eq (p : Path) : ∃ tail, steps p = p.names ++ tail ∧
    ∀ name ∈ tail, name.isEmpty = true := by
  unfold steps
  split
  · refine ⟨[[]], rfl, fun name member => ?_⟩
    obtain rfl := List.mem_singleton.mp member
    rfl
  · exact ⟨[], (List.append_nil _).symm, fun name member => absurd member List.not_mem_nil⟩

theorem makes_directory {paths : Path → Prop} (among : paths p)
    (made : t.makeDirectory p = .ok after) : Makes paths t after := by
  unfold makeDirectory create at made
  split at made
  case h_1 l located =>
    cases made
    obtain ⟨accepted, leads⟩ := locate_eq_ok_iff.mp located
    have absent : t.entry? l = none := leads.held_of_takes .free
    have grows : t.Grows (t.put l .directory) :=
      grows_put (fun e found => by rw [absent] at found; contradiction) .directory
    obtain ⟨tail, goes, idle⟩ := steps_eq p
    have found : (t.put l .directory).find .target p = .ok (l, .directory) := by
      rw [find_eq_ok_iff, locate_eq_ok_iff, goes, current_put]
      exact ⟨accepted, leads.fill idle⟩
    refine ⟨grows, fun other => ?_⟩
    by_cases here : other = l
    · subst here
      exact Or.inr ⟨absent, p, among, found⟩
    · exact Or.inl (entry?_put_of_ne t here _)
  all_goals contradiction

/-! ## The directories above a path -/

theorem makes_chain {paths : Path → Prop} (t : FileTree) {chain : List Path}
    (among : ∀ dir ∈ chain, paths dir) : Makes paths t (t.makeChain chain).1 := by
  induction chain generalizing t with
  | nil => exact .refl paths t
  | cons p ancestors ih =>
      have here := among p List.mem_cons_self
      have above := ih t fun dir member => among dir (List.mem_cons_of_mem _ member)
      unfold makeChain
      split
      case h_1 made => exact makes_directory here made
      case h_2 =>
        generalize t.makeChain ancestors = answer at above
        obtain ⟨middle, _ | _⟩ := answer
        · exact above
        · dsimp only
          split
          case h_1 made => exact above.trans (makes_directory here made)
          case h_2 =>
            split
            · exact above
            · exact above
      case h_3 =>
        split
        · exact .refl paths t
        · exact .refl paths t

theorem makes_path (t : FileTree) (p : Path) :
    Makes (fun dir => dir = p ∨ dir.Above p) t (t.makePath p).1 := by
  unfold makePath
  split
  · exact .refl _ t
  · change Makes _ t (t.makeDirectories p).1
    unfold makeDirectories
    split
    · exact .refl _ t
    · refine makes_chain t fun dir member => ?_
      rcases List.mem_cons.mp member with here | above
      · exact Or.inl here
      · exact Or.inr ⟨_, (List.mem_filter.mp above).1⟩

theorem makes_parent (t : FileTree) (p : Path) :
    Makes (·.Above p) t (Config.makeParent t p).1 := by
  unfold Config.makeParent
  split
  case h_1 => exact .refl _ t
  case h_2 dir named =>
    have made := t.makes_path dir
    refine ⟨made.grows, fun l => (made.made l).imp_right ?_⟩
    rintro ⟨absent, other, among, found⟩
    refine ⟨absent, other, ?_, found⟩
    rcases among with rfl | ⟨n, above⟩
    · exact Path.above_of_climb (n := 0) named List.mem_cons_self
    · exact Path.above_of_climb named (List.mem_cons_of_mem _ above)

/-! ## A file and the directories above it -/

/-- A tree after something was written to a path, whose missing directories were made: no other file
is changed, and no directory is made that is not on the way. -/
structure Writes (p : Path) (t after : FileTree) : Prop where
  current : after.current = t.current
  changed : ∀ l, after.entry? l = t.entry? l ∨
    (∃ content, after.find .target p = .ok (l, .file content)) ∨
    t.entry? l = none ∧ ∃ dir, dir.Above p ∧ after.find .target dir = .ok (l, .directory)

theorem Makes.writes (makes : Makes (·.Above p) t after) : Writes p t after :=
  ⟨makes.grows.current, fun l => (makes.made l).imp_right Or.inr⟩

theorem Makes.write {content : Bytes} (makes : Makes (·.Above p) t middle)
    (wrote : middle.write p content = .ok after) : Writes p t after := by
  have grows := grows_write wrote
  refine ⟨(makes.grows.trans grows).current, ?_⟩
  intro other
  obtain ⟨l, rfl, found⟩ := find_written wrote
  by_cases here : other = l
  · subst here
    exact Or.inr (Or.inl ⟨content, found⟩)
  · rw [entry?_put_of_ne middle here]
    rcases makes.made other with same | ⟨absent, dir, above, made⟩
    · exact Or.inl same
    · exact Or.inr (Or.inr ⟨absent, dir, above, find_grown grows made⟩)

/-- Saving a configuration writes to its path, whether or not it goes well. -/
theorem writes_save (c : Config) (t : FileTree) (p : Path) : Writes p t (c.save t p).2 := by
  have makes := t.makes_parent p
  unfold Config.save
  generalize Config.makeParent t p = answer at makes
  obtain ⟨middle, _ | _⟩ := answer
  · exact makes.writes
  · dsimp only
    cases wrote : middle.writeFile p (Utf8.encode c.toText) with
    | error cause => exact makes.writes
    | ok after => exact makes.write (writeFile_eq_ok_iff.mp wrote).2

end FileTree

end Needle
