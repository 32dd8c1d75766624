import Needle.File.Access
import Needle.Proofs.File.Leads
import Needle.Proofs.Lookup

/-!
# Reading what was written to a path

A change at one location is seen there and nowhere else. So a path that can be written to leads to
the file once it is written, under every name of it, and reading the path gives the content. A path
that was free before can be taken away again, and the tree is then as it was.
-/
set_option autoImplicit false

namespace Needle.FileTree

/-! ## One location -/

@[simp] theorem current_put (t : FileTree) (l : Location) (e : Entry) :
    (t.put l e).current = t.current := by
  rw [put]
  split <;> rfl

theorem entry?_of_ne_nil (t : FileTree) {l : Location} (below : l ≠ []) :
    t.entry? l = t.entries.lookup l := by
  unfold entry?
  rw [if_neg]
  simpa using below

theorem put_free {t : FileTree} {l : Location} (free : t.entries.lookup l = none) (e : Entry) :
    t.put l e = ⟨t.entries ++ [(l, e)], t.current⟩ := by
  have absent : ¬ t.entries.any (·.1 == l) = true := by simp [any_key, free]
  rw [put, if_neg absent]

theorem lookup_put (t : FileTree) (l other : Location) (e : Entry) :
    (t.put l e).entries.lookup other = if other = l then some e else t.entries.lookup other := by
  cases held : t.entries.lookup l with
  | none =>
      rw [put_free held, lookup_append_singleton]
      by_cases same : other = l
      · simp [same, held]
      · simp [same]
  | some old =>
      have present : t.entries.any (·.1 == l) = true := by simp [any_key, held]
      have updates : ∀ k v, (fun old : Location × Entry => if old.1 == l then (l, e) else old) (k, v) =
          if k = l then (k, (fun _ => e) v) else (k, v) := by
        intro k v
        by_cases here : k = l <;> simp [here]
      rw [put, if_pos present]
      exact (lookup_map_update updates t.entries other).trans (by rw [held, Option.map_some])

theorem entry?_put_self (t : FileTree) {l : Location} (below : l ≠ []) (e : Entry) :
    entry? (t.put l e) l = some e := by
  rw [entry?_of_ne_nil _ below, lookup_put, if_pos rfl]

theorem entry?_put_of_ne (t : FileTree) {l other : Location} (apart : other ≠ l) (e : Entry) :
    entry? (t.put l e) other = t.entry? other := by
  by_cases root : other = []
  · subst root
    rfl
  · rw [entry?_of_ne_nil _ root, entry?_of_ne_nil _ root, lookup_put, if_neg apart]

/-! ## Places -/

/-- A place that a file can be written to: a free name, or the name of a file. -/
inductive Takes (l : Location) : Place → Prop where
  | free : Takes l (.free l)
  | file (content : Bytes) : Takes l (.object l (.file content))

theorem Leads.below_of_takes {t : FileTree} {purpose : Purpose} {links : Nat} {here l : Location}
    {todo : List Name} {place : Place} (leads : Leads t purpose links here todo place)
    (takes : Takes l place) : l ≠ [] := by
  induction leads with
  | here => cases takes
  | idle _ _ ih => exact ih takes
  | up _ _ _ ih => exact ih takes
  | free =>
      cases takes
      simp
  | down _ _ _ ih => exact ih takes
  | file =>
      cases takes
      simp
  | itself => cases takes
  | follow _ _ _ _ _ ih => exact ih takes

def held : Place → Option Entry
  | .object _ e => some e
  | .free _ => none

theorem Leads.held_of_takes {t : FileTree} {purpose : Purpose} {links : Nat} {here l : Location}
    {todo : List Name} {place : Place} (leads : Leads t purpose links here todo place)
    (takes : Takes l place) : t.entry? l = held place := by
  induction leads with
  | here => cases takes
  | idle _ _ ih => exact ih takes
  | up _ _ _ ih => exact ih takes
  | free _ absent =>
      cases takes
      exact absent
  | down _ _ _ ih => exact ih takes
  | file _ found =>
      cases takes
      exact found
  | itself => cases takes
  | follow _ _ _ _ _ ih => exact ih takes

/-- A place that a file can be written to holds no directory and no link. -/
theorem Leads.plain_of_takes {t : FileTree} {purpose : Purpose} {links : Nat} {here l : Location}
    {todo : List Name} {place : Place} (leads : Leads t purpose links here todo place)
    (takes : Takes l place) (e : Entry) (found : t.entry? l = some e) :
    ∃ content, e = .file content := by
  have held := leads.held_of_takes takes
  rw [found] at held
  cases takes with
  | free => contradiction
  | file old => exact ⟨old, Option.some.inj held⟩

theorem entry?_put_kept {t : FileTree} {l there : Location} {e : Entry}
    (plain : ∀ e, t.entry? l = some e → ∃ content, e = .file content)
    (found : t.entry? there = some e) (other : ∀ c, e ≠ .file c) (content : Bytes) :
    entry? (t.put l (.file content)) there = some e := by
  have apart : there ≠ l := by
    rintro rfl
    obtain ⟨c, rfl⟩ := plain e found
    exact other c rfl
  rw [entry?_put_of_ne t apart, found]

theorem Leads.put {t : FileTree} {purpose : Purpose} {links : Nat} {here l : Location}
    {todo : List Name} {place : Place} (leads : Leads t purpose links here todo place)
    (takes : Takes l place) (content : Bytes) :
    Leads (t.put l (.file content)) purpose links here todo (.object l (.file content)) := by
  have below : l ≠ [] := leads.below_of_takes takes
  have plain := leads.plain_of_takes takes
  have written := entry?_put_self t below (.file content)
  induction leads with
  | here => cases takes
  | idle named _ ih => exact .idle named (ih takes)
  | up named above _ ih => exact .up named above (ih takes)
  | free looked _ =>
      cases takes
      exact .file looked written
  | down looked found _ ih =>
      exact .down looked (entry?_put_kept plain found (by simp) content) (ih takes)
  | file looked _ =>
      cases takes
      exact .file looked written
  | itself => cases takes
  | follow looked found followed leads _ ih =>
      exact .follow looked (entry?_put_kept plain found (by simp) content) followed leads (ih takes)

/-- Only who writes minds what follows a name. -/
theorem LookedUp.relax {purpose other : Purpose} {name : Name} {rest later : List Name}
    (looked : LookedUp purpose name rest) (reads : other ≠ .writing) :
    LookedUp other name later :=
  ⟨looked.named, looked.below, fun refused => reads refused.1, looked.short⟩

/-- A path that can be written to leads to the same place for a reader. -/
theorem Leads.target_of_writing {t : FileTree} {links : Nat} {here : Location} {todo : List Name}
    {place : Place} (leads : Leads t .writing links here todo place) :
    Leads t .target links here todo place := by
  induction leads with
  | here => exact .here
  | idle named _ ih => exact .idle named ih
  | up named above _ ih => exact .up named above ih
  | free looked absent => exact .free (looked.relax (by decide)) absent
  | down looked found _ ih => exact .down (looked.relax (by decide)) found ih
  | file looked found => exact .file (looked.relax (by decide)) found
  | itself _ _ last => cases last
  | follow looked found _ leads _ ih =>
      exact .follow (looked.relax (by decide)) found (by simp) leads ih

/-- What leads to a place through all links is itself the place, or the name of a link. -/
theorem Leads.itself_or_link {t : FileTree} {purpose : Purpose} {links : Nat} {here : Location}
    {todo : List Name} {place : Place} (leads : Leads t purpose links here todo place)
    (through : purpose ≠ .itself) :
    Leads t .itself links here todo place ∨
      ∃ l target, Leads t .itself links here todo (.object l (.link target)) := by
  induction leads with
  | here => exact Or.inl .here
  | idle named _ ih =>
      rcases ih with same | ⟨l, target, link⟩
      · exact Or.inl (.idle named same)
      · exact Or.inr ⟨l, target, .idle named link⟩
  | up named above _ ih =>
      rcases ih with same | ⟨l, target, link⟩
      · exact Or.inl (.up named above same)
      · exact Or.inr ⟨l, target, .up named above link⟩
  | free looked absent => exact Or.inl (.free (looked.relax (by decide)) absent)
  | down looked found _ ih =>
      rcases ih with same | ⟨l, target, link⟩
      · exact Or.inl (.down (looked.relax (by decide)) found same)
      · exact Or.inr ⟨l, target, .down (looked.relax (by decide)) found link⟩
  | file looked found => exact Or.inl (.file (looked.relax (by decide)) found)
  | itself _ _ last => exact absurd last through
  | @follow links here name rest target place looked found _ leads _ ih =>
      by_cases last : rest = []
      · subst last
        exact Or.inr ⟨_, target, .itself (looked.relax (by decide)) found rfl⟩
      have followed : ¬ (rest.isEmpty && Purpose.itself = .itself) = true := by simp [last]
      rcases ih with same | ⟨l, other, link⟩
      · exact Or.inl (.follow (looked.relax (by decide)) found followed leads same)
      · exact Or.inr ⟨l, other, .follow (looked.relax (by decide)) found followed leads link⟩

/-! ## Paths -/

theorem locate_eq_ok_iff {t : FileTree} {purpose : Purpose} {p : Path} {names : List Name}
    {place : Place} :
    locate t purpose p names = .ok place ↔
      refusal? p = none ∧ Leads t purpose linkLimit (startOf p t.current) names place := by
  cases refused : refusal? p with
  | none =>
      have asked : locate t purpose p names =
          walk t purpose linkLimit (startOf p t.current) names := by
        rw [locate, refused]
        rfl
      rw [asked, walk_eq_ok_iff]
      simp
  | some cause =>
      have asked : locate t purpose p names = .error cause := by
        rw [locate, refused]
      rw [asked]
      simp

theorem writeTarget_eq_ok_iff {t : FileTree} {p : Path} {l : Location} :
    writeTarget t p = .ok l ↔ ∃ place, locate t .writing p (steps p) = .ok place ∧ Takes l place := by
  rw [writeTarget]
  constructor
  · intro target
    split at target
    case h_1 location content located =>
      cases target
      exact ⟨_, located, .file content⟩
    case h_3 location located =>
      cases target
      exact ⟨_, located, .free⟩
    all_goals cases target
  · rintro ⟨place, located, takes⟩
    cases takes <;> rw [located]

theorem write_eq_ok_iff {t written : FileTree} {p : Path} {content : Bytes} :
    t.write p content = .ok written ↔
      ∃ l, writeTarget t p = .ok l ∧ written = t.put l (.file content) := by
  rw [write]
  cases writeTarget t p with
  | error cause => simp [Except.map]
  | ok l => simp [Except.map, eq_comm]

/-- A path keeps leading to the location that it was written to. -/
theorem locate_written {t : FileTree} {p : Path} {l : Location} {purpose : Purpose} {place : Place}
    (located : locate t purpose p (steps p) = .ok place) (takes : Takes l place) (content : Bytes) :
    locate (t.put l (.file content)) purpose p (steps p) = .ok (.object l (.file content)) := by
  rw [locate_eq_ok_iff] at located ⊢
  rw [current_put]
  exact ⟨located.1, located.2.put takes content⟩

theorem find_eq_ok_iff {t : FileTree} {purpose : Purpose} {p : Path} {l : Location} {e : Entry} :
    t.find purpose p = .ok (l, e) ↔ locate t purpose p (steps p) = .ok (.object l e) := by
  unfold find
  constructor
  · intro found
    split at found
    case h_1 located =>
      cases found
      exact located
    all_goals contradiction
  · intro located
    rw [located]

theorem find_of_stat {t : FileTree} {p : Path} {e : Entry} (seen : t.stat p = .ok e) :
    ∃ l, t.find .target p = .ok (l, e) := by
  unfold stat at seen
  cases found : t.find .target p with
  | error cause =>
      rw [found] at seen
      contradiction
  | ok object =>
      rw [found] at seen
      obtain rfl := Except.ok.inj seen
      exact ⟨object.1, rfl⟩

theorem find_written {t written : FileTree} {p : Path} {content : Bytes}
    (wrote : t.write p content = .ok written) : ∃ l, written = t.put l (.file content) ∧
      written.find .target p = .ok (l, .file content) := by
  obtain ⟨l, target, rfl⟩ := write_eq_ok_iff.mp wrote
  obtain ⟨place, located, takes⟩ := writeTarget_eq_ok_iff.mp target
  have seen : locate t .target p (steps p) = .ok place := by
    rw [locate_eq_ok_iff] at located ⊢
    exact ⟨located.1, located.2.target_of_writing⟩
  exact ⟨l, rfl, find_eq_ok_iff.mpr (locate_written seen takes content)⟩

theorem stat_written {t written : FileTree} {p : Path} {content : Bytes}
    (wrote : t.write p content = .ok written) : written.stat p = .ok (.file content) := by
  obtain ⟨l, _, found⟩ := find_written wrote
  rw [stat, found]
  rfl

/-- What was written to a path is read from it. -/
theorem read_written {t written : FileTree} {p : Path} {content : Bytes}
    (wrote : t.write p content = .ok written) : written.read p = .ok content := by
  rw [read, stat_written wrote]

/-! ## A path that is free at first -/

theorem map_of_free {entries : List (Location × Entry)} {l : Location}
    (free : entries.lookup l = none) (e : Entry) :
    (entries.map fun old => if old.1 == l then (l, e) else old) = entries := by
  have same : ∀ old ∈ entries, (if old.1 == l then (l, e) else old) = old := by
    intro old member
    have apart : (l == old.1) = false := by simpa using List.lookup_eq_none_iff.mp free old member
    rw [if_neg]
    simpa using (ne_of_beq_false apart).symm
  rw [List.map_congr_left same, List.map_id']

theorem put_put {t : FileTree} {l : Location} (free : t.entries.lookup l = none)
    (first second : Entry) : (t.put l first).put l second = t.put l second := by
  have present : (t.entries ++ [(l, first)]).any (·.1 == l) = true := by simp
  rw [put_free free, put_free free, put, if_pos present, List.map_append, map_of_free free]
  simp

theorem drop_put {t : FileTree} {l : Location} (free : t.entries.lookup l = none) (e : Entry) :
    (t.put l e).drop l = t := by
  have kept : t.entries.filter (·.1 != l) = t.entries := by
    rw [List.filter_eq_self]
    intro old member
    have apart : (l == old.1) = false := by simpa using List.lookup_eq_none_iff.mp free old member
    simpa using (ne_of_beq_false apart).symm
  rw [put_free free, drop, List.filter_append, kept]
  simp

theorem write_fresh {t written : FileTree} {p : Path} {content : Bytes}
    (fresh : t.isTaken p = false) (wrote : t.write p content = .ok written) :
    ∃ l, locate t .itself p (steps p) = .ok (.free l) ∧ writeTarget t p = .ok l ∧
      t.entries.lookup l = none ∧ written = t.put l (.file content) := by
  obtain ⟨l, target, rfl⟩ := write_eq_ok_iff.mp wrote
  obtain ⟨place, located, takes⟩ := writeTarget_eq_ok_iff.mp target
  obtain ⟨accepted, leads⟩ := locate_eq_ok_iff.mp located
  have unnamed : ∀ l e, ¬ Leads t .itself linkLimit (startOf p t.current) (steps p) (.object l e) := by
    intro l e named
    have found : t.find .itself p = .ok (l, e) := by
      rw [find, locate_eq_ok_iff.mpr ⟨accepted, named⟩]
    rw [isTaken, found] at fresh
    cases fresh
  rcases leads.itself_or_link (by decide) with same | ⟨other, target, link⟩
  · cases takes with
    | file => exact absurd same (unnamed l _)
    | free =>
        have absent : t.entry? l = none := same.held_of_takes .free
        rw [entry?_of_ne_nil t (same.below_of_takes .free)] at absent
        exact ⟨l, locate_eq_ok_iff.mpr ⟨accepted, same⟩, target, absent, rfl⟩
  · exact absurd link (unnamed other _)

/-- A file made under a fresh path can be taken away, which restores the tree. -/
theorem remove_written {t written : FileTree} {p : Path} {content : Bytes}
    (fresh : t.isTaken p = false) (wrote : t.write p content = .ok written) :
    written.remove p = .ok t := by
  obtain ⟨l, named, target, free, rfl⟩ := write_fresh fresh wrote
  have found : (t.put l (.file content)).find .itself p = .ok (l, .file content) := by
    rw [find, locate_written named .free content]
  rw [remove, found]
  exact congrArg Except.ok (drop_put free _)

/-- It can also be written over, which leaves no trace of what it held first. -/
theorem write_written {t written : FileTree} {p : Path} {content : Bytes}
    (fresh : t.isTaken p = false) (wrote : t.write p content = .ok written) (other : Bytes) :
    written.write p other = t.write p other := by
  obtain ⟨l, named, target, free, rfl⟩ := write_fresh fresh wrote
  obtain ⟨place, located, takes⟩ := writeTarget_eq_ok_iff.mp target
  have again : (t.put l (.file content)).writeTarget p = .ok l :=
    writeTarget_eq_ok_iff.mpr ⟨_, locate_written located takes content, .file content⟩
  rw [write, write, again, target, Except.map, Except.map, put_put free]

/-! ## Access by programs -/

theorem ask_eq_ok_iff {α : Type} {p : Path} {answer : Except OsError α} {value : α} :
    p.ask answer = .ok value ↔ p.hasNul = false ∧ answer = .ok value := by
  unfold Path.ask
  cases p.hasNul with
  | true => simp
  | false =>
      cases answer with
      | ok given =>
          constructor
          · intro same
            exact ⟨rfl, congrArg Except.ok (Except.ok.inj same)⟩
          · rintro ⟨_, same⟩
            exact congrArg Except.ok (Except.ok.inj same)
      | error cause =>
          constructor
          · intro same
            cases same
          · rintro ⟨_, same⟩
            cases same

theorem writeFile_eq_ok_iff {t written : FileTree} {p : Path} {content : Bytes} :
    t.writeFile p content = .ok written ↔ p.hasNul = false ∧ t.write p content = .ok written :=
  ask_eq_ok_iff

/-- Whether a file can be written does not depend on what is written. -/
theorem writeFile_any {t written : FileTree} {p : Path} {content : Bytes}
    (wrote : t.writeFile p content = .ok written) (other : Bytes) :
    ∃ written, t.writeFile p other = .ok written := by
  obtain ⟨plain, wrote⟩ := writeFile_eq_ok_iff.mp wrote
  obtain ⟨l, target, _⟩ := write_eq_ok_iff.mp wrote
  exact ⟨_, writeFile_eq_ok_iff.mpr ⟨plain, write_eq_ok_iff.mpr ⟨l, target, rfl⟩⟩⟩

theorem readFile_written {t written : FileTree} {p : Path} {content : Bytes}
    (wrote : t.writeFile p content = .ok written) : written.readFile p = .ok content := by
  obtain ⟨plain, wrote⟩ := writeFile_eq_ok_iff.mp wrote
  exact ask_eq_ok_iff.mpr ⟨plain, read_written wrote⟩

theorem plain_of_readFile {t : FileTree} {p : Path} {content : Bytes}
    (holds : t.readFile p = .ok content) : p.hasNul = false :=
  (ask_eq_ok_iff.mp holds).1

theorem openObject_of_readFile {t : FileTree} {p : Path} {content : Bytes}
    (holds : t.readFile p = .ok content) : t.openObject p = .ok (.file content) := by
  obtain ⟨plain, reads⟩ := ask_eq_ok_iff.mp holds
  refine ask_eq_ok_iff.mpr ⟨plain, ?_⟩
  unfold read at reads
  split at reads
  case h_1 seen =>
    cases reads
    exact seen
  all_goals cases reads

/-! ## Objects in the root -/

section Root

variable {t : FileTree} {purpose : Purpose} {p : Path} {name : Name}

theorem startOf_root (root : t.current = []) (p : Path) : startOf p t.current = [] := by
  unfold startOf
  rw [root]
  exact ite_self []

theorem locate_free (root : t.current = []) (one : steps p = [name]) (accepted : refusal? p = none)
    (looked : LookedUp purpose name []) (absent : t.entry? [name] = none) :
    locate t purpose p (steps p) = .ok (.free [name]) := by
  rw [locate_eq_ok_iff, one, startOf_root root]
  exact ⟨accepted, .free looked absent⟩

theorem find_missing (root : t.current = []) (one : steps p = [name])
    (accepted : refusal? p = none) (looked : LookedUp purpose name [])
    (absent : t.entry? [name] = none) : t.find purpose p = .error .notFound := by
  unfold find
  rw [locate_free root one accepted looked absent]

theorem find_file (root : t.current = []) (one : steps p = [name]) (accepted : refusal? p = none)
    (looked : LookedUp purpose name []) {content : Bytes}
    (found : t.entry? [name] = some (.file content)) :
    t.find purpose p = .ok ([name], .file content) := by
  have located : locate t purpose p (steps p) = .ok (.object [name] (.file content)) := by
    rw [locate_eq_ok_iff, one, startOf_root root]
    exact ⟨accepted, .file looked found⟩
  rw [find, located]

theorem writeTarget_free (root : t.current = []) (one : steps p = [name])
    (accepted : refusal? p = none) (looked : LookedUp .writing name [])
    (absent : t.entry? [name] = none) : t.writeTarget p = .ok [name] :=
  writeTarget_eq_ok_iff.mpr ⟨_, locate_free root one accepted looked absent, .free⟩

theorem writeFile_free (root : t.current = []) (one : steps p = [name])
    (accepted : refusal? p = none) (looked : LookedUp .writing name [])
    (absent : t.entry? [name] = none) (plain : p.hasNul = false) (content : Bytes) :
    t.writeFile p content = .ok (t.put [name] (.file content)) := by
  have target := writeTarget_free root one accepted looked absent
  exact writeFile_eq_ok_iff.mpr ⟨plain, write_eq_ok_iff.mpr ⟨_, target, rfl⟩⟩

/-- Nothing lies below a name that is free. -/
theorem walk_missing {links : Nat} {here : Location} {rest : List Name}
    (looked : LookedUp purpose name rest) (absent : t.entry? (here ++ [name]) = none)
    (more : rest ≠ []) : walk t purpose links here (name :: rest) = .error .notFound := by
  rw [walk, if_neg looked.named, if_neg looked.below, if_neg looked.allowed, if_neg looked.short]
  simp [absent, more]

theorem isTaken_nothing (one : steps p = [name]) (accepted : refusal? p = none)
    (looked : LookedUp .itself name []) : isTaken ⟨[], []⟩ p = false := by
  rw [isTaken, find, locate_free rfl one accepted looked rfl]

theorem writeFile_nothing (one : steps p = [name]) (accepted : refusal? p = none)
    (looked : LookedUp .writing name []) (plain : p.hasNul = false) (content : Bytes) :
    ∃ written, writeFile ⟨[], []⟩ p content = .ok written :=
  ⟨_, writeFile_free rfl one accepted looked rfl plain content⟩

end Root

end Needle.FileTree
