import Mathlib.Data.List.Nodup
import Needle.Proofs.File.Write
import Needle.Proofs.Utf8

/-!
# Fresh names

Whatever name is looked for in a directory, the way to the directory is the same. So the temporary
names in a directory lead to as many locations as there are names. These are more than the tree has
entries, so one of the names is free, and `freshPath` finds it.
-/
set_option autoImplicit false

namespace Needle

/-! ## Temporary names -/

namespace FileTree

/-- The number that a temporary name was made of can be read from it. -/
theorem tempName_injective {m n : Nat} (same : tempName m = tempName n) : m = n := by
  have zeros (places : Nat) : Nat.ofDigitChars 10 (List.replicate places '0') 0 = 0 := by
    induction places with
    | zero => rfl
    | succ places ih =>
        rw [List.replicate_succ, Nat.ofDigitChars_cons]
        exact ih
  have number (k : Nat) : Nat.ofDigitChars 10 ((tempName k).toList.drop 4) 0 = k := by
    rw [tempName, String.toList_ofList, List.append_assoc]
    show Nat.ofDigitChars 10 (List.replicate _ '0' ++ Nat.toDigits 10 k) 0 = k
    rw [Nat.ofDigitChars_append, zeros, Nat.ofDigitChars_ten_toDigits]
  rw [← number m, same, number n]

theorem ascii_of_mem_tempName {n : Nat} {c : Char} (member : c ∈ (tempName n).toList) :
    c.toNat < 0x80 ∧ c.toNat ≠ 0x2F := by
  rw [tempName, String.toList_ofList, List.append_assoc, List.mem_append, List.mem_append] at member
  rcases member with letter | zero | digit
  · simp only [List.mem_cons, List.not_mem_nil, or_false] at letter
    rcases letter with rfl | rfl | rfl | rfl <;> decide
  · obtain rfl := List.eq_of_mem_replicate zero
    decide
  · have digits := Nat.isDigit_of_mem_toDigits (by decide) (by decide) digit
    obtain ⟨first, last⟩ := Char.isDigit_iff_toNat.mp digits
    have zero : '0'.toNat = 0x30 := rfl
    have nine : '9'.toNat = 0x39 := rfl
    omega

theorem encode_tempName (n : Nat) :
    4 ≤ (Utf8.encode (tempName n)).length ∧ Path.slash ∉ Utf8.encode (tempName n) := by
  rw [Utf8.encode_ascii fun c member => (ascii_of_mem_tempName member).1]
  constructor
  · rw [List.length_map, tempName, String.toList_ofList, List.append_assoc, List.length_append]
    exact Nat.le_add_right 4 _
  · intro found
    obtain ⟨c, member, same⟩ := List.mem_map.mp found
    obtain ⟨small, other⟩ := ascii_of_mem_tempName member
    have code := congrArg UInt8.toNat same
    rw [UInt8.toNat_ofNat_of_lt' (Nat.lt_trans small (by decide))] at code
    exact other code

end FileTree

/-! ## The steps of a path into a directory -/

namespace Path

theorem pieceStep_ne_nil (b : UInt8) (pieces : List Name) : pieceStep b pieces ≠ [] := by
  cases pieces with
  | nil => rw [pieceStep]; split <;> exact List.cons_ne_nil _ _
  | cons name names => rw [pieceStep]; split <;> exact List.cons_ne_nil _ _

theorem foldr_pieceStep_append (bytes : Bytes) {pieces : List Name} (some : pieces ≠ [])
    (more : List Name) :
    bytes.foldr pieceStep (pieces ++ more) = bytes.foldr pieceStep pieces ++ more := by
  induction bytes with
  | nil => rfl
  | cons b rest ih =>
      rw [List.foldr_cons, ih, List.foldr_cons]
      have some : rest.foldr pieceStep pieces ≠ [] := by
        cases rest with
        | nil => exact some
        | cons c rest => exact pieceStep_ne_nil c _
      obtain ⟨name, names, split⟩ := List.exists_cons_of_ne_nil some
      rw [split, List.cons_append, pieceStep, pieceStep]
      split <;> rfl

theorem pieces_of_name {name : Name} (plain : slash ∉ name) : pieces ⟨name⟩ = [name] := by
  unfold pieces
  induction name with
  | nil => rfl
  | cons b rest ih =>
      have other : b ≠ slash := fun same => plain (same ▸ List.mem_cons_self)
      have rest := ih fun member => plain (List.mem_cons_of_mem _ member)
      dsimp only at rest ⊢
      rw [List.foldr_cons, rest, pieceStep, if_neg other]

theorem names_of_name {name : Name} (named : name ≠ []) (plain : slash ∉ name) :
    names ⟨name⟩ = [name] := by
  rw [names, pieces_of_name plain]
  simp [named]

theorem names_below (dir : Bytes) {name : Name} (named : name ≠ []) (plain : slash ∉ name) :
    names ⟨dir ++ slash :: name⟩ = names ⟨dir⟩ ++ [name] := by
  have below : pieces ⟨slash :: name⟩ = [[]] ++ [name] := by
    have alone := pieces_of_name plain
    unfold pieces at alone ⊢
    dsimp only at alone ⊢
    rw [List.foldr_cons, alone]
    rfl
  have split : pieces ⟨dir ++ slash :: name⟩ = pieces ⟨dir⟩ ++ [name] := by
    unfold pieces at below ⊢
    dsimp only at below ⊢
    rw [List.foldr_append, below, foldr_pieceStep_append dir (by nofun)]
  rw [names, split, List.filter_append, ← names]
  simp [named]

end Path

namespace FileTree

theorem steps_of_name (above : Bytes) {name : Name} (named : name ≠ []) (plain : Path.slash ∉ name) :
    steps ⟨above ++ name⟩ = Path.names ⟨above ++ name⟩ := by
  have unslashed : Path.endsInSlash ⟨above ++ name⟩ = false := by
    unfold Path.endsInSlash
    dsimp only
    rw [List.getLast?_append, List.getLast?_eq_some_getLast named, Option.some_or]
    rw [beq_eq_false_iff_ne, Ne, Option.some.injEq]
    rintro same
    exact plain (same ▸ List.getLast_mem named)
  rw [steps, unslashed]
  rfl

theorem steps_join (dir : Path) (here : Location) : ∃ above start, ∀ name : Name, name ≠ [] →
    Path.slash ∉ name →
      steps (dir.join ⟨name⟩) = above ++ [name] ∧ startOf (dir.join ⟨name⟩) here = start := by
  have relative {name : Name} (plain : Path.slash ∉ name) : Path.isAbsolute ⟨name⟩ = false := by
    cases name with
    | nil => rfl
    | cons b rest =>
        unfold Path.isAbsolute
        rw [List.head?_cons, beq_eq_false_iff_ne, Ne, Option.some.injEq]
        rintro rfl
        exact plain List.mem_cons_self
  obtain ⟨bytes⟩ := dir
  by_cases empty : bytes = []
  · refine ⟨[], here, fun name named plain => ?_⟩
    have alone : Path.join ⟨bytes⟩ ⟨name⟩ = ⟨name⟩ := by simp [Path.join, empty]
    have step := steps_of_name [] named plain
    rw [List.nil_append] at step
    rw [alone, step, Path.names_of_name named plain, startOf, relative plain]
    exact ⟨rfl, rfl⟩
  · have start (name : Name) : startOf ⟨bytes ++ name⟩ here = startOf ⟨bytes⟩ here := by
      cases bytes with
      | nil => exact absurd rfl empty
      | cons b rest => rfl
    have some : bytes.isEmpty = false := by simpa using empty
    by_cases slashed : Path.endsInSlash ⟨bytes⟩ = true
    · have last : bytes.getLast? = .some Path.slash := beq_iff_eq.mp slashed
      obtain ⟨above, rfl⟩ := List.getLast?_eq_some_iff.mp last
      refine ⟨Path.names ⟨above⟩, startOf ⟨above ++ [Path.slash]⟩ here, fun name named plain => ?_⟩
      have below : Path.join ⟨above ++ [Path.slash]⟩ ⟨name⟩ = ⟨above ++ [Path.slash] ++ name⟩ := by
        simp [Path.join, relative plain, slashed]
      rw [below, steps_of_name _ named plain, start, List.append_assoc, List.singleton_append,
        Path.names_below above named plain]
      exact ⟨rfl, rfl⟩
    · refine ⟨Path.names ⟨bytes⟩, startOf ⟨bytes⟩ here, fun name named plain => ?_⟩
      have below : Path.join ⟨bytes⟩ ⟨name⟩ = ⟨bytes ++ [Path.slash] ++ name⟩ := by
        simp [Path.join, relative plain, slashed, some]
      rw [below, steps_of_name _ named plain, List.append_assoc, start, List.singleton_append,
        Path.names_below bytes named plain]
      exact ⟨rfl, rfl⟩

/-! ## The way to a directory -/

theorem walk_through {t : FileTree} {links : Nat} {here : Location} {name : Name} {rest : List Name}
    (named : ¬ (name.isEmpty || name == Path.dot) = true) (below : ¬ (name == Path.dotDot) = true)
    (short : ¬ name.length > nameLimit) (more : rest ≠ []) :
    walk t .itself links here (name :: rest) =
      match t.entry? (here ++ [name]) with
      | none => .error .notFound
      | some .directory => walk t .itself links (here ++ [name]) rest
      | some (.file _) => .error .notDirectory
      | some (.link target) =>
        match links with
        | 0 => .error .tooManyLinks
        | links + 1 =>
          if target.bytes.isEmpty then .error .notFound
          else walk t .itself links (startOf target here) (steps target ++ rest) := by
  have follows : rest.isEmpty = false := by simpa using more
  rw [walk, if_neg named, if_neg below, if_neg (by simp), if_neg short]
  simp only [follows, Bool.false_eq_true, if_false, Bool.false_and]
  rfl

/-- Where something follows, a walk along names comes to a directory, whatever it is that follows, or
fails. -/
theorem walk_append (t : FileTree) (links : Nat) (here : Location) (names : List Name) :
    (∃ left dir, ∀ last, last ≠ [] →
      walk t .itself links here (names ++ last) = walk t .itself left dir last) ∨
    ∃ cause, ∀ last, last ≠ [] → walk t .itself links here (names ++ last) = .error cause := by
  have follows {last rest : List Name} (some : last ≠ []) : rest ++ last ≠ [] := by simp [some]
  -- The induction is on a walk that also follows a link at the end of the names.
  fun_induction walk t .target links here names with
  | case1 links here => exact .inl ⟨links, here, fun last _ => rfl⟩
  | case2 links here name rest named ih =>
      have goes (last : List Name) : walk t .itself links here (name :: rest ++ last) =
          walk t .itself links here (rest ++ last) := by
        rw [List.cons_append, walk, if_pos named]
      simp only [goes]
      exact ih
  | case3 links here name rest named above ih =>
      have goes (last : List Name) : walk t .itself links here (name :: rest ++ last) =
          walk t .itself links here.dropLast (rest ++ last) := by
        rw [List.cons_append, walk, if_neg named, if_pos above]
      simp only [goes]
      exact ih
  | case4 links here name rest named below refused => cases refused.1
  | case5 links here name rest named below allowed long =>
      refine .inr ⟨.nameTooLong, fun last _ => ?_⟩
      rw [List.cons_append, walk, if_neg named, if_neg below, if_neg (by simp), if_pos long]
  | case6 links here name rest named below allowed short there absent
  | case7 links here name rest named below allowed short there absent =>
      refine .inr ⟨.notFound, fun last some => ?_⟩
      rw [List.cons_append, walk_through named below short (follows some), absent]
  | case8 links here name rest named below allowed short there found ih =>
      have goes (last : List Name) (some : last ≠ []) :
          walk t .itself links here (name :: rest ++ last) =
            walk t .itself links there (rest ++ last) := by
        rw [List.cons_append, walk_through named below short (follows some), found]
      refine ih.imp ?_ ?_
      · rintro ⟨left, dir, same⟩
        exact ⟨left, dir, fun last some => (goes last some).trans (same last some)⟩
      · rintro ⟨cause, fails⟩
        exact ⟨cause, fun last some => (goes last some).trans (fails last some)⟩
  | case9 links here name rest named below allowed short there content found
  | case10 links here name rest named below allowed short there content found =>
      refine .inr ⟨.notDirectory, fun last some => ?_⟩
      rw [List.cons_append, walk_through named below short (follows some), found]
  | case11 links here name rest named below allowed short there target found last =>
      simp at last
  | case12 here name rest named below allowed short there target found =>
      refine .inr ⟨.tooManyLinks, fun last some => ?_⟩
      rw [List.cons_append, walk_through named below short (follows some), found]
  | case13 here name rest named below allowed short there target found followed links nowhere =>
      refine .inr ⟨.notFound, fun last some => ?_⟩
      rw [List.cons_append, walk_through named below short (follows some), found]
      exact if_pos nowhere
  | case14 here name rest named below allowed short there target found followed links leads ih =>
      have goes (last : List Name) (some : last ≠ []) :
          walk t .itself (links + 1) here (name :: rest ++ last) =
            walk t .itself links (startOf target here) (steps target ++ rest ++ last) := by
        rw [List.cons_append, walk_through named below short (follows some), found,
          List.append_assoc]
        exact if_neg leads
      refine ih.imp ?_ ?_
      · rintro ⟨left, dir, same⟩
        exact ⟨left, dir, fun last some => (goes last some).trans (same last some)⟩
      · rintro ⟨cause, fails⟩
        exact ⟨cause, fun last some => (goes last some).trans (fails last some)⟩

theorem Leads.mem_entries {t : FileTree} {links : Nat} {here l : Location} {name : Name} {e : Entry}
    (leads : Leads t .itself links here [name] (.object l e))
    (named : ¬ (name.isEmpty || name == Path.dot) = true) (below : ¬ (name == Path.dotDot) = true) :
    here ++ [name] ∈ t.entries.map Prod.fst := by
  have entered {e : Entry} (found : t.entry? (here ++ [name]) = some e) :
      here ++ [name] ∈ t.entries.map Prod.fst := by
    rw [entry?_of_ne_nil t (by simp)] at found
    exact List.mem_map.mpr ⟨_, mem_of_lookup found, rfl⟩
  cases leads with
  | idle idle => exact absurd idle named
  | up _ above => exact absurd above below
  | down _ found => exact entered found
  | file _ found => exact entered found
  | itself _ found => exact entered found
  | follow _ found => exact entered found

/-! ## Free names -/

/-- A temporary name that is taken in a directory has an entry of its own. -/
theorem exists_entries (t : FileTree) (dir : Path) : ∃ below : Location, ∀ n : Nat,
    t.isTaken (dir.join (.ofText (tempName n))) = true →
      below ++ [Utf8.encode (tempName n)] ∈ t.entries.map Prod.fst := by
  obtain ⟨above, start, joined⟩ := steps_join dir t.current
  have leads (n : Nat) (taken : t.isTaken (dir.join (.ofText (tempName n))) = true) :
      ∃ l e, walk t .itself linkLimit start (above ++ [Utf8.encode (tempName n)]) =
        .ok (.object l e) := by
    obtain ⟨long, plain⟩ := encode_tempName n
    obtain ⟨steps, starts⟩ := joined _ (List.ne_nil_of_length_pos (by omega)) plain
    unfold isTaken at taken
    split at taken
    case h_1 object found =>
      obtain ⟨_, leads⟩ := locate_eq_ok_iff.mp (find_eq_ok_iff.mp found)
      rw [Path.ofText, steps, starts] at leads
      exact ⟨object.1, object.2, walk_of_leads leads⟩
    case h_2 => cases taken
  rcases t.walk_append linkLimit start above with ⟨left, below, same⟩ | ⟨cause, fails⟩
  · refine ⟨below, fun n taken => ?_⟩
    obtain ⟨l, e, walked⟩ := leads n taken
    rw [same _ (by simp)] at walked
    obtain ⟨long, _⟩ := encode_tempName n
    generalize Utf8.encode (tempName n) = name at walked long
    apply (leads_of_walk walked).mem_entries
    · rintro idle
      rcases Bool.or_eq_true_iff.mp idle with empty | dot
      · rw [List.isEmpty_iff.mp empty] at long
        exact absurd long (by decide)
      · rw [beq_iff_eq.mp dot] at long
        exact absurd long (by decide)
    · rintro dotDot
      rw [beq_iff_eq.mp dotDot] at long
      exact absurd long (by decide)
  · refine ⟨[], fun n taken => ?_⟩
    obtain ⟨l, e, walked⟩ := leads n taken
    rw [fails _ (by simp)] at walked
    cases walked

/-- The path that is chosen for a temporary file names nothing. -/
theorem isTaken_freshPath (t : FileTree) (dir : Path) : t.isTaken (t.freshPath dir) = false := by
  unfold freshPath
  dsimp only
  cases chosen : List.find? _ _ with
  | some p => simpa using List.find?_some chosen
  | none =>
      exfalso
      obtain ⟨below, entered⟩ := t.exists_entries dir
      let places := (List.range (t.entries.length + 1)).map fun n =>
        below ++ [Utf8.encode (tempName n)]
      have among : places ⊆ t.entries.map Prod.fst := by
        intro place member
        obtain ⟨n, bounded, rfl⟩ := List.mem_map.mp member
        have taken := List.find?_eq_none.mp chosen _ (List.mem_map.mpr ⟨n, bounded, rfl⟩)
        rw [Bool.not_eq_true, Bool.not_eq_false'] at taken
        exact entered n taken
      have distinct : places.Nodup := by
        refine List.Nodup.map ?_ List.nodup_range
        intro m n same
        have names := List.append_cancel_left same
        exact tempName_injective (Utf8.encode_injective (List.cons.inj names).1)
      have fewer := distinct.length_le_of_subset among
      rw [List.length_map, List.length_range, List.length_map] at fewer
      exact Nat.not_succ_le_self _ fewer

end FileTree

end Needle
