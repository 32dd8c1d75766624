import Needle.Proofs.Compiler.Session
import Needle.Proofs.Pattern.Lines
import Needle.Proofs.Pattern.Value

/-!
# Rule texts that are read back

A list of patterns is spelled as a text with one line for each, its identifier, its literal, its tags
and its metadata in a row. Where no part of a pattern holds a blank, begins as another kind of part
does or is a numeral that is meant as a text, the text is compiled to the very list.
-/
set_option autoImplicit false

namespace Needle

structure Clean (s : String) : Prop where
  solid : Text.Solid s.toList
  plain : '\x00' ∉ s.toList

instance (s : String) : Decidable (Clean s) :=
  decidable_of_iff (Text.Solid s.toList ∧ '\x00' ∉ s.toList)
    ⟨fun both => ⟨both.1, both.2⟩, fun clean => ⟨clean.solid, clean.plain⟩⟩

/-- A value that can be told from its display: a text is not one of an integer or a boolean. -/
def MetaValue.Legible : MetaValue → Prop
  | .integer _ => True
  | .boolean _ => True
  | .text s => Clean s ∧ s ≠ "true" ∧ s ≠ "false" ∧ ∀ i : Int64, ¬Decimal.Spells s.toList i.toInt

/-! ## Values -/

namespace MetaValue

instance (v : MetaValue) : Decidable v.Legible :=
  match v with
  | .integer _ => .isTrue trivial
  | .boolean _ => .isTrue trivial
  | .text s =>
    decidable_of_iff (Clean s ∧ s ≠ "true" ∧ s ≠ "false" ∧
        ¬∃ i ∈ Decimal.integer? s.toList, minInteger ≤ i ∧ i ≤ maxInteger) (by
      rw [← spells_integer_iff, not_exists]
      rfl)

theorem ofWord_display {v : MetaValue} (legible : v.Legible) : ofWord v.display.toList = v := by
  cases v with
  | integer i =>
      rw [display, Decimal.ofInt, String.toList_ofList]
      exact ofWord_of_spells (Decimal.spells_charsOfInt i.toInt)
  | boolean b =>
      cases b with
      | false => rfl
      | true => rfl
  | text s => exact ofWord_of_text legible.2.1 legible.2.2.1 legible.2.2.2

end MetaValue

/-! ## Spelling -/

namespace Pattern

/-- The parts of the pattern can be told from one another. -/
structure Legible (p : Pattern) : Prop where
  identifier : p.identifier ≠ "" ∧ Clean p.identifier
  speaks : ¬['/', '/'] <+: p.identifier.toList
  literal : p.literal ≠ "" ∧ Clean p.literal
  tags : ∀ tag ∈ p.tags, Clean tag
  keys : ∀ pair ∈ p.metadata, Clean pair.1 ∧ '=' ∉ pair.1.toList ∧ pair.1.toList.head? ≠ some '#'
  values : ∀ pair ∈ p.metadata, pair.2.Legible

instance (p : Pattern) : Decidable p.Legible :=
  decidable_of_iff ((p.identifier ≠ "" ∧ Clean p.identifier) ∧
      ¬['/', '/'] <+: p.identifier.toList ∧ (p.literal ≠ "" ∧ Clean p.literal) ∧
      (∀ tag ∈ p.tags, Clean tag) ∧
      (∀ pair ∈ p.metadata,
        Clean pair.1 ∧ '=' ∉ pair.1.toList ∧ pair.1.toList.head? ≠ some '#') ∧
      ∀ pair ∈ p.metadata, pair.2.Legible)
    ⟨fun ⟨identifier, speaks, literal, tags, keys, values⟩ =>
        ⟨identifier, speaks, literal, tags, keys, values⟩,
      fun ⟨identifier, speaks, literal, tags, keys, values⟩ =>
        ⟨identifier, speaks, literal, tags, keys, values⟩⟩

def clauses (p : Pattern) : List String :=
  p.tags.map ("#" ++ ·) ++ p.metadata.map fun pair => pair.1 ++ "=" ++ pair.2.display

def line (p : Pattern) : String :=
  " ".intercalate (p.identifier :: p.literal :: p.clauses)

/-- The lines of some patterns; the last may be ended as well. -/
def spelling (patterns : List Pattern) (ending : String) : String :=
  "\n".intercalate (patterns.map line) ++ ending

end Pattern

/-! ## Words -/

namespace Clean

variable {s t : String}

theorem append (first : Clean s) (second : Clean t) : Clean (s ++ t) := by
  constructor
  · intro c member
    rw [String.toList_append] at member
    exact (List.mem_append.mp member).elim (first.solid c) (second.solid c)
  · rw [String.toList_append, List.mem_append]
    exact fun nul => nul.elim first.plain second.plain

theorem of_spells {i : Int} (spells : Decimal.Spells s.toList i) : Clean s := by
  have digit {c : Char} (numeric : c.isDigit = true) : Text.isBlank c = false ∧ c ≠ '\x00' := by
    obtain ⟨low, high⟩ := Char.isDigit_iff_toNat.mp numeric
    simp at low high
    constructor
    · simp [Text.isBlank]
      omega
    · rintro rfl
      simp at low
  constructor
  · intro c member
    rcases spells.char member with rfl | rfl | numeric
    · decide
    · decide
    · exact (digit numeric).1
  · intro nul
    rcases spells.char nul with plus | minus | numeric
    · exact absurd plus (by decide)
    · exact absurd minus (by decide)
    · exact absurd numeric (by decide)

theorem display {v : MetaValue} (legible : v.Legible) : Clean v.display := by
  cases v with
  | integer i =>
      refine of_spells (i := i.toInt) ?_
      rw [MetaValue.display, Decimal.ofInt, String.toList_ofList]
      exact Decimal.spells_charsOfInt i.toInt
  | boolean b =>
      cases b with
      | false => exact ⟨by decide, by decide⟩
      | true => exact ⟨by decide, by decide⟩
  | text s => exact legible.1

end Clean

namespace Pattern

variable {p : Pattern}

theorem Legible.clause (legible : p.Legible) {word : String} (member : word ∈ p.clauses) :
    word ≠ "" ∧ Clean word := by
  have mark : Clean "#" := ⟨by decide, by decide⟩
  have sign : Clean "=" := ⟨by decide, by decide⟩
  rcases List.mem_append.mp member with among | among
  · obtain ⟨tag, own, rfl⟩ := List.mem_map.mp among
    exact ⟨by simp, mark.append (legible.tags tag own)⟩
  · obtain ⟨pair, own, rfl⟩ := List.mem_map.mp among
    exact ⟨by simp, ((legible.keys pair own).1.append sign).append
      (.display (legible.values pair own))⟩

theorem Legible.word (legible : p.Legible) {word : String}
    (member : word ∈ p.identifier :: p.literal :: p.clauses) : word ≠ "" ∧ Clean word := by
  rcases List.mem_cons.mp member with rfl | member
  · exact legible.identifier
  · rcases List.mem_cons.mp member with rfl | member
    · exact legible.literal
    · exact legible.clause member

theorem Legible.words_line (legible : p.Legible) :
    Text.words p.line.toList = (p.identifier :: p.literal :: p.clauses).map String.toList := by
  rw [line, String.toList_intercalate]
  refine Text.words_intercalate fun word among => ?_
  obtain ⟨own, member, rfl⟩ := List.mem_map.mp among
  obtain ⟨some, clean⟩ := legible.word member
  exact ⟨fun none => some (String.toList_eq_nil_iff.mp none), clean.solid⟩

theorem Legible.mem_line (legible : p.Legible) {c : Char} (member : c ∈ p.line.toList) :
    c = ' ' ∨ (Text.isBlank c = false ∧ c ≠ '\x00') := by
  rw [line, String.toList_intercalate] at member
  rcases Text.mem_intercalate member with space | ⟨word, among, inside⟩
  · exact .inl (List.mem_singleton.mp space)
  · obtain ⟨own, member, rfl⟩ := List.mem_map.mp among
    obtain ⟨-, clean⟩ := legible.word member
    exact .inr ⟨clean.solid c inside, fun nul => clean.plain (nul ▸ inside)⟩

/-! ## Tags and metadata -/

theorem ofWord_tag (tag : String) : Clause.ofWord ("#" ++ tag).toList = .tag tag := by
  rw [String.toList_append]
  exact congrArg Clause.tag String.ofList_toList

theorem ofWord_metadata {key : String} (free : '=' ∉ key.toList)
    (unmarked : key.toList.head? ≠ some '#') {value : MetaValue} (legible : value.Legible) :
    Clause.ofWord (key ++ "=" ++ value.display).toList = .metadata key value := by
  have spelled : (key ++ "=" ++ value.display).toList =
      key.toList ++ '=' :: value.display.toList := by simp
  rw [spelled]
  unfold Clause.ofWord
  split
  case h_1 name marked =>
    cases start : key.toList with
    | nil =>
        rw [start] at marked
        exact absurd (List.cons.inj marked).1 (by decide)
    | cons c rest =>
        rw [start] at marked unmarked
        obtain ⟨rfl, -⟩ := List.cons.inj marked
        exact absurd rfl unmarked
  case h_2 =>
    rw [Text.cutAt_append free]
    dsimp only
    rw [String.ofList_toList, MetaValue.ofWord_display legible]

theorem Legible.ofWord_clauses (legible : p.Legible) :
    (p.clauses.map String.toList).map Clause.ofWord =
      p.tags.map Clause.tag ++ p.metadata.map fun pair => Clause.metadata pair.1 pair.2 := by
  unfold clauses
  rw [List.map_append, List.map_append]
  congr 1
  · simp only [List.map_map]
    exact List.map_congr_left fun tag _ => ofWord_tag tag
  · simp only [List.map_map]
    refine List.map_congr_left fun pair member => ?_
    obtain ⟨_, free, unmarked⟩ := legible.keys pair member
    exact ofWord_metadata free unmarked (legible.values pair member)

/-! ## Lines -/

theorem Legible.speaks_line (legible : p.Legible) : Speaks p.line.toList :=
  (speaks_iff _).mpr ⟨_, _, legible.words_line, legible.speaks⟩

theorem Legible.not_stray (legible : p.Legible) :
    ∀ word ∈ p.clauses.map String.toList, ¬Stray word := by
  rw [← unexpected_eq_nil_iff, legible.ofWord_clauses, List.filterMap_append, List.filterMap_map,
    List.filterMap_map, List.append_eq_nil_iff, List.filterMap_eq_nil_iff,
    List.filterMap_eq_nil_iff]
  exact ⟨fun _ _ => rfl, fun _ _ => rfl⟩

theorem Legible.not_faulty (legible : p.Legible) {ns : String} {known : List Pattern}
    (free : ∀ q ∈ known, q.ns = ns → q.identifier ≠ p.identifier) :
    ¬Faulty ns known p.line.toList := by
  rintro ⟨-, faulty⟩
  rw [legible.words_line] at faulty
  rcases faulty with short | ⟨q, member, own, same⟩ | ⟨word, member, stray⟩
  · rw [List.length_map, List.length_cons, List.length_cons] at short
    omega
  · exact free q member own (String.toList_inj.mp (Option.some.inj same)).symm
  · exact legible.not_stray word member stray

theorem Legible.isOf (legible : p.Legible) : p.IsOf p.ns p.line.toList := by
  refine ⟨rfl, p.clauses.map String.toList, legible.words_line, ?_, ?_⟩
  · have these : p.tags.filterMap (Clause.tag? ∘ Clause.tag) = p.tags := List.filterMap_some
    have others : p.metadata.filterMap
        (Clause.tag? ∘ fun pair => Clause.metadata pair.1 pair.2) = [] :=
      List.filterMap_eq_nil_iff.mpr fun _ _ => rfl
    rw [legible.ofWord_clauses, List.filterMap_append, List.filterMap_map, List.filterMap_map,
      these, others, List.append_nil]
  · have others : p.tags.filterMap (Clause.metadata? ∘ Clause.tag) = [] :=
      List.filterMap_eq_nil_iff.mpr fun _ _ => rfl
    have these : p.metadata.filterMap
        (Clause.metadata? ∘ fun pair => Clause.metadata pair.1 pair.2) = p.metadata :=
      List.filterMap_some
    rw [legible.ofWord_clauses, List.filterMap_append, List.filterMap_map, List.filterMap_map,
      these, others, List.nil_append]

/-- The line of a pattern is read as the pattern. -/
theorem Legible.line_line (legible : p.Legible) (s : Source) (own : p.ns = s.ns)
    (free : ∀ q ∈ s.known, q.ns = s.ns → q.identifier ≠ p.identifier) :
    let one := s.line (Text.words p.line.toList)
    one.added = [p] ∧ one.errors = 0 := by
  intro one
  have reads : s.Reads p.line.toList one := s.line_reads p.line.toList
  have faultless := legible.not_faulty free
  obtain ⟨new, added, isOf⟩ := reads.yields ⟨legible.speaks_line, faultless⟩
  rw [isOf.eq (own ▸ legible.isOf)] at added
  exact ⟨added, reads.errors.trans (if_neg faultless)⟩

/-- The lines of some patterns with names of their own are read as the patterns. -/
theorem readLines_spelled (s : Source) (n : Nat) {patterns : List Pattern}
    (legible : ∀ p ∈ patterns, p.Legible) (own : ∀ p ∈ patterns, p.ns = s.ns)
    (apart : (patterns.map identifier).Nodup)
    (free : ∀ p ∈ patterns, ∀ q ∈ s.known, q.ns = s.ns → q.identifier ≠ p.identifier) :
    let read := s.readLines n (patterns.map fun p => p.line.toList)
    read.added = patterns ∧ read.errors = 0 := by
  induction patterns generalizing s n with
  | nil => exact ⟨rfl, rfl⟩
  | cons p rest ih =>
      obtain ⟨first, others⟩ := List.forall_mem_cons.mp legible
      obtain ⟨ownFirst, ownOthers⟩ := List.forall_mem_cons.mp own
      obtain ⟨freeFirst, freeOthers⟩ := List.forall_mem_cons.mp free
      obtain ⟨new, distinct⟩ := List.nodup_cons.mp apart
      obtain ⟨added, faultless⟩ := first.line_line s ownFirst freeFirst
      have later : ∀ r ∈ rest, ∀ q ∈ (s.after [p]).known, q.ns = s.ns →
          q.identifier ≠ r.identifier := by
        intro r among q known
        rcases List.mem_append.mp known with old | just
        · exact freeOthers r among q old
        · obtain rfl := List.mem_singleton.mp just
          exact fun _ same => new (same ▸ List.mem_map_of_mem among)
      obtain ⟨gained, clean⟩ := ih (s.after [p]) (n + 1) others ownOthers distinct later
      rw [List.map_cons, Source.readLines]
      constructor
      · rw [Progress.added_append, Progress.added_onLine, added, gained]
        rfl
      · rw [Progress.errors_append, Progress.errors_onLine, faultless, added, clean]

theorem toList_spelling (patterns : List Pattern) (ending : String) :
    (spelling patterns ending).toList =
      ['\n'].intercalate (patterns.map fun p => p.line.toList) ++ ending.toList := by
  unfold spelling
  rw [String.toList_append, String.toList_intercalate, List.map_map]
  rfl

theorem plain_spelling {patterns : List Pattern} (legible : ∀ p ∈ patterns, p.Legible)
    {ending : String} (ends : ending = "" ∨ ending = "\n") :
    '\x00' ∉ (spelling patterns ending).toList := by
  rw [toList_spelling]
  intro nul
  rcases List.mem_append.mp nul with inside | last
  · rcases Text.mem_intercalate inside with feed | ⟨line, among, inside⟩
    · exact absurd (List.mem_singleton.mp feed) (by decide)
    · obtain ⟨p, member, rfl⟩ := List.mem_map.mp among
      rcases (legible p member).mem_line inside with space | ⟨-, plain⟩
      · exact absurd space (by decide)
      · exact plain rfl
  · rcases ends with rfl | rfl
    · contradiction
    · exact absurd (List.mem_singleton.mp last) (by decide)

theorem read_spelling (s : Source) {patterns : List Pattern}
    (legible : ∀ p ∈ patterns, p.Legible) (own : ∀ p ∈ patterns, p.ns = s.ns)
    (apart : (patterns.map Pattern.identifier).Nodup)
    (free : ∀ p ∈ patterns, ∀ q ∈ s.known, q.ns = s.ns → q.identifier ≠ p.identifier)
    {ending : String} (ends : ending = "" ∨ ending = "\n") :
    let read := s.read (spelling patterns ending).toList
    read.added = patterns ∧ read.errors = 0 := by
  have uncut : ∀ line ∈ patterns.map fun p => p.line.toList, '\n' ∉ line := by
    intro line among feed
    obtain ⟨p, member, rfl⟩ := List.mem_map.mp among
    rcases (legible p member).mem_line feed with space | ⟨solid, -⟩
    · exact absurd space (by decide)
    · exact absurd solid (by decide)
  have closes : ending.toList = [] ∨ ending.toList = ['\n'] := by
    rcases ends with rfl | rfl
    · exact .inl rfl
    · exact .inr rfl
  rw [toList_spelling, s.read_intercalate uncut closes]
  exact readLines_spelled s 1 legible own apart free

end Pattern

namespace Compiler

/-- A list of patterns with names of their own is what their text is compiled to, in a new session
with a namespace that has a name; the session gives them as its rule set, unless it is strict. -/
theorem compile_spelling (r : Owner) (h : Host) (started : r.slot < h.engines.length)
    (genuine : (h.engine r.slot).faults.Genuine) {ns : String} (named : ns ≠ "")
    (plain : '\x00' ∉ ns.toList) {patterns : List Pattern} (own : ∀ p ∈ patterns, p.ns = ns)
    (legible : ∀ p ∈ patterns, p.Legible) (apart : (patterns.map Pattern.identifier).Nodup)
    {ending : String} (ends : ending = "" ∨ ending = "\n") :
    ∃ c begun, create r h = (.ok c, begun) ∧ ∀ strict,
      let added := addText { c with failOnWarnings := strict } ns
        (Pattern.spelling patterns ending) begun
      added.1 = .ok () ∧ added.2.1.known added.2.2 = patterns ∧
        (strict = false → ∃ s after, added.2.1.rules added.2.2 = (.ok s, after) ∧
          s.patterns? after = some patterns) := by
  obtain ⟨c, begun, created, account⟩ := create_eq r started genuine
  refine ⟨c, begun, created, ?_⟩
  intro strict added
  have fresh : Live { c with failOnWarnings := strict } begun [] := (account strict).live
  have sound : c.failed = none := (account strict).failed
  obtain ⟨read, faultless⟩ := Pattern.read_spelling ⟨ns, none, []⟩ legible own apart
    (fun _ _ _ known => absurd known List.not_mem_nil) ends
  obtain ⟨goes, leaves⟩ := fresh.added_text sound ns (Pattern.spelling patterns ending)
  have fit : Fit ns (Pattern.spelling patterns ending) :=
    ⟨named, plain, Pattern.plain_spelling legible ends⟩
  have success := goes.mpr ⟨fit, faultless⟩
  obtain ⟨live, usable, _, kept⟩ := leaves success
  rw [read] at live
  refine ⟨success, live.known_eq, fun lenient => ?_⟩
  have off : added.2.1.failOnWarnings = false := kept.trans lenient
  obtain ⟨s, after, gives, holds, _⟩ :=
    live.rules usable fun both => Bool.false_ne_true (off.symm.trans both.1)
  exact ⟨s, after, gives, holds⟩

/-- A value may hold the sign before it, and a numeral may be too large for an integer. -/
theorem compile_spelling_of_values :
    let h : Host := ⟨⟨[], []⟩, .ofText "", [{ holders := 1 }], {}, [], 0⟩
    let patterns : List Pattern :=
      [⟨"ns", "_a", "//", ["", "t"], [("", .text "k=v"), ("k", .integer (-5)), ("k", .boolean true)]⟩,
        ⟨"ns", "b", "#", [], [("n", .text "9223372036854775808")]⟩]
    Pattern.spelling patterns "\n" =
        "_a // # #t =k=v k=-5 k=true\nb # n=9223372036854775808\n" ∧
      ∃ c begun, create ⟨0⟩ h = (.ok c, begun) ∧
        let added := addText { c with failOnWarnings := false } "ns"
          (Pattern.spelling patterns "\n") begun
        added.1 = .ok () ∧ added.2.1.known added.2.2 = patterns := by
  intro h patterns
  have legible : ∀ p ∈ patterns, p.Legible := by decide
  obtain ⟨c, begun, created, compiles⟩ := compile_spelling ⟨0⟩ h (by decide) rfl
    (show "ns" ≠ "" by decide) (by decide) (by decide) legible (by decide) (.inr rfl)
  obtain ⟨success, known, _⟩ := compiles false
  exact ⟨by decide, c, begun, created, success, known⟩

end Compiler

end Needle
