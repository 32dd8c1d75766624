import Needle.Proofs.Compiler.Addition
import Needle.Proofs.Pattern.Reading

/-!
# The account of a text

A line that says something gives a pattern or is faulty. Which of the two depends on the patterns
that were there before the text and on those of the lines before. The account of a text tells for
each line what became of it; one more line extends it by the line's pattern or by a fault, and leaves
all that it says of the lines before.
-/
set_option autoImplicit false

namespace Needle

namespace Pattern

/-- The line is neither blank nor a remark. -/
def Speaks (line : List Char) : Prop :=
  Text.trim line ≠ [] ∧ ¬['/', '/'] <+: Text.trim line

instance (line : List Char) : Decidable (Speaks line) :=
  inferInstanceAs (Decidable (_ ∧ _))

def Stray (word : List Char) : Prop := word.head? ≠ some '#' ∧ '=' ∉ word

instance (word : List Char) : Decidable (Stray word) :=
  inferInstanceAs (Decidable (_ ∧ _))

/-- Something is wrong with a line for a namespace, where some patterns are known: its literal is
missing, its identifier is taken, or one of its other words is stray. -/
def Faulty (ns : String) (known : List Pattern) (line : List Char) : Prop :=
  Speaks line ∧ ((Text.words line).length < 2 ∨
    (∃ p ∈ known, p.ns = ns ∧ (Text.words line).head? = some p.identifier.toList) ∨
    ∃ word ∈ (Text.words line).drop 2, Stray word)

instance (ns : String) (known : List Pattern) (line : List Char) :
    Decidable (Faulty ns known line) :=
  inferInstanceAs (Decidable (_ ∧ (_ ∨ _ ∨ _)))

/-- The pattern has the namespace; its identifier and literal are the first words of the line, and
its tags and metadata are those of the other words. -/
structure IsOf (ns : String) (line : List Char) (new : Pattern) : Prop where
  ns : new.ns = ns
  words : ∃ rest, Text.words line = new.identifier.toList :: new.literal.toList :: rest ∧
    new.tags = (rest.map Clause.ofWord).filterMap Clause.tag? ∧
    new.metadata = (rest.map Clause.ofWord).filterMap Clause.metadata?

theorem IsOf.eq {ns : String} {line : List Char} {new other : Pattern} (isOf : new.IsOf ns line)
    (alike : other.IsOf ns line) : new = other := by
  obtain ⟨rest, words, tags, metadata⟩ := isOf.words
  obtain ⟨more, spelled, sameTags, sameMetadata⟩ := alike.words
  obtain ⟨identifier, literals⟩ := List.cons.inj (words.symm.trans spelled)
  obtain ⟨literal, rfl⟩ := List.cons.inj literals
  have ns : new.ns = other.ns := isOf.ns.trans alike.ns.symm
  have tags : new.tags = other.tags := tags.trans sameTags.symm
  have metadata : new.metadata = other.metadata := metadata.trans sameMetadata.symm
  cases new
  cases other
  cases ns
  cases tags
  cases metadata
  cases String.toList_inj.mp identifier
  cases String.toList_inj.mp literal
  rfl

/-! ## One line -/

theorem speaks_iff (line : List Char) :
    Speaks line ↔ ∃ word more, Text.words line = word :: more ∧ ¬['/', '/'] <+: word := by
  have solid : Text.Solid ['/', '/'] := by decide
  unfold Speaks
  rw [Ne, Text.trim_eq_nil_iff, Text.prefix_trim_iff (List.cons_ne_nil _ _) solid]
  cases Text.words line with
  | nil => simp
  | cons word more => simp

theorem unexpected?_ofWord (word : List Char) :
    (Clause.ofWord word).unexpected? = if Stray word then some (String.ofList word) else none := by
  unfold Clause.ofWord
  split
  case h_1 name => rw [if_neg fun stray => stray.1 rfl]; rfl
  case h_2 unmarked =>
    cases cut : Text.cutAt '=' word with
    | none =>
        have stray : Stray word := by
          refine ⟨fun marked => ?_, Text.cutAt_eq_none_iff.mp cut⟩
          obtain ⟨name, rfl⟩ := List.head?_eq_some_iff.mp marked
          exact unmarked name rfl
        rw [if_pos stray]
        rfl
    | some pair =>
        have paired : ¬Stray word := by
          intro stray
          rw [Text.cutAt_eq_none_iff.mpr stray.2] at cut
          contradiction
        rw [if_neg paired]
        rfl

theorem unexpected_eq_nil_iff (words : List (List Char)) :
    (words.map Clause.ofWord).filterMap Clause.unexpected? = [] ↔ ∀ word ∈ words, ¬Stray word := by
  rw [List.filterMap_map, List.filterMap_eq_nil_iff]
  simp only [Function.comp_apply, unexpected?_ofWord, ite_eq_right_iff, reduceCtorEq, imp_false]

namespace Source

variable (s : Source)

theorem taken_iff (identifier : List Char) :
    s.taken [] (String.ofList identifier) = true ↔
      ∃ p ∈ s.known, p.ns = s.ns ∧ identifier = p.identifier.toList := by
  have spelled (p : Pattern) :
      p.identifier = String.ofList identifier ↔ identifier = p.identifier.toList :=
    ⟨fun same => by rw [same, String.toList_ofList], fun same => by rw [same, String.ofList_toList]⟩
  unfold taken
  rw [List.append_nil, List.any_eq_true]
  simp only [Bool.and_eq_true, beq_iff_eq, spelled]

/-- What a line contributes, by what is to be said of it. -/
structure Reads (line : List Char) (one : Progress) : Prop where
  errors : one.errors = if Faulty s.ns s.known line then 1 else 0
  reports : (∃ d ∈ one.diagnostics, d.severity = .error) ↔ Faulty s.ns s.known line
  silent : ¬(Speaks line ∧ ¬Faulty s.ns s.known line) → one.added = []
  yields : Speaks line ∧ ¬Faulty s.ns s.known line →
    ∃ new, one.added = [new] ∧ new.IsOf s.ns line

variable {s} {line : List Char}

theorem Reads.of_mem {one : Progress} (reads : s.Reads line one) {new : Pattern}
    (member : new ∈ one.added) :
    (Speaks line ∧ ¬Faulty s.ns s.known line) ∧ one.added = [new] ∧ new.IsOf s.ns line := by
  have good : Speaks line ∧ ¬Faulty s.ns s.known line := by
    by_contra bad
    rw [reads.silent bad] at member
    contradiction
  obtain ⟨other, only, isOf⟩ := reads.yields good
  rw [only] at member
  obtain rfl := List.mem_singleton.mp member
  exact ⟨good, only, isOf⟩

theorem Reads.exists_mem_iff {one : Progress} (reads : s.Reads line one) :
    (∃ new, new ∈ one.added) ↔ Speaks line ∧ ¬Faulty s.ns s.known line := by
  refine ⟨fun ⟨new, member⟩ => (reads.of_mem member).1, fun good => ?_⟩
  obtain ⟨new, only, -⟩ := reads.yields good
  exact ⟨new, only ▸ List.mem_singleton_self new⟩

theorem Reads.exists_error_iff {one : Progress} (reads : s.Reads line one) (n : Nat) :
    (∃ d ∈ (one.onLine n).diagnostics, d.severity = .error) ↔ Faulty s.ns s.known line := by
  refine Iff.trans ?_ reads.reports
  unfold Progress.onLine
  simp only [List.mem_map, exists_exists_and_eq_and]
  rfl

theorem Reads.of_silent (silent : ¬Speaks line) : s.Reads line {} := by
  have faultless : ¬Faulty s.ns s.known line := fun faulty => silent faulty.1
  constructor
  case errors => exact (if_neg faultless).symm
  case reports => simp [faultless]
  case silent => exact fun _ => rfl
  case yields => exact fun both => absurd both.1 silent

theorem Reads.of_faulty (faulty : Faulty s.ns s.known line) {ds : List Diagnostic}
    (told : ∃ d ∈ ds, d.severity = .error) : s.Reads line ⟨[], ds, 1⟩ := by
  constructor
  case errors => exact (if_pos faulty).symm
  case reports => exact iff_of_true told faulty
  case silent => exact fun _ => rfl
  case yields => exact fun both => absurd faulty both.2

theorem faulty_iff_of_free {identifier literal : List Char} {rest : List (List Char)}
    (words : Text.words line = identifier :: literal :: rest) (speaks : Speaks line)
    (free : ¬s.taken [] (String.ofList identifier) = true) :
    Faulty s.ns s.known line ↔ ∃ word ∈ rest, Stray word := by
  rw [taken_iff] at free
  unfold Faulty
  rw [words, List.head?_cons]
  simp only [Option.some.injEq, List.length_cons, List.drop_succ_cons, List.drop_zero]
  constructor
  · rintro ⟨-, short | taken | stray⟩
    · omega
    · exact absurd taken free
    · exact stray
  · exact fun stray => ⟨speaks, .inr (.inr stray)⟩

theorem readPattern_reads {identifier literal : List Char} {rest : List (List Char)}
    (words : Text.words line = identifier :: literal :: rest) (speaks : Speaks line)
    (free : ¬s.taken [] (String.ofList identifier) = true) :
    s.Reads line (s.readPattern {} 0 identifier literal rest) := by
  have faulty_iff := faulty_iff_of_free words speaks free
  have unexpected := unexpected_eq_nil_iff rest
  unfold readPattern
  simp only [List.isEmpty_map, List.isEmpty_iff]
  split
  case isTrue none =>
    have faultless : ¬Faulty s.ns s.known line := by
      rw [faulty_iff]
      rintro ⟨word, member, stray⟩
      exact unexpected.mp none word member stray
    refine ⟨(if_neg faultless).symm, iff_of_false ?_ faultless,
      fun not => absurd ⟨speaks, faultless⟩ not,
      fun _ => ⟨_, rfl, rfl, rest, by simp only [words, String.toList_ofList], rfl, rfl⟩⟩
    rintro ⟨d, member, error⟩
    rw [none, List.nil_append, List.map_nil, List.append_nil] at member
    split at member
    · obtain rfl := List.mem_singleton.mp member
      contradiction
    · contradiction
  case isFalse some =>
    have faulty : Faulty s.ns s.known line := by
      rw [faulty_iff]
      by_contra none
      exact some (unexpected.mpr fun word member stray => none ⟨word, member, stray⟩)
    refine .of_faulty faulty ?_
    obtain ⟨word, member⟩ := List.exists_mem_of_ne_nil _ some
    exact ⟨_, List.mem_append_right _ (List.mem_map_of_mem member), rfl⟩

theorem line_reads (s : Source) (line : List Char) : s.Reads line (s.line (Text.words line)) := by
  have spoken := speaks_iff line
  unfold Source.line readLine
  split
  case h_1 none =>
    refine .of_silent ?_
    rw [spoken, none]
    rintro ⟨_, _, split, _⟩
    contradiction
  case h_2 tail more remark =>
    refine .of_silent ?_
    rw [spoken, remark]
    rintro ⟨word, _, split, plain⟩
    obtain ⟨rfl, -⟩ := List.cons.inj split
    exact plain ⟨tail, rfl⟩
  case h_3 word plain single =>
    have speaks : Speaks line := by
      refine spoken.mpr ⟨word, [], single, ?_⟩
      rintro ⟨tail, rfl⟩
      exact plain tail rfl
    refine .of_faulty ⟨speaks, .inl ?_⟩ ⟨_, List.mem_singleton_self _, rfl⟩
    rw [single]
    exact Nat.one_lt_two
  case h_4 identifier literal rest plain words =>
    have speaks : Speaks line := by
      refine spoken.mpr ⟨identifier, literal :: rest, words, ?_⟩
      rintro ⟨tail, rfl⟩
      exact plain tail rfl
    split
    case isTrue taken =>
      obtain ⟨p, member, own, same⟩ := (s.taken_iff identifier).mp taken
      refine .of_faulty ⟨speaks, .inr (.inl ⟨p, member, own, ?_⟩)⟩
        ⟨_, List.mem_singleton_self _, rfl⟩
      rw [words, same]
      rfl
    case isFalse free => exact readPattern_reads words speaks free

end Source

/-! ## All lines -/

/-- The patterns of the lines before a place. -/
def before (i : Nat) (accepted : List (Nat × Pattern)) : List Pattern :=
  (accepted.filter (·.1 < i)).map Prod.snd

def faults (ns : String) (known : List Pattern) (lines : List (List Char))
    (accepted : List (Nat × Pattern)) : Nat :=
  lines.zipIdx.countP fun entry => Faulty ns (known ++ before entry.2 accepted) entry.1

/-- The patterns of some lines that are read for a namespace where some patterns are known, each with
its place among the lines. -/
structure Accepts (ns : String) (known : List Pattern) (lines : List (List Char))
    (accepted : List (Nat × Pattern)) : Prop where
  accepts : ∀ i line, lines[i]? = some line → ((∃ new, (i, new) ∈ accepted) ↔
    Speaks line ∧ ¬Faulty ns (known ++ before i accepted) line)
  yields : ∀ a ∈ accepted, ∃ line, lines[a.1]? = some line ∧ a.2.IsOf ns line
  ordered : (accepted.map Prod.fst).Pairwise (· < ·)

structure Reports (ns : String) (known : List Pattern) (lines : List (List Char))
    (accepted : List (Nat × Pattern)) (diagnostics : List Diagnostic) : Prop where
  reports : ∀ i line, lines[i]? = some line →
    ((∃ d ∈ diagnostics, d.severity = .error ∧ d.line.toNat = i + 1) ↔
      Faulty ns (known ++ before i accepted) line)
  numbered : ∀ d ∈ diagnostics, 1 ≤ d.line.toNat ∧ d.line.toNat ≤ lines.length
  sorted : diagnostics.Pairwise (·.line ≤ ·.line)

/-- The whole account of some lines: patterns, diagnostics, and the number of faulty lines. -/
structure Account (ns : String) (known : List Pattern) (lines : List (List Char))
    (accepted : List (Nat × Pattern)) (diagnostics : List Diagnostic) (errors : Nat) : Prop
    extends Accepts ns known lines accepted, Reports ns known lines accepted diagnostics where
  errors : errors = faults ns known lines accepted

theorem Account.nil (ns : String) (known : List Pattern) : Account ns known [] [] [] 0 := by
  constructor
  · constructor <;> simp
  · constructor <;> simp
  · rfl

theorem before_append {i n : Nat} (le : i ≤ n) (accepted : List (Nat × Pattern))
    (added : List Pattern) :
    before i (accepted ++ added.map fun new => (n, new)) = before i accepted := by
  unfold before
  rw [List.filter_append, List.map_append]
  simp [List.filter_eq_nil_iff, le]

theorem mem_concat_iff {i n : Nat} {new : Pattern} (accepted : List (Nat × Pattern))
    (added : List Pattern) :
    (i, new) ∈ accepted ++ added.map (fun new => (n, new)) ↔
      (i, new) ∈ accepted ∨ i = n ∧ new ∈ added := by
  rw [List.mem_append, List.mem_map]
  refine or_congr_right ⟨?_, ?_⟩
  · rintro ⟨other, member, same⟩
    obtain ⟨rfl, rfl⟩ := Prod.mk.inj same
    exact ⟨rfl, member⟩
  · rintro ⟨rfl, member⟩
    exact ⟨new, member, rfl⟩

section Step

variable {s : Source} {lines : List (List Char)} {accepted : List (Nat × Pattern)}
  {diagnostics : List Diagnostic} {errors : Nat} {line : List Char} {one : Progress}

theorem place_concat {i : Nat} {l : List Char} (there : (lines ++ [line])[i]? = some l) :
    (i < lines.length ∧ lines[i]? = some l) ∨ (i = lines.length ∧ line = l) := by
  obtain ⟨within, same⟩ := List.getElem?_eq_some_iff.mp there
  rw [List.length_append, List.length_singleton] at within
  rcases Nat.lt_succ_iff_lt_or_eq.mp within with earlier | rfl
  · rw [List.getElem?_append_left earlier] at there
    exact .inl ⟨earlier, there⟩
  · rw [List.getElem?_concat_length] at there
    exact .inr ⟨rfl, Option.some.inj there⟩

namespace Accepts

variable (accepts : Accepts s.ns s.known lines accepted)
include accepts

theorem place_lt {a : Nat × Pattern} (member : a ∈ accepted) : a.1 < lines.length := by
  obtain ⟨line, there, _⟩ := accepts.yields a member
  exact (List.getElem?_eq_some_iff.mp there).1

/-- At the end all accepted patterns are known, also with those of one more line. -/
theorem before_length (added : List Pattern) :
    before lines.length (accepted ++ added.map fun new => (lines.length, new)) =
      accepted.map Prod.snd := by
  rw [before_append (Nat.le_refl _)]
  unfold before
  rw [List.filter_eq_self.mpr fun a member => by simpa using accepts.place_lt member]

theorem faults_concat (line : List Char) (added : List Pattern) :
    faults s.ns s.known (lines ++ [line])
        (accepted ++ added.map fun new => (lines.length, new)) =
      faults s.ns s.known lines accepted +
        if Faulty s.ns (s.known ++ accepted.map Prod.snd) line then 1 else 0 := by
  have last : (lines ++ [line]).zipIdx = lines.zipIdx ++ [(line, lines.length)] := by
    simp [List.zipIdx_append]
  unfold faults
  rw [last, List.countP_append, List.countP_singleton, accepts.before_length]
  simp only [decide_eq_true_eq]
  congr 1
  refine List.countP_congr fun entry member => ?_
  have earlier : entry.2 < lines.length := by simpa using List.snd_lt_of_mem_zipIdx member
  rw [before_append earlier.le]

theorem concat (reads : (s.after (accepted.map Prod.snd)).Reads line one) :
    Accepts s.ns s.known (lines ++ [line])
      (accepted ++ one.added.map fun new => (lines.length, new)) := by
  constructor
  case accepts =>
    intro i l there
    simp only [mem_concat_iff]
    rcases place_concat there with ⟨earlier, there⟩ | ⟨rfl, rfl⟩
    · rw [before_append earlier.le, ← accepts.accepts i l there]
      simp [earlier.ne]
    · rw [accepts.before_length]
      refine Iff.trans (exists_congr fun new => ⟨?_, fun member => .inr ⟨rfl, member⟩⟩)
        reads.exists_mem_iff
      rintro (old | ⟨-, member⟩)
      · exact absurd (accepts.place_lt old) (Nat.lt_irrefl _)
      · exact member
  case yields =>
    rintro ⟨i, new⟩ member
    rcases (mem_concat_iff ..).mp member with old | ⟨rfl, own⟩
    · obtain ⟨l, there, isOf⟩ := accepts.yields _ old
      exact ⟨l, (List.getElem?_append_left (accepts.place_lt old)).trans there, isOf⟩
    · exact ⟨line, List.getElem?_concat_length, (reads.of_mem own).2.2⟩
  case ordered =>
    rw [List.map_append, List.map_map, List.pairwise_append]
    refine ⟨accepts.ordered, ?_, ?_⟩
    · cases gained : one.added with
      | nil => exact List.Pairwise.nil
      | cons new rest =>
          have only := (reads.of_mem (gained ▸ List.mem_cons_self)).2.1
          rw [gained] at only
          rw [only]
          exact List.pairwise_singleton ..
    · simp only [List.mem_map, Function.comp_apply]
      rintro _ ⟨a, old, rfl⟩ _ ⟨new, -, rfl⟩
      exact accepts.place_lt old

end Accepts

theorem line_of_onLine {n : Nat} (small : n < 4294967296) {d : Diagnostic}
    (member : d ∈ (one.onLine n).diagnostics) : d.line.toNat = n := by
  obtain ⟨d, -, rfl⟩ := List.mem_map.mp member
  exact UInt32.toNat_ofNat_of_lt' small

theorem Reports.concat (reported : Reports s.ns s.known lines accepted diagnostics)
    (accepts : Accepts s.ns s.known lines accepted) (small : lines.length + 1 < 4294967296)
    (reads : (s.after (accepted.map Prod.snd)).Reads line one) :
    Reports s.ns s.known (lines ++ [line])
      (accepted ++ one.added.map fun new => (lines.length, new))
      (diagnostics ++ (one.onLine (lines.length + 1)).diagnostics) := by
  have placed {d : Diagnostic} (new : d ∈ (one.onLine (lines.length + 1)).diagnostics) :
      d.line.toNat = lines.length + 1 := line_of_onLine small new
  constructor
  case reports =>
    intro i l there
    simp only [List.mem_append, or_and_right, exists_or]
    rcases place_concat there with ⟨earlier, there⟩ | ⟨rfl, rfl⟩
    · rw [before_append earlier.le, reported.reports i l there]
      refine or_iff_left ?_
      rintro ⟨d, member, -, number⟩
      have := placed member
      omega
    · rw [accepts.before_length]
      refine Iff.trans ⟨?_, ?_⟩ (reads.exists_error_iff (lines.length + 1))
      · rintro (⟨d, member, -, number⟩ | ⟨d, member, error, -⟩)
        · have := (reported.numbered d member).2
          omega
        · exact ⟨d, member, error⟩
      · rintro ⟨d, member, error⟩
        exact .inr ⟨d, member, error, placed member⟩
  case numbered =>
    intro d member
    rw [List.length_append, List.length_singleton]
    rcases List.mem_append.mp member with old | new
    · have := reported.numbered d old
      omega
    · have := placed new
      omega
  case sorted =>
    rw [List.pairwise_append]
    refine ⟨reported.sorted, ?_, ?_⟩
    · refine List.pairwise_of_forall_mem_list fun d first e second => ?_
      rw [UInt32.le_iff_toNat_le, placed first, placed second]
    · intro d old e new
      rw [UInt32.le_iff_toNat_le, placed new]
      have := (reported.numbered d old).2
      omega

theorem Account.concat (account : Account s.ns s.known lines accepted diagnostics errors)
    (small : lines.length + 1 < 4294967296) (reads : (s.after (accepted.map Prod.snd)).Reads line one) :
    Account s.ns s.known (lines ++ [line])
      (accepted ++ one.added.map fun new => (lines.length, new))
      (diagnostics ++ (one.onLine (lines.length + 1)).diagnostics) (errors + one.errors) := by
  constructor
  case toAccepts => exact account.toAccepts.concat reads
  case toReports => exact account.toReports.concat account.toAccepts small reads
  case errors =>
    rw [account.toAccepts.faults_concat, ← account.errors, reads.errors]
    rfl

end Step

/-- The account of all lines. -/
theorem Source.readLines_account (s : Source) (lines : List (List Char))
    (small : lines.length < 4294967296) :
    let p := s.readLines 1 lines
    ∃ accepted, p.added = accepted.map Prod.snd ∧
      Account s.ns s.known lines accepted p.diagnostics p.errors := by
  -- From the end, since a line is read against the patterns of all lines before it.
  induction lines using List.reverseRecOn with
  | nil => exact ⟨[], rfl, .nil s.ns s.known⟩
  | append_singleton lines line ih =>
      rw [List.length_append, List.length_singleton] at small
      obtain ⟨accepted, added, account⟩ := ih (Nat.lt_of_succ_lt small)
      let one := (s.after (s.readLines 1 lines).added).line (Text.words line)
      have reads : (s.after (accepted.map Prod.snd)).Reads line one := added ▸ line_reads _ line
      rw [s.readLines_concat]
      refine ⟨accepted ++ one.added.map fun new => (lines.length, new), ?_,
        account.concat small reads⟩
      have own : (one.added.map fun new => (lines.length, new)).map Prod.snd = one.added := by
        rw [List.map_map]
        exact List.map_id _
      rw [Progress.added_append, Progress.added_onLine, List.map_append, ← added, own]

end Pattern

namespace Engine

open Pattern

variable {handle : Handle} {session : CompilerSession}

/-- A text that is added to a compiler of the engine is accounted for line by line, and the session
takes all accepted patterns if no line is faulty, and none otherwise. -/
theorem addSource_account (e : Engine) (found : e.compiler? handle = some session) (ns : String)
    (file : Option String) (text : String)
    (small : (Text.closedLines text.toList).length < 4294967296) :
    let done := e.addSource handle ns file text
    ∃ accepted,
      Account ns session.patterns (Text.closedLines text.toList) accepted done.1.2 done.1.1 ∧
      done.2.compiler? handle = some
        ⟨if done.1.1 = 0 then session.patterns ++ accepted.map Prod.snd else session.patterns,
          session.errors + done.1.1⟩ := by
  intro done
  let s : Source := ⟨ns, file, session.patterns⟩
  obtain ⟨after, answered, left, _, _⟩ := e.addSource_found found ns file text
  obtain ⟨accepted, added, account⟩ := s.readLines_account (Text.closedLines text.toList) small
  rw [← s.read_eq_closedLines] at added account
  have same : done = (((s.read text.toList).errors, (s.read text.toList).diagnostics), after) :=
    answered
  rw [same]
  refine ⟨accepted, account, left.trans ?_⟩
  unfold CompilerSession.add
  rw [← added]

theorem addSource_account_of_faults :
    let e := ((fresh {}).createCompiler).2
    let text := "// remark\r\na x\n\na y #t k=v\n_b z stray more\nb\n"
    let done := e.addSource 1 "ns" none text
    (∃ accepted, Account "ns" [] (Text.closedLines text.toList) accepted done.1.2 done.1.1) ∧
      done.1.1 = 3 ∧ done.1.2.length = 5 ∧ done.2.compiler? 1 = some ⟨[], 3⟩ := by
  intro e text done
  have found : e.compiler? 1 = some {} := rfl
  have small : (Text.closedLines text.toList).length < 4294967296 := by decide
  obtain ⟨accepted, account, left⟩ := e.addSource_account found "ns" none text small
  have count : done.1.1 = 3 := by decide +kernel
  refine ⟨⟨accepted, account⟩, count, by decide +kernel, ?_⟩
  rw [count] at left
  exact left

end Engine

end Needle
