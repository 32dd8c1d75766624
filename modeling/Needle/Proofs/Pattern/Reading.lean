import Needle.Pattern.Source
import Needle.Proofs.Text.Words

/-!
# Reading line by line

What a line contributes to a text depends on the line and on the patterns that are known by then; its
number only stands in its diagnostics. So a text is read from the front, where each line makes its
pattern known to the lines after it, and a text in two parts is read as its first part and then, with
the patterns of that, its second.
-/
set_option autoImplicit false

namespace Needle

def Diagnostic.onLine (n : Nat) (d : Diagnostic) : Diagnostic := { d with line := .ofNat n }

namespace Pattern

namespace Progress

instance : Append Progress where
  append p q := ⟨p.added ++ q.added, p.diagnostics ++ q.diagnostics, p.errors + q.errors⟩

def onLine (n : Nat) (p : Progress) : Progress :=
  { p with diagnostics := p.diagnostics.map (Diagnostic.onLine n) }

variable (p q r : Progress) (n : Nat)

@[simp] theorem added_append : (p ++ q).added = p.added ++ q.added := rfl

@[simp] theorem diagnostics_append : (p ++ q).diagnostics = p.diagnostics ++ q.diagnostics := rfl

@[simp] theorem errors_append : (p ++ q).errors = p.errors + q.errors := rfl

@[simp] theorem added_onLine : (p.onLine n).added = p.added := rfl

@[simp] theorem errors_onLine : (p.onLine n).errors = p.errors := rfl

theorem eq_of {p q : Progress} (added : p.added = q.added)
    (diagnostics : p.diagnostics = q.diagnostics) (errors : p.errors = q.errors) : p = q := by
  cases p
  cases q
  cases added
  cases diagnostics
  cases errors
  rfl

theorem append_assoc : p ++ q ++ r = p ++ (q ++ r) := by
  show Progress.mk _ _ _ = Progress.mk _ _ _
  congr 1
  · exact List.append_assoc ..
  · exact List.append_assoc ..
  · exact Nat.add_assoc ..

theorem empty_append : {} ++ p = p := by
  show Progress.mk _ _ _ = p
  rw [Nat.zero_add]
  rfl

theorem append_empty : p ++ {} = p := by
  show Progress.mk _ _ _ = p
  rw [List.append_nil, List.append_nil]
  rfl

theorem onLine_append : (p ++ q).onLine n = p.onLine n ++ q.onLine n := by
  show Progress.mk _ _ _ = Progress.mk _ _ _
  rw [diagnostics_append, List.map_append]
  rfl

theorem onLine_onLine (m : Nat) : (p.onLine m).onLine n = p.onLine n := by
  unfold onLine
  rw [List.map_map]
  rfl

end Progress

namespace Source

variable (s : Source)

def after (added : List Pattern) : Source := { s with known := s.known ++ added }

/-- What a line contributes by its words, if it is the first of its text. -/
def line (words : List (List Char)) : Progress := s.readLine {} 0 words

/-- All that some lines contribute, the first of which has a number. -/
def readLines (s : Source) (n : Nat) : List (List Char) → Progress
  | [] => {}
  | line :: rest =>
    let one := s.line (Text.words line)
    one.onLine n ++ (s.after one.added).readLines (n + 1) rest

theorem after_nil : s.after [] = s := by
  unfold after
  rw [List.append_nil]

theorem after_after (first second : List Pattern) :
    (s.after first).after second = s.after (first ++ second) := by
  unfold after
  rw [List.append_assoc]

theorem taken_after (p : Progress) (identifier : String) :
    (s.after p.added).taken [] identifier = s.taken p.added identifier := by
  unfold taken after
  rw [List.append_nil]

theorem diagnostic_after (added : List Pattern) : (s.after added).diagnostic = s.diagnostic := rfl

theorem readPattern_eq (p : Progress) (n : Nat) (identifier literal : List Char)
    (rest : List (List Char)) :
    s.readPattern p n identifier literal rest =
      p ++ ((s.after p.added).readPattern {} 0 identifier literal rest).onLine n := by
  unfold readPattern
  simp only [List.isEmpty_map, diagnostic_after, List.nil_append, List.append_assoc]
  split
  case isTrue =>
    refine Progress.eq_of rfl (congrArg (p.diagnostics ++ ·) ?_) rfl
    simp only [Progress.onLine, List.map_append, List.map_map, apply_ite (List.map _)]
    rfl
  case isFalse =>
    refine Progress.eq_of (List.append_nil _).symm (congrArg (p.diagnostics ++ ·) ?_) rfl
    simp only [Progress.onLine, List.map_append, List.map_map, apply_ite (List.map _)]
    rfl

/-- The number of a line and the lines before it only matter as said. -/
theorem readLine_eq (p : Progress) (n : Nat) (words : List (List Char)) :
    s.readLine p n words = p ++ ((s.after p.added).line words).onLine n := by
  unfold line readLine
  split
  · exact p.append_empty.symm
  · exact p.append_empty.symm
  · exact congrArg (Progress.mk · _ _) (List.append_nil _).symm
  · rw [taken_after]
    split
    · exact congrArg (Progress.mk · _ _) (List.append_nil _).symm
    · exact s.readPattern_eq p n ..

theorem foldl_readLine (lines : List (List Char)) (p : Progress) (n : Nat) :
    (lines.zipIdx n).foldl (fun p (line, m) => s.readLine p (m + 1) (Text.words line)) p =
      p ++ (s.after p.added).readLines (n + 1) lines := by
  induction lines generalizing p n with
  | nil => exact p.append_empty.symm
  | cons line rest ih =>
      rw [List.zipIdx_cons, List.foldl_cons]
      dsimp only
      rw [readLine_eq, ih, Progress.append_assoc, readLines, after_after]
      rfl

theorem read_eq (text : List Char) : s.read text = s.readLines 1 (Text.lines text) := by
  unfold read
  rw [foldl_readLine, Progress.empty_append, after_nil]

theorem readLines_append (n : Nat) (first second : List (List Char)) :
    s.readLines n (first ++ second) = s.readLines n first ++
      (s.after (s.readLines n first).added).readLines (n + first.length) second := by
  induction first generalizing s n with
  | nil =>
      rw [List.nil_append, readLines, Progress.empty_append, after_nil]
      rfl
  | cons line rest ih =>
      have count : n + (rest.length + 1) = n + 1 + rest.length := by omega
      rw [List.cons_append, readLines, ih, readLines, Progress.append_assoc,
        Progress.added_append, Progress.added_onLine, after_after, List.length_cons, count]

theorem readLines_concat (lines : List (List Char)) (line : List Char) :
    let p := s.readLines 1 lines
    s.readLines 1 (lines ++ [line]) =
      p ++ ((s.after p.added).line (Text.words line)).onLine (lines.length + 1) := by
  intro p
  rw [readLines_append, readLines, readLines, Progress.append_empty, Nat.add_comm]

theorem readLines_concat_empty (lines : List (List Char)) :
    s.readLines 1 (lines ++ [[]]) = s.readLines 1 lines := by
  rw [readLines_concat]
  exact Progress.append_empty _

theorem read_eq_closedLines (text : List Char) :
    s.read text = s.readLines 1 (Text.closedLines text) := by
  rw [read_eq]
  rcases Text.lines_eq text with same | more
  · rw [same]
  · rw [more, readLines_concat_empty]

/-- Lines that are joined by line feeds, and the last of which may be ended as well. -/
theorem read_intercalate {lines : List (List Char)} (uncut : ∀ line ∈ lines, '\n' ∉ line)
    {ending : List Char} (ends : ending = [] ∨ ending = ['\n']) :
    s.read (['\n'].intercalate lines ++ ending) = s.readLines 1 lines := by
  have joined : s.readLines 1 (Text.lines (['\n'].intercalate lines)) = s.readLines 1 lines := by
    by_cases none : lines = []
    · rw [none]
      exact s.readLines_concat_empty []
    · rw [Text.lines_intercalate none uncut]
  rw [read_eq]
  rcases ends with rfl | rfl
  · rw [List.append_nil, joined]
  · rw [Text.lines_append_feed, ← joined]
    exact s.readLines_concat_empty _

/-- Where the lines are counted from only matters to the lines of the diagnostics. -/
theorem onLine_readLines (n m : Nat) (lines : List (List Char)) :
    (s.readLines n lines).onLine 0 = (s.readLines m lines).onLine 0 := by
  induction lines generalizing s n m with
  | nil => rfl
  | cons line rest ih =>
      rw [readLines, readLines, Progress.onLine_append, Progress.onLine_append,
        Progress.onLine_onLine, Progress.onLine_onLine, ih]

/-- A text with a line feed somewhere comes, up to the numbers of its lines, to what the two parts
come to one after the other. -/
theorem read_append_feed (first second : List Char) :
    (s.read (first ++ '\n' :: second)).onLine 0 =
      (s.read first ++ (s.after (s.read first).added).read second).onLine 0 := by
  simp only [read_eq, Text.lines_append_feed, readLines_append]
  rw [Progress.onLine_append, Progress.onLine_append]
  exact congrArg ((s.readLines 1 (Text.lines first)).onLine 0 ++ ·) (onLine_readLines ..)

end Source

end Pattern

end Needle
