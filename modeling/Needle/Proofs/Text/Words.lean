import Mathlib.Data.List.DropRight
import Mathlib.Data.List.TakeDrop
import Needle.Text.Blank

/-!
# Words and lines of a text

A text with a cut in it is split into the pieces of the part before and those of the part after. So
the words of a text are found from the left: blanks are passed over, and what then stands up to the
next blank is a word. A trimmed text begins with its first word.
-/
set_option autoImplicit false

namespace Needle.Text

/-- A run of characters without blanks. -/
def Solid (word : List Char) : Prop := ∀ c ∈ word, isBlank c = false

-- not by search, which might go through all characters
instance (word : List Char) : Decidable (Solid word) :=
  List.decidableBAll (fun c => isBlank c = false) word

def trim (text : List Char) : List Char := (text.dropWhile isBlank).rdropWhile isBlank

section Split

variable {cut : Char → Bool}

theorem split_eq_splitOnP (cut : Char → Bool) (text : List Char) :
    split cut text = text.splitOnP cut := by
  induction text with
  | nil => exact List.splitOnP_nil.symm
  | cons c rest ih =>
      have step : split cut (c :: rest) = splitStep cut c (rest.splitOnP cut) :=
        congrArg (splitStep cut c) ih
      rw [step, List.splitOnP_cons_eq_if_modifyHead]
      cases pieces : rest.splitOnP cut with
      | nil => exact absurd pieces (List.splitOnP_ne_nil cut rest)
      | cons piece more => rfl

theorem split_append_cut (first : List Char) {c : Char} (cuts : cut c = true)
    (second : List Char) : split cut (first ++ c :: second) = split cut first ++ split cut second := by
  simp only [split_eq_splitOnP]
  exact List.splitOnP_append_cons first second cuts

theorem split_of_uncut {text : List Char} (uncut : ∀ c ∈ text, cut c = false) :
    split cut text = [text] := by
  rw [split_eq_splitOnP]
  exact List.splitOnP_eq_singleton uncut

end Split

section Words

variable {word text : List Char} {b : Char}

theorem words_nil : words [] = [] := rfl

theorem words_append_blank (first : List Char) (blank : isBlank b = true) (second : List Char) :
    words (first ++ b :: second) = words first ++ words second := by
  unfold words
  rw [split_append_cut first blank, List.filter_append]

theorem words_of_solid (some : word ≠ []) (solid : Solid word) : words word = [word] := by
  unfold words
  rw [split_of_uncut solid]
  simpa using some

theorem words_cons_blank (blank : isBlank b = true) (text : List Char) :
    words (b :: text) = words text :=
  words_append_blank [] blank text

theorem words_dropWhile (text : List Char) : words (text.dropWhile isBlank) = words text := by
  induction text with
  | nil => rfl
  | cons c rest ih =>
      by_cases blank : isBlank c = true
      · rw [List.dropWhile_cons_of_pos blank, words_cons_blank blank, ih]
      · rw [List.dropWhile_cons_of_neg blank]

/-- A word, and then nothing or a blank. -/
theorem words_word (some : word ≠ []) (solid : Solid word)
    (ends : ∀ c rest, text = c :: rest → isBlank c = true) :
    words (word ++ text) = word :: words text := by
  cases text with
  | nil => rw [List.append_nil, words_of_solid some solid, words_nil]
  | cons c rest =>
      have blank := ends c rest rfl
      rw [words_append_blank word blank, words_of_solid some solid, words_cons_blank blank]
      rfl

/-- Words that are joined by spaces are found again. -/
theorem words_intercalate {pieces : List (List Char)}
    (sound : ∀ word ∈ pieces, word ≠ [] ∧ Solid word) : words ([' '].intercalate pieces) = pieces := by
  induction pieces with
  | nil => rfl
  | cons word rest ih =>
      obtain ⟨⟨some, solid⟩, others⟩ := List.forall_mem_cons.mp sound
      cases rest with
      | nil => rw [List.intercalate_singleton, words_of_solid some solid]
      | cons next more =>
          rw [List.intercalate_cons_cons, List.append_assoc, List.singleton_append,
            words_append_blank word (by decide), words_of_solid some solid, ih others]
          rfl

theorem words_of_head (head : isBlank b = false) (rest : List Char) :
    ∃ more, words (b :: rest) = (b :: rest).takeWhile (!isBlank ·) :: more := by
  let first := (b :: rest).takeWhile (!isBlank ·)
  let after := (b :: rest).dropWhile (!isBlank ·)
  have some : first ≠ [] := by simp [first, head]
  have solid : Solid first := fun c member => by simpa using List.mem_takeWhile_imp member
  have ends : ∀ c more, after = c :: more → isBlank c = true := by
    intro c more split
    have stop := List.head_dropWhile_not (p := (!isBlank ·)) (l := b :: rest)
      (show after ≠ [] by rw [split]; exact List.cons_ne_nil c more)
    simpa [after, split] using stop
  exact ⟨words after, by
    rw [← words_word some solid ends]
    exact congrArg words List.takeWhile_append_dropWhile.symm⟩

/-- A text has no words, or it begins with its first word once the blanks before that are gone. -/
theorem blank_or_word (text : List Char) :
    (text.dropWhile isBlank = [] ∧ words text = []) ∨
      ∃ c rest more, text.dropWhile isBlank = c :: rest ∧ isBlank c = false ∧
        words text = (c :: rest).takeWhile (!isBlank ·) :: more := by
  rw [← words_dropWhile text]
  cases start : text.dropWhile isBlank with
  | nil => exact .inl ⟨rfl, rfl⟩
  | cons c rest =>
      have head := List.head_dropWhile_not (p := isBlank) (l := text)
        (by rw [start]; exact List.cons_ne_nil c rest)
      simp only [start, List.head_cons] at head
      obtain ⟨more, found⟩ := words_of_head head rest
      exact .inr ⟨c, rest, more, rfl, head, found⟩

end Words

section Trim

variable {s text : List Char}

theorem prefix_rdropWhile_iff (solid : Solid s) :
    s <+: text.rdropWhile isBlank ↔ s <+: text := by
  refine ⟨fun starts => starts.trans (List.rdropWhile_prefix isBlank _), fun starts => ?_⟩
  induction text using List.reverseRecOn with
  | nil => exact starts
  | append_singleton before last ih =>
      rw [List.rdropWhile_concat]
      split
      case isFalse => exact starts
      case isTrue blank =>
        rcases List.prefix_concat_iff.mp starts with whole | within
        · have member : last ∈ s := whole ▸ List.mem_append_right before List.mem_cons_self
          exact absurd blank (by simp [solid last member])
        · exact ih within

theorem prefix_takeWhile_iff (solid : Solid s) :
    s <+: text.takeWhile (!isBlank ·) ↔ s <+: text := by
  refine ⟨fun starts => starts.trans (List.takeWhile_prefix _), ?_⟩
  rintro ⟨rest, rfl⟩
  rw [List.takeWhile_append_of_pos fun c member => by simp [solid c member]]
  exact List.prefix_append ..

/-- Only a text without words is empty once it is trimmed. -/
theorem trim_eq_nil_iff (text : List Char) : trim text = [] ↔ words text = [] := by
  rw [trim, List.rdropWhile_eq_nil_iff]
  rcases blank_or_word text with ⟨gone, none⟩ | ⟨c, rest, more, start, head, found⟩
  · rw [gone, none]
    exact iff_of_true (fun c member => absurd member List.not_mem_nil) rfl
  · rw [start, found]
    refine iff_of_false (fun blank => ?_) (List.cons_ne_nil _ more)
    exact Bool.false_ne_true (head.symm.trans (blank c List.mem_cons_self))

theorem prefix_trim_iff (some : s ≠ []) (solid : Solid s) (text : List Char) :
    s <+: trim text ↔ ∃ word more, words text = word :: more ∧ s <+: word := by
  rw [trim, prefix_rdropWhile_iff solid]
  rcases blank_or_word text with ⟨gone, none⟩ | ⟨c, rest, more, start, _, found⟩
  · rw [gone, none, List.prefix_nil]
    refine iff_of_false some ?_
    rintro ⟨word, more, split, _⟩
    exact List.cons_ne_nil word more split.symm
  · rw [start, found, ← prefix_takeWhile_iff solid]
    constructor
    · exact fun starts => ⟨_, more, rfl, starts⟩
    · rintro ⟨word, rest, split, starts⟩
      rwa [(List.cons.inj split).1]

end Trim

section Cut

variable {c : Char} {text : List Char}

theorem cutAt_append {before : List Char} (free : c ∉ before) (after : List Char) :
    cutAt c (before ++ c :: after) = some (before, after) := by
  have apart : ∀ d ∈ before, (d != c) = true := by
    intro d member
    simpa using ne_of_mem_of_not_mem member free
  unfold cutAt
  rw [List.span_eq_takeWhile_dropWhile, List.takeWhile_append_of_pos apart,
    List.dropWhile_append_of_pos apart]
  simp

theorem cutAt_eq_none_iff : cutAt c text = none ↔ c ∉ text := by
  constructor
  · intro uncut member
    obtain ⟨before, after, rfl, free⟩ := List.eq_append_cons_of_mem member
    rw [cutAt_append free] at uncut
    contradiction
  · intro free
    have apart : text.dropWhile (· != c) = [] := by
      rw [List.dropWhile_eq_nil_iff]
      intro d member
      simpa using ne_of_mem_of_not_mem member free
    unfold cutAt
    rw [List.span_eq_takeWhile_dropWhile, apart]

/-- A text is cut into the parts around the first occurrence. -/
theorem cutAt_eq_some_iff {before after : List Char} :
    cutAt c text = some (before, after) ↔ text = before ++ c :: after ∧ c ∉ before := by
  constructor
  · intro cut
    have member : c ∈ text := by
      by_contra free
      rw [cutAt_eq_none_iff.mpr free] at cut
      contradiction
    obtain ⟨first, second, rfl, free⟩ := List.eq_append_cons_of_mem member
    rw [cutAt_append free] at cut
    obtain ⟨rfl, rfl⟩ := Prod.mk.inj (Option.some.inj cut)
    exact ⟨rfl, free⟩
  · rintro ⟨rfl, free⟩
    exact cutAt_append free after

end Cut

theorem mem_intercalate {c : Char} {separator : List Char} {pieces : List (List Char)}
    (member : c ∈ separator.intercalate pieces) : c ∈ separator ∨ ∃ piece ∈ pieces, c ∈ piece := by
  induction pieces with
  | nil => contradiction
  | cons piece rest ih =>
      cases rest with
      | nil => exact .inr ⟨piece, List.mem_cons_self, by rwa [List.intercalate_singleton] at member⟩
      | cons next more =>
          rw [List.intercalate_cons_cons, List.mem_append, List.mem_append] at member
          rcases member with (first | between) | later
          · exact .inr ⟨piece, List.mem_cons_self, first⟩
          · exact .inl between
          · refine (ih later).imp_right ?_
            rintro ⟨other, old, inside⟩
            exact ⟨other, List.mem_cons_of_mem _ old, inside⟩

section Lines

/-- The lines of a text, where a line feed at the end ends a line and begins none. -/
def closedLines (text : List Char) : List (List Char) :=
  if (lines text).getLast? = some [] then (lines text).dropLast else lines text

theorem lines_append_feed (first second : List Char) :
    lines (first ++ '\n' :: second) = lines first ++ lines second :=
  split_append_cut first rfl second

theorem lines_intercalate {pieces : List (List Char)} (some : pieces ≠ [])
    (uncut : ∀ line ∈ pieces, '\n' ∉ line) : lines (['\n'].intercalate pieces) = pieces := by
  unfold lines
  rw [split_eq_splitOnP]
  exact List.splitOn_intercalate '\n' uncut some

theorem lines_eq (text : List Char) :
    lines text = closedLines text ∨ lines text = closedLines text ++ [[]] := by
  unfold closedLines
  split
  case isTrue empty => exact .inr (List.dropLast_append_getLast? [] empty).symm
  case isFalse => exact .inl rfl

end Lines

end Needle.Text
