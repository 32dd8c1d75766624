import Mathlib.Data.List.Nodup
import Mathlib.Data.List.TakeDrop
import Mathlib.Data.List.TakeWhile
import Needle.Command.Line
import Needle.Proofs.Utf8

/-!
# The words of a command line

What may stand on a command line, and what it gives. A word is a positional argument, a switch with
two dashes, or the letters of switches behind one dash; a switch that takes a value has it after
`=`, in the rest of the word, or in the next word, unless that looks like a switch. Behind `--` all
words are positional, and a word that names a verb begins the arguments of that verb. Every command
line that is accepted is made of such words.
-/
set_option autoImplicit false

namespace Needle

structure Giving where
  key : Key
  value : Option Bytes
deriving DecidableEq

inductive Line where
  | last (verb : Verb) (givings : List Giving)
  | before (verb : Verb) (givings : List Giving) (inner : Line)
deriving DecidableEq

namespace Line

def add (givings : List Giving) : Line → Line
  | last v later => last v (givings ++ later)
  | before v later inner => before v (givings ++ later) inner

/-- A word that does not look like a switch. -/
def Loose (word : Bytes) : Prop := word.head? = some Shape.dash → word = [Shape.dash]

instance (word : Bytes) : Decidable (Loose word) :=
  inferInstanceAs (Decidable (word.head? = some Shape.dash → word = [Shape.dash]))

def IsLetter (letter : UInt8) (sw : Switch) : Prop :=
  ∃ c, sw.short = some c ∧ c.toNat = letter.toNat

/-- Letters behind one dash, what they give, and the key whose value the next word has to be. -/
inductive Letters (v : Verb) : Bytes → List Giving → Option Key → Prop
  | none : Letters v [] [] none
  | flag {sw : Switch} {letter : UInt8} {rest : Bytes} {givings : List Giving}
      {awaited : Option Key} (own : sw ∈ v.switches) (named : IsLetter letter sw)
      (stands : sw.takesValue = false) (more : Letters v rest givings awaited) :
      Letters v (letter :: rest) (⟨sw.key, .none⟩ :: givings) awaited
  | awaits {sw : Switch} {letter : UInt8} (own : sw ∈ v.switches) (named : IsLetter letter sw)
      (takes : sw.takesValue = true) : Letters v [letter] [] (some sw.key)
  | joined {sw : Switch} {letter first : UInt8} {value : Bytes} (own : sw ∈ v.switches)
      (named : IsLetter letter sw) (takes : sw.takesValue = true) (apart : first ≠ Shape.equals) :
      Letters v (letter :: first :: value) [⟨sw.key, some (first :: value)⟩] .none
  | assigned {sw : Switch} {letter : UInt8} {value : Bytes} (own : sw ∈ v.switches)
      (named : IsLetter letter sw) (takes : sw.takesValue = true) :
      Letters v (letter :: Shape.equals :: value) [⟨sw.key, some value⟩] .none

/-- A word, what it gives, and the key whose value the next word has to be. -/
inductive Word (v : Verb) : Bytes → List Giving → Option Key → Prop
  | positional {word : Bytes} {key : Key} (loose : Loose word) (takes : v.positional? = some key) :
      Word v word [⟨key, some word⟩] none
  | flag {sw : Switch} (own : sw ∈ v.switches) (stands : sw.takesValue = false) :
      Word v (Shape.dash :: Shape.dash :: Utf8.encode sw.long) [⟨sw.key, none⟩] none
  | awaits {sw : Switch} (own : sw ∈ v.switches) (takes : sw.takesValue = true) :
      Word v (Shape.dash :: Shape.dash :: Utf8.encode sw.long) [] (some sw.key)
  | assigned {sw : Switch} {value : Bytes} (own : sw ∈ v.switches) (takes : sw.takesValue = true) :
      Word v (Shape.dash :: Shape.dash :: (Utf8.encode sw.long ++ Shape.equals :: value))
        [⟨sw.key, some value⟩] none
  | letters {letter : UInt8} {rest : Bytes} {givings : List Giving} {awaited : Option Key}
      (spelled : Letters v (letter :: rest) givings awaited) :
      Word v (Shape.dash :: letter :: rest) givings awaited

/-- Some words as the arguments of a verb. -/
inductive Reads : Verb → List Bytes → Line → Prop
  | done {v : Verb} : Reads v [] (.last v [])
  | word {v : Verb} {word : Bytes} {givings : List Giving} {rest : List Bytes} {line : Line}
      (spelled : Word v word givings none) (more : Reads v rest line) :
      Reads v (word :: rest) (line.add givings)
  | pair {v : Verb} {word value : Bytes} {givings : List Giving} {key : Key} {rest : List Bytes}
      {line : Line} (spelled : Word v word givings (some key)) (loose : Loose value)
      (more : Reads v rest line) :
      Reads v (word :: value :: rest) (line.add (givings ++ [⟨key, some value⟩]))
  | divider {v : Verb} : Reads v [[Shape.dash, Shape.dash]] (.last v [])
  | literal {v : Verb} {key : Key} {rest : List Bytes} (takes : v.positional? = some key) :
      Reads v ([Shape.dash, Shape.dash] :: rest) (.last v (rest.map fun word => ⟨key, some word⟩))
  | verb {v inner : Verb} {name : String} {rest : List Bytes} {line : Line}
      (named : (name, inner) ∈ v.verbs) (more : Reads inner rest line) :
      Reads v (Utf8.encode name :: rest) (.before v [] line)

end Line

/-! ## Shapes -/

namespace Shape

variable {word name value rest : Bytes}

theorem split_of_free (free : equals ∉ name) : split name = (name, none) := by
  have apart : ∀ b ∈ name, (b != equals) = true := by
    intro b member
    simpa using ne_of_mem_of_not_mem member free
  unfold split
  rw [List.span_eq_takeWhile_dropWhile, List.takeWhile_eq_self_iff.mpr apart,
    List.dropWhile_eq_nil_iff.mpr apart]

theorem split_append (free : equals ∉ name) (value : Bytes) :
    split (name ++ equals :: value) = (name, some value) := by
  have apart : ∀ b ∈ name, (b != equals) = true := by
    intro b member
    simpa using ne_of_mem_of_not_mem member free
  unfold split
  rw [List.span_eq_takeWhile_dropWhile, List.takeWhile_append_of_pos apart,
    List.dropWhile_append_of_pos apart]
  simp

theorem ofWord_of_loose (loose : Line.Loose word) : ofWord word = .plain := by
  cases word with
  | nil => rfl
  | cons first rest =>
      cases rest with
      | nil => rfl
      | cons second more =>
          have apart : first ≠ dash := by
            rintro rfl
            exact List.cons_ne_nil second more (List.cons.inj (loose rfl)).2
          rw [ofWord, if_pos apart]

theorem ofWord_letters {letter : UInt8} (apart : letter ≠ dash) (rest : Bytes) :
    ofWord (dash :: letter :: rest) = .cluster (letter :: rest) := by
  rw [ofWord, if_neg (not_not_intro rfl), if_pos apart]

theorem ofWord_long (some : rest ≠ []) :
    ofWord (dash :: dash :: rest) = .long (split rest).1 (split rest).2 := by
  rw [ofWord, if_neg (not_not_intro rfl), if_neg (not_not_intro rfl),
    if_neg (mt List.isEmpty_iff.mp some)]

theorem ofWord_flag (some : name ≠ []) (free : equals ∉ name) :
    ofWord (dash :: dash :: name) = .long name none := by
  rw [ofWord_long some, split_of_free free]

theorem ofWord_assigned (free : equals ∉ name) (value : Bytes) :
    ofWord (dash :: dash :: (name ++ equals :: value)) = .long name (some value) := by
  rw [ofWord_long (by simp), split_append free]

/-- The shape of any word, by how it is spelled. -/
theorem ofWord_cases (word : Bytes) :
    (Line.Loose word ∧ ofWord word = .plain) ∨
      (word = [dash, dash] ∧ ofWord word = .divider) ∨
      (∃ letter rest, word = dash :: letter :: rest ∧ ofWord word = .cluster (letter :: rest)) ∨
      (∃ name, word = dash :: dash :: name ∧ ofWord word = .long name none) ∨
      ∃ name value, word = dash :: dash :: (name ++ equals :: value) ∧
        ofWord word = .long name (some value) := by
  by_cases loose : Line.Loose word
  · exact .inl ⟨loose, ofWord_of_loose loose⟩
  · obtain ⟨head, more⟩ := Classical.not_imp.mp loose
    obtain ⟨tail, rfl⟩ := List.head?_eq_some_iff.mp head
    cases tail with
    | nil => exact absurd rfl more
    | cons letter rest =>
        by_cases long : letter = dash
        · subst long
          by_cases empty : rest = []
          · subst empty
            exact .inr (.inl ⟨rfl, rfl⟩)
          · by_cases assigned : equals ∈ rest
            · obtain ⟨name, value, rfl, free⟩ := List.eq_append_cons_of_mem assigned
              exact .inr (.inr (.inr (.inr ⟨name, value, rfl, ofWord_assigned free value⟩)))
            · exact .inr (.inr (.inr (.inl ⟨rest, rfl, ofWord_flag empty assigned⟩)))
        · exact .inr (.inr (.inl ⟨letter, rest, rfl, ofWord_letters long rest⟩))

end Shape

/-! ## Switches and verbs of the grammar -/

theorem find?_of_unique {A : Type} {p : A → Bool} {a : A} {among : List A} (member : a ∈ among)
    (holds : p a = true) (unique : ∀ b ∈ among, p b = true → b = a) : among.find? p = some a := by
  obtain ⟨b, found⟩ := Option.isSome_iff_exists.mp (List.find?_isSome.mpr ⟨a, member, holds⟩)
  rw [found, unique b (List.mem_of_find?_eq_some found) (List.find?_some found)]

namespace Verb

open Line

variable {v : Verb} {sw : Switch} {letter : UInt8} {key : Key}

theorem find?_long (own : sw ∈ v.switches) :
    v.switches.find? (fun other => Utf8.encode other.long == Utf8.encode sw.long) = some sw := by
  have distinct : (v.switches.map Switch.long).Nodup := by
    cases v <;> decide
  refine find?_of_unique own (beq_self_eq_true _) fun other member same => ?_
  exact List.inj_on_of_nodup_map distinct member own (Utf8.encode_injective (beq_iff_eq.mp same))

theorem called_iff {letter : UInt8} {sw : Switch} :
    (sw.short.any fun c => c.toNat == letter.toNat) = true ↔ IsLetter letter sw := by
  unfold IsLetter
  cases sw.short with
  | none => simp
  | some c => simp

theorem switchOf_eq_some_iff :
    LineState.switchOf v letter = some sw ↔ sw ∈ v.switches ∧ IsLetter letter sw := by
  constructor
  · intro found
    unfold LineState.switchOf at found
    have called := List.find?_some found
    exact ⟨List.mem_of_find?_eq_some found, called_iff.mp called⟩
  · rintro ⟨own, c, short, same⟩
    have distinct : ((v.switches.filter (·.short.isSome)).map Switch.short).Nodup := by
      cases v <;> decide
    refine find?_of_unique own (called_iff.mpr ⟨c, short, same⟩) fun other member called => ?_
    obtain ⟨d, shorts, sames⟩ := called_iff.mp called
    obtain rfl : d = c := Char.toNat_inj.mp (sames.trans same.symm)
    exact List.inj_on_of_nodup_map distinct (List.mem_filter.mpr ⟨member, by rw [shorts]; rfl⟩)
      (List.mem_filter.mpr ⟨own, by rw [short]; rfl⟩) (shorts.trans short.symm)

/-- The names of switches can be told from values behind them. -/
theorem long_spelled (own : sw ∈ v.switches) :
    Utf8.encode sw.long ≠ [] ∧ Shape.equals ∉ Utf8.encode sw.long := by
  revert sw
  cases v <;> decide

theorem ne_dash_of_letter (own : sw ∈ v.switches) (named : IsLetter letter sw) :
    letter ≠ Shape.dash := by
  rintro rfl
  obtain ⟨c, short, same⟩ := named
  obtain rfl : c = '-' := Char.toNat_inj.mp same
  revert sw
  cases v <;> decide

theorem named?_eq_some_iff {inner : Verb} {word : Bytes} :
    v.named? word = some inner ↔ ∃ name, (name, inner) ∈ v.verbs ∧ Utf8.encode name = word := by
  unfold named?
  rw [Option.map_eq_some_iff]
  constructor
  · rintro ⟨⟨name, verb⟩, found, rfl⟩
    have same := List.find?_some found
    exact ⟨name, List.mem_of_find?_eq_some found, beq_iff_eq.mp same⟩
  · rintro ⟨name, member, rfl⟩
    have distinct : (v.verbs.map Prod.fst).Nodup := by
      cases v <;> decide
    refine ⟨(name, inner), ?_, rfl⟩
    refine find?_of_unique member (beq_self_eq_true _) fun other among same => ?_
    exact List.inj_on_of_nodup_map distinct among member
      (Utf8.encode_injective (beq_iff_eq.mp same))

theorem isVerbWord_of_named {inner : Verb} {name : String} (named : (name, inner) ∈ v.verbs) :
    LineState.isVerbWord v (Utf8.encode name) = true := by
  unfold LineState.isVerbWord
  rw [Bool.and_eq_true, Bool.or_eq_true, Bool.not_eq_true', List.isEmpty_eq_false_iff]
  exact ⟨List.ne_nil_of_mem named, .inr (List.any_eq_true.mpr ⟨_, named, beq_self_eq_true _⟩)⟩

theorem isVerbWord_dash (v : Verb) (rest : Bytes) :
    LineState.isVerbWord v (Shape.dash :: rest) = false := by
  have apart : ∀ name ∈ helpWord :: v.verbs.map Prod.fst,
      (Utf8.encode name).head? ≠ some Shape.dash := by
    cases v <;> decide
  have differs (name : String) (member : name ∈ helpWord :: v.verbs.map Prod.fst) :
      Utf8.encode name ≠ Shape.dash :: rest := by
    intro same
    have head := apart name member
    rw [same] at head
    exact head rfl
  unfold LineState.isVerbWord
  rw [Bool.and_eq_false_iff, Bool.or_eq_false_iff]
  refine .inr ⟨?_, ?_⟩
  · rw [beq_eq_false_iff_ne]
    exact (differs _ List.mem_cons_self).symm
  · rw [List.any_eq_false]
    intro pair member same
    exact differs _ (List.mem_cons_of_mem _ (List.mem_map_of_mem member)) (beq_iff_eq.mp same)

theorem isVerbWord_of_positional (takes : v.positional? = some key) (word : Bytes) :
    LineState.isVerbWord v word = false := by
  cases v with
  | compile => rfl
  | scan => rfl
  | check => rfl
  | _ => contradiction

theorem positional_cases (takes : v.positional? = some key) :
    key = .rules ∨ key = .targets := by
  revert key
  cases v <;> decide

def Valued (v : Verb) (key : Key) : Prop :=
  ∃ sw ∈ v.switches, sw.takesValue = true ∧ sw.key = key

theorem Valued.take_nil (valued : v.Valued key) (g : Given) :
    g.take [] key = .error .invalidValue := by
  obtain ⟨sw, own, takes, rfl⟩ := valued
  have known : sw.key ∈
      [Key.format, .config, .rules, .ns, .output, .compiled, .timeout, .tag] := by
    revert sw
    cases v <;> decide
  simp only [List.mem_cons, List.not_mem_nil, or_false] at known
  rcases known with same | same | same | same | same | same | same | same <;> rw [same] <;> rfl

theorem Valued.not_positional (valued : v.Valued key) : v.positional? ≠ some key := by
  obtain ⟨sw, own, -, rfl⟩ := valued
  revert sw
  cases v <;> decide

end Verb

theorem Line.Letters.ne_dash {v : Verb} {letter : UInt8} {rest : Bytes} {givings : List Giving}
    {awaited : Option Key} (spelled : Letters v (letter :: rest) givings awaited) :
    letter ≠ Shape.dash := by
  cases spelled with
  | flag own named _ _ => exact Verb.ne_dash_of_letter own named
  | awaits own named _ => exact Verb.ne_dash_of_letter own named
  | joined own named _ _ => exact Verb.ne_dash_of_letter own named
  | assigned own named _ => exact Verb.ne_dash_of_letter own named

end Needle
