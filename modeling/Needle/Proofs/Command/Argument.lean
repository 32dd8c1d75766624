import Mathlib.Data.List.Basic
import Needle.Command.Request
import Needle.Proofs.File.Path
import Needle.Proofs.Text.Words

/-!
# Arguments that name a namespace

An argument is cut at its first colon, if something stands on either side of it and what stands
before it is no drive; else the whole of it is a path. Either way nothing of it is lost. A namespace
that has no colon and is longer than a drive comes back with its path.
-/
set_option autoImplicit false

namespace Needle

theorem Text.utf8ByteSize_eq_one_iff (chars : List Char) :
    (String.ofList chars).utf8ByteSize = 1 ↔ ∃ c, chars = [c] ∧ c.toNat < 0x80 := by
  have ascii (c : Char) : c.utf8Size = 1 ↔ c.toNat < 0x80 := by
    rw [Char.utf8Size_eq_one_iff, UInt32.le_iff_toNat_le]
    exact Nat.lt_succ_iff.symm
  cases chars with
  | nil => exact iff_of_false (by decide) nofun
  | cons c rest =>
      rw [String.ofList_cons, String.utf8ByteSize_append, String.utf8ByteSize_singleton]
      have first := c.utf8Size_pos
      constructor
      · intro one
        obtain rfl : rest = [] := by
          rw [← String.ofList_eq_empty_iff, ← String.utf8ByteSize_eq_zero_iff]
          omega
        exact ⟨c, rfl, (ascii c).mp one⟩
      · rintro ⟨d, same, small⟩
        obtain ⟨rfl, rfl⟩ := List.cons.inj same
        exact (ascii c).mpr small

theorem Path.ofText_injective {first second : String} (same : ofText first = ofText second) :
    first = second :=
  Utf8.encode_injective (congrArg Path.bytes same)

namespace RuleSource

/-- An argument of one byte, a colon and a slash or backslash, whatever follows. -/
def NamesDrive (argument : String) : Prop :=
  ∃ drive rest : String, drive.utf8ByteSize = 1 ∧
    (argument = drive ++ ":/" ++ rest ∨ argument = drive ++ ":\\" ++ rest)

/-- A namespace and a path around the first colon of an argument. -/
structure Parts (argument ns path : String) : Prop where
  whole : ns ++ ":" ++ path = argument
  first : ':' ∉ ns.toList
  named : ns ≠ ""
  filled : path ≠ ""

def Qualified (argument : String) : Prop :=
  (∃ ns path, Parts argument ns path) ∧ ¬NamesDrive argument

theorem isDrive_iff (before after : List Char) :
    isDrive before after = true ↔ (String.ofList before).utf8ByteSize = 1 ∧
      ∃ rest, after = '/' :: rest ∨ after = '\\' :: rest := by
  rw [Text.utf8ByteSize_eq_one_iff]
  unfold isDrive
  split
  case h_1 c first rest =>
    simp only [Bool.and_eq_true, decide_eq_true_eq, Bool.or_eq_true, beq_iff_eq]
    constructor
    · rintro ⟨ascii, slash⟩
      refine ⟨⟨c, rfl, ascii⟩, rest, ?_⟩
      rcases slash with rfl | rfl
      · exact .inl rfl
      · exact .inr rfl
    · rintro ⟨⟨d, same, ascii⟩, more, slash⟩
      obtain ⟨rfl, -⟩ := List.cons.inj same
      exact ⟨ascii, slash.imp (fun own => (List.cons.inj own).1) fun own => (List.cons.inj own).1⟩
  case h_2 before after none =>
    refine iff_of_false nofun ?_
    rintro ⟨⟨c, rfl, -⟩, rest, slash⟩
    rcases slash with rfl | rfl
    · exact none c '/' rest rfl rfl
    · exact none c '\\' rest rfl rfl

variable {argument ns path : String}

theorem Parts.toList (parts : Parts argument ns path) :
    argument.toList = ns.toList ++ ':' :: path.toList := by
  rw [← parts.whole, String.toList_append, String.toList_append, List.append_assoc]
  rfl

theorem Parts.cutAt_eq (parts : Parts argument ns path) :
    Text.cutAt ':' argument.toList = some (ns.toList, path.toList) := by
  rw [parts.toList, Text.cutAt_append parts.first]

theorem Parts.namesDrive_iff (parts : Parts argument ns path) :
    NamesDrive argument ↔ isDrive ns.toList path.toList = true := by
  rw [isDrive_iff, String.ofList_toList]
  constructor
  · rintro ⟨drive, rest, one, spelled⟩
    obtain ⟨c, letter, -⟩ := (Text.utf8ByteSize_eq_one_iff drive.toList).mp
      (by rwa [String.ofList_toList])
    obtain ⟨slash, either, cut⟩ : ∃ slash, (slash = '/' ∨ slash = '\\') ∧
        argument.toList = c :: ':' :: slash :: rest.toList := by
      rcases spelled with rfl | rfl
      · exact ⟨'/', .inl rfl, by simp [letter]⟩
      · exact ⟨'\\', .inr rfl, by simp [letter]⟩
    by_cases colon : c = ':'
    · -- the first colon is the first character, and no namespace stands before it
      subst colon
      have nothing : ns.toList = [] := by
        have found := parts.cutAt_eq
        rw [cut] at found
        exact (Prod.mk.inj (Option.some.inj found)).1.symm
      exact absurd (String.toList_eq_nil_iff.mp nothing) parts.named
    · have found := parts.cutAt_eq
      rw [cut, show c :: ':' :: slash :: rest.toList = [c] ++ ':' :: (slash :: rest.toList) from rfl,
        Text.cutAt_append (by simpa using Ne.symm colon)] at found
      obtain ⟨before, after⟩ := Prod.mk.inj (Option.some.inj found)
      obtain rfl : drive = ns := String.toList_inj.mp (letter.trans before)
      refine ⟨one, rest.toList, ?_⟩
      rw [← after]
      rcases either with rfl | rfl
      · exact .inl rfl
      · exact .inr rfl
  · rintro ⟨one, rest, slash⟩
    refine ⟨ns, String.ofList rest, one, ?_⟩
    rw [← String.toList_inj, ← String.toList_inj, parts.toList]
    rcases slash with own | own
    · exact .inl (by simp [own])
    · exact .inr (by simp [own])

theorem ofArgument_of_whole (defaultNs : String) (some : argument ≠ "")
    (whole : ¬∃ ns path, Parts argument ns path) :
    ofArgument argument defaultNs = .ok ⟨defaultNs, .ofText argument⟩ := by
  unfold ofArgument
  rw [if_neg (mt String.isEmpty_iff.mp some)]
  cases cut : Text.cutAt ':' argument.toList with
  | none => rfl
  | some parts =>
      obtain ⟨before, after⟩ := parts
      obtain ⟨spelled, first⟩ := Text.cutAt_eq_some_iff.mp cut
      refine if_pos ?_
      by_contra kept
      simp only [Bool.or_eq_true, List.isEmpty_iff, not_or] at kept
      refine whole ⟨String.ofList before, String.ofList after, ?_, by simpa using first,
        by simpa using kept.1.1, by simpa using kept.1.2⟩
      rw [← String.toList_inj, spelled]
      simp

theorem Parts.ofArgument_eq (parts : Parts argument ns path) (defaultNs : String) :
    ofArgument argument defaultNs =
      if isDrive ns.toList path.toList then .ok ⟨defaultNs, .ofText argument⟩
      else .ok ⟨ns, .ofText path⟩ := by
  have some : argument ≠ "" := by
    rintro rfl
    have none := parts.toList
    simp at none
  have first : ns.toList ≠ [] := mt String.toList_eq_nil_iff.mp parts.named
  have second : path.toList ≠ [] := mt String.toList_eq_nil_iff.mp parts.filled
  unfold ofArgument
  rw [if_neg (mt String.isEmpty_iff.mp some), parts.cutAt_eq]
  simp [first, second]

theorem ofArgument_cases (defaultNs : String) (some : argument ≠ "") :
    (¬Qualified argument ∧ ofArgument argument defaultNs = .ok ⟨defaultNs, .ofText argument⟩) ∨
      (Qualified argument ∧ ∃ ns path, Parts argument ns path ∧
        ofArgument argument defaultNs = .ok ⟨ns, .ofText path⟩) := by
  by_cases whole : ∃ ns path, Parts argument ns path
  · obtain ⟨ns, path, parts⟩ := whole
    have drive := parts.namesDrive_iff
    have gives := parts.ofArgument_eq defaultNs
    by_cases is : isDrive ns.toList path.toList = true
    · rw [if_pos is] at gives
      exact .inl ⟨fun qualified => qualified.2 (drive.mpr is), gives⟩
    · rw [if_neg is] at gives
      exact .inr ⟨⟨⟨ns, path, parts⟩, mt drive.mp is⟩, ns, path, parts, gives⟩
  · exact .inl ⟨fun qualified => whole qualified.1, ofArgument_of_whole defaultNs some whole⟩

/-- No argument is lost: it is a path in the default namespace, or the namespace and the path at its
first colon, which are not mistaken for each other. A namespace that cannot be a drive comes back
with its path, colons and all. -/
theorem ofArgument_split (argument defaultNs : String) (some : argument ≠ "") :
    ((ofArgument argument defaultNs = .ok ⟨defaultNs, .ofText argument⟩ ↔ ¬Qualified argument) ∧
      ((∃ ns path, Parts argument ns path ∧
        ofArgument argument defaultNs = .ok ⟨ns, .ofText path⟩) ↔ Qualified argument)) ∧
    ∀ ns path : String, 2 ≤ ns.utf8ByteSize → ':' ∉ ns.toList → path ≠ "" →
      ofArgument (ns ++ ":" ++ path) defaultNs = .ok ⟨ns, .ofText path⟩ := by
  have apart {ns path : String} (parts : Parts argument ns path)
      (same : (⟨ns, .ofText path⟩ : RuleSource) = ⟨defaultNs, .ofText argument⟩) : False := by
    have text : path = argument := Path.ofText_injective (congrArg RuleSource.path same)
    have longer := congrArg List.length parts.toList
    rw [text, List.length_append, List.length_cons] at longer
    omega
  refine ⟨?_, ?_⟩
  · rcases ofArgument_cases defaultNs some with ⟨plain, gives⟩ | ⟨qualified, ns, path, parts, gives⟩
    · refine ⟨iff_of_true gives plain, iff_of_false ?_ plain⟩
      rintro ⟨ns, path, parts, other⟩
      exact apart parts (Except.ok.inj (other.symm.trans gives))
    · refine ⟨iff_of_false ?_ (not_not_intro qualified), iff_of_true ⟨ns, path, parts, gives⟩ qualified⟩
      exact fun other => apart parts (Except.ok.inj (gives.symm.trans other))
  · intro ns path long first filled
    have named : ns ≠ "" := by
      rintro rfl
      simp at long
    have parts : Parts (ns ++ ":" ++ path) ns path := ⟨rfl, first, named, filled⟩
    have noDrive : ¬isDrive ns.toList path.toList = true := by
      rw [isDrive_iff, String.ofList_toList]
      omega
    rw [parts.ofArgument_eq, if_neg noDrive]

/-- A drive is a path, and so is a text that is nothing on one side of its first colon. -/
theorem ofArgument_split_of_a_drive :
    ofArgument "c:/a:b" "default" = .ok ⟨"default", .ofText "c:/a:b"⟩ ∧
      ofArgument "ab:c:/d" "default" = .ok ⟨"ab", .ofText "c:/d"⟩ := by
  obtain ⟨⟨whole, -⟩, cut⟩ := ofArgument_split "c:/a:b" "default" (by decide)
  exact ⟨whole.mpr fun qualified => qualified.2 ⟨"c", "a:b", by decide, .inl (by decide)⟩,
    cut "ab" "c:/d" (by decide) (by decide) (by decide)⟩

end RuleSource

end Needle
