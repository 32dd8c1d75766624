import Mathlib.Data.List.Nodup
import Needle.Pattern.Source

/-!
# Names in rule texts

All patterns of a text are of the text's namespace, and of what the session holds already only that
namespace makes a difference to the text. No two patterns of a session have the same name.
-/
set_option autoImplicit false

namespace Needle

namespace Pattern

/-- By its name a pattern is known in a whole session. -/
def name (p : Pattern) : String × String := (p.ns, p.identifier)

namespace Source

variable {s : Source} {p : Progress}

/-- The text as it would be read in a session with nothing but patterns of its own namespace. -/
def alone (s : Source) : Source := { s with known := s.known.filter (·.ns = s.ns) }

theorem taken_alone (s : Source) (added : List Pattern) (identifier : String) :
    s.alone.taken added identifier = s.taken added identifier := by
  unfold taken alone
  rw [List.any_append, List.any_append, List.any_filter]
  congr 2
  funext p
  by_cases own : p.ns = s.ns
  · simp [own]
  · simp [own]

theorem readLine_alone (s : Source) (p : Progress) (line : Nat) (words : List (List Char)) :
    s.alone.readLine p line words = s.readLine p line words := by
  unfold readLine
  split
  · rfl
  · rfl
  · rfl
  · rw [taken_alone]
    rfl

theorem read_alone (s : Source) (text : List Char) : s.alone.read text = s.read text := by
  unfold read
  congr 1
  funext p numbered
  exact s.readLine_alone p _ _

theorem readLine_added (s : Source) (p : Progress) (line : Nat) (words : List (List Char)) :
    (s.readLine p line words).added = p.added ∨
      ∃ new, (s.readLine p line words).added = p.added ++ [new] ∧ new.ns = s.ns ∧
        new.name ∉ (s.known ++ p.added).map name := by
  unfold readLine
  split
  case h_1 => exact .inl rfl
  case h_2 => exact .inl rfl
  case h_3 => exact .inl rfl
  case h_4 identifier literal rest _ =>
    split
    case isTrue => exact .inl rfl
    case isFalse free =>
      unfold readPattern
      dsimp only
      split
      case isFalse => exact .inl rfl
      case isTrue =>
        refine .inr ⟨_, rfl, rfl, ?_⟩
        intro used
        obtain ⟨older, member, same⟩ := List.mem_map.mp used
        obtain ⟨ns, identifier⟩ := Prod.mk.inj same
        refine free (List.any_eq_true.mpr ⟨older, member, ?_⟩)
        simp [ns, identifier]

theorem read_induction (s : Source) (text : List Char) {motive : List Pattern → Prop}
    (nothing : motive []) (more : ∀ added new, motive added → new.ns = s.ns →
      new.name ∉ (s.known ++ added).map name → motive (added ++ [new])) :
    motive (s.read text).added := by
  unfold read
  generalize (Text.lines text).zipIdx = lines
  suffices every : ∀ p : Progress, motive p.added →
      motive (lines.foldl (fun p numbered =>
        s.readLine p (numbered.2 + 1) (Text.words numbered.1)) p).added from
    every {} nothing
  induction lines with
  | nil => exact fun p before => before
  | cons numbered rest ih =>
      intro p before
      apply ih
      rcases s.readLine_added p (numbered.2 + 1) (Text.words numbered.1) with same | grown
      · rw [same]
        exact before
      · obtain ⟨new, grown, own, free⟩ := grown
        rw [grown]
        exact more p.added new before own free

theorem read_ns (s : Source) (text : List Char) : ∀ p ∈ (s.read text).added, p.ns = s.ns := by
  refine s.read_induction text (motive := fun added => ∀ p ∈ added, p.ns = s.ns) (by simp) ?_
  intro added new before own _ p member
  rcases List.mem_append.mp member with older | newest
  · exact before p older
  · rw [List.mem_singleton.mp newest, own]

theorem read_names (s : Source) (text : List Char) (apart : (s.known.map name).Nodup) :
    ((s.known ++ (s.read text).added).map name).Nodup := by
  refine s.read_induction text (motive := fun added => ((s.known ++ added).map name).Nodup)
    (by simpa using apart) ?_
  intro added new before _ free
  rw [← List.append_assoc, List.map_append, List.map_singleton, List.nodup_append]
  refine ⟨before, List.nodup_singleton _, ?_⟩
  intro older member newest single same
  exact free (List.mem_singleton.mp single ▸ same ▸ member)

end Source

end Pattern

end Needle
