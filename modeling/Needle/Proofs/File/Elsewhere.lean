import Needle.Proofs.File.Write

/-!
# Reading what was not written

A file that is written stands in the way of no walk: where it stands there was a file before, or
nothing. So a path that leads to another location leads there still, and what it leads to is the
same.
-/
set_option autoImplicit false

namespace Needle

def Place.location : Place → Location
  | .object l _ => l
  | .free l => l

namespace FileTree

def Apart (t : FileTree) (p other : Path) : Prop :=
  ∀ l e, t.writeTarget p = .ok l → t.find .target other ≠ .ok (l, e)

/-- What leads elsewhere is not led astray by a file that is put where no directory or link was. -/
theorem Leads.elsewhere {t : FileTree} {purpose : Purpose} {links : Nat} {here l : Location}
    {todo : List Name} {place : Place} (leads : Leads t purpose links here todo place)
    (apart : place.location ≠ l)
    (plain : ∀ e, t.entry? l = some e → ∃ content, e = .file content) (content : Bytes) :
    Leads (t.put l (.file content)) purpose links here todo place := by
  induction leads with
  | here => exact .here
  | idle named _ ih => exact .idle named (ih apart)
  | up named above _ ih => exact .up named above (ih apart)
  | free looked absent => exact .free looked ((entry?_put_of_ne t apart _).trans absent)
  | down looked found _ ih =>
      exact .down looked (entry?_put_kept plain found (by simp) content) (ih apart)
  | file looked found => exact .file looked ((entry?_put_of_ne t apart _).trans found)
  | itself looked found last =>
      exact .itself looked (entry?_put_kept plain found (by simp) content) last
  | follow looked found followed leads _ ih =>
      exact .follow looked (entry?_put_kept plain found (by simp) content) followed leads (ih apart)

variable {t written : FileTree} {p other : Path} {content : Bytes} {e : Entry}

theorem stat_elsewhere (wrote : t.write p content = .ok written) (apart : t.Apart p other)
    (found : t.stat other = .ok e) : written.stat other = .ok e := by
  obtain ⟨l, target, rfl⟩ := write_eq_ok_iff.mp wrote
  obtain ⟨place, located, takes⟩ := writeTarget_eq_ok_iff.mp target
  have plain := (locate_eq_ok_iff.mp located).2.plain_of_takes takes
  obtain ⟨there, seen⟩ := find_of_stat found
  have elsewhere : there ≠ l := by
    rintro rfl
    exact apart there e target seen
  have still : (t.put l (.file content)).find .target other = .ok (there, e) := by
    rw [find_eq_ok_iff, locate_eq_ok_iff] at seen ⊢
    rw [current_put]
    exact ⟨seen.1, seen.2.elsewhere elsewhere plain content⟩
  unfold stat
  rw [still]
  rfl

theorem openObject_elsewhere (wrote : t.writeFile p content = .ok written)
    (apart : t.Apart p other) (opened : t.openObject other = .ok e) :
    written.openObject other = .ok e := by
  obtain ⟨plain, found⟩ := ask_eq_ok_iff.mp opened
  have wrote := (writeFile_eq_ok_iff.mp wrote).2
  exact ask_eq_ok_iff.mpr ⟨plain, stat_elsewhere wrote apart found⟩

end FileTree

end Needle
