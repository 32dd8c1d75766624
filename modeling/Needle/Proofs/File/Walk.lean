import Needle.File.Walk
import Needle.Proofs.File.Write

/-!
# Walks from a file

A walk that starts at a file yields the file, and nothing else. If the start is a link to a file, it
yields the file where links are followed, and the link where they are not.
-/
set_option autoImplicit false

namespace Needle.FileTree

def IsLink (t : FileTree) (p : Path) : Prop := ∃ l target, t.find .itself p = .ok (l, .link target)

variable {t : FileTree} {p : Path} {l : Location} {content : Bytes} {o : WalkOptions}

theorem inspect_of_find {purpose : Purpose} {e : Entry} (plain : p.hasNul = false)
    (found : t.find purpose p = .ok (l, e)) : t.inspect purpose p = .ok (l, e) := by
  have asked : p.ask (t.find purpose p) = .ok (l, e) := ask_eq_ok_iff.mpr ⟨plain, found⟩
  unfold inspect
  rw [asked]
  rfl

theorem find_of_openObject {e : Entry} (opened : t.openObject p = .ok e) :
    p.hasNul = false ∧ ∃ l, t.find .target p = .ok (l, e) := by
  obtain ⟨plain, seen⟩ := ask_eq_ok_iff.mp opened
  exact ⟨plain, find_of_stat seen⟩

/-- A path that leads to something is its name, or names a link. -/
theorem itself_or_link {e : Entry} (found : t.find .target p = .ok (l, e)) :
    t.find .itself p = .ok (l, e) ∨ t.IsLink p := by
  obtain ⟨accepted, leads⟩ := locate_eq_ok_iff.mp (find_eq_ok_iff.mp found)
  rcases leads.itself_or_link (by decide) with same | ⟨other, target, link⟩
  · exact Or.inl (find_eq_ok_iff.mpr (locate_eq_ok_iff.mpr ⟨accepted, same⟩))
  · exact Or.inr ⟨other, target, find_eq_ok_iff.mpr (locate_eq_ok_iff.mpr ⟨accepted, link⟩)⟩

theorem walkFrom_file (plain : p.hasNul = false)
    (found : t.find .itself p = .ok (l, .file content)) :
    t.walkFrom o p = [.visited p (.file (t.size? p))] := by
  unfold walkFrom
  rw [inspect_of_find plain found]
  rfl

theorem walkFrom_link (plain : p.hasNul = false) (link : t.IsLink p)
    (found : t.find .target p = .ok (l, .file content)) :
    t.walkFrom o p = [.visited p (if o.followLinks then .file (t.size? p) else .link)] := by
  obtain ⟨here, target, named⟩ := link
  have goal := inspect_of_find plain found
  unfold walkFrom
  rw [inspect_of_find plain named]
  unfold meet linkedDirectory
  dsimp only
  rw [goal]
  cases o.followLinks with
  | true => rfl
  | false => rfl

theorem walkFrom_opened (opened : t.openObject p = .ok (.file content)) :
    (o.followLinks = true ∨ ¬ t.IsLink p → t.walkFrom o p = [.visited p (.file (t.size? p))]) ∧
      (o.followLinks = false ∧ t.IsLink p → t.walkFrom o p = [.visited p .link]) := by
  obtain ⟨plain, l, found⟩ := find_of_openObject opened
  constructor
  · intro seen
    rcases itself_or_link found with same | link
    · exact walkFrom_file plain same
    · rw [walkFrom_link plain link found, if_pos (seen.resolve_right fun unlinked => unlinked link)]
  · rintro ⟨passed, link⟩
    rw [walkFrom_link plain link found, if_neg (by simp [passed])]

end Needle.FileTree
