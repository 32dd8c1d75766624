import Needle.Engine
import Needle.Proofs.Utf8

/-!
# Paths that are texts

A path that is the encoding of a text is shown as that text, so an engine that takes it as text
opens the file that it names. Temporary files in a directory with such a path have such paths too.
-/
set_option autoImplicit false

namespace Needle

theorem Utf8.encode_append (first second : String) :
    encode (first ++ second) = encode first ++ encode second := by
  rw [encode, String.toList_append, List.flatMap_append]
  rfl

namespace Path

theorem shownPath_ofText (text : String) : Engine.shownPath (ofText text) = ofText text := by
  have shown : (ofText text).display = text := Utf8.lossy_encode text
  rw [Engine.shownPath, shown]

theorem join_ofText (dir below : String) :
    ∃ text, (ofText dir).join (ofText below) = ofText text := by
  unfold join
  split
  · exact ⟨below, rfl⟩
  · split
    · refine ⟨dir ++ below, ?_⟩
      rw [ofText, ofText, ofText, Utf8.encode_append]
    · refine ⟨dir ++ "/" ++ below, ?_⟩
      rw [ofText, ofText, ofText, Utf8.encode_append, Utf8.encode_append, List.append_assoc]
      rfl

end Path

theorem FileTree.freshPath_ofText (t : FileTree) (dir : String) :
    ∃ text, t.freshPath (.ofText dir) = .ofText text := by
  unfold freshPath
  dsimp only
  cases found : List.find? _ _ with
  | none => exact ⟨dir, rfl⟩
  | some p =>
      obtain ⟨n, _, made⟩ := List.mem_map.mp (List.mem_of_find?_eq_some found)
      rw [Option.getD_some, ← made]
      apply Path.join_ofText

end Needle
