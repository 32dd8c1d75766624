import Needle.Proofs.File.Write

/-!
# Reading by path

What can be read is a file that can be opened; a directory can only be opened. With a file in the
root its name is enough.
-/
set_option autoImplicit false

namespace Needle.FileTree

variable {t : FileTree} {p : Path} {content : Bytes}

theorem readFile_eq_ok_iff : t.readFile p = .ok content ↔ t.openObject p = .ok (.file content) := by
  refine ⟨openObject_of_readFile, fun opened => ?_⟩
  obtain ⟨plain, seen⟩ := ask_eq_ok_iff.mp opened
  refine ask_eq_ok_iff.mpr ⟨plain, ?_⟩
  unfold read
  rw [seen]

theorem readFile_of_directory (opened : t.openObject p = .ok .directory) :
    t.readFile p = .error (.os .isDirectory) := by
  obtain ⟨plain, seen⟩ := ask_eq_ok_iff.mp opened
  unfold readFile Path.ask read
  rw [plain, seen]
  rfl

theorem openObject_of_nul (nul : p.hasNul = true) : t.openObject p = .error .nulInName := by
  unfold openObject Path.ask
  rw [nul]
  rfl

section Root

variable {name : Name}

theorem openObject_of_entry (root : t.current = []) (one : steps p = [name])
    (accepted : refusal? p = none) (looked : LookedUp .target name []) (plain : p.hasNul = false)
    (found : t.entry? [name] = some (.file content)) : t.openObject p = .ok (.file content) := by
  have located := find_file root one accepted looked found
  unfold openObject Path.ask stat
  rw [plain, located]
  rfl

theorem openObject_missing (root : t.current = []) (one : steps p = [name])
    (accepted : refusal? p = none) (looked : LookedUp .target name []) (plain : p.hasNul = false)
    (absent : t.entry? [name] = none) : t.openObject p = .error (.os .notFound) := by
  have located := find_missing root one accepted looked absent
  unfold openObject Path.ask stat
  rw [plain, located]
  rfl

end Root

end Needle.FileTree
