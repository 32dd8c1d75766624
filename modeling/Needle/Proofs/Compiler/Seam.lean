import Needle.Proofs.Compiler.Session
import Needle.Proofs.Pattern.Reading

/-!
# Texts that are added in two parts

A text may be cut at the end of any of its lines and added in two parts: what the first part leaves
in the session stands to the second as the lines before stand to the lines after in the whole text.
Only the numbers of the lines, and with them those of the warnings, are counted anew.
-/
set_option autoImplicit false

namespace Needle

open Pattern

namespace Pattern.Progress

theorem warnings_append (p q : Progress) : (p ++ q).warnings = p.warnings ++ q.warnings :=
  List.filter_append ..

theorem warnings_onLine (p : Progress) (n : Nat) :
    (p.onLine n).warnings = p.warnings.map (Diagnostic.onLine n) := by
  unfold warnings onLine
  rw [List.filter_map]
  rfl

end Pattern.Progress

namespace Compiler

theorem fit_append_feed_iff (ns first second : String) :
    Fit ns (first ++ "\n" ++ second) ↔ Fit ns first ∧ Fit ns second := by
  have plain : '\x00' ∉ (first ++ "\n" ++ second).toList ↔
      '\x00' ∉ first.toList ∧ '\x00' ∉ second.toList := by simp
  constructor
  · rintro ⟨named, free, content⟩
    obtain ⟨before, behind⟩ := plain.mp content
    exact ⟨⟨named, free, before⟩, ⟨named, free, behind⟩⟩
  · rintro ⟨⟨named, free, before⟩, ⟨_, _, behind⟩⟩
    exact ⟨named, free, plain.mpr ⟨before, behind⟩⟩

/-- Adding a text comes to the same as adding its parts before and after a line feed, one after the
other: they succeed together, and leave the same patterns and, but for the numbers of the lines, the
same warnings. -/
theorem addText_append_feed {c : Compiler} {h : Host} {known : List Pattern}
    (live : c.Live h known) (usable : c.failed = none) (ns before behind : String) :
    let whole := c.addText ns (before ++ "\n" ++ behind) h
    let first := c.addText ns before h
    let second := first.2.1.addText ns behind first.2.2
    (whole.1 = .ok () ↔ first.1 = .ok () ∧ second.1 = .ok ()) ∧
      (whole.1 = .ok () →
        whole.2.1.known whole.2.2 = second.2.1.known second.2.2 ∧
        whole.2.1.warnings.map (Diagnostic.onLine 0) =
          second.2.1.warnings.map (Diagnostic.onLine 0)) := by
  intro whole first second
  let s : Source := ⟨ns, none, known⟩
  let p := s.read before.toList
  let q := (s.after p.added).read behind.toList
  let r := s.read (before ++ "\n" ++ behind).toList
  -- The whole is read as its parts are, but for the numbers of the lines.
  have seam : r.onLine 0 = (p ++ q).onLine 0 := by
    have split : (before ++ "\n" ++ behind).toList = before.toList ++ '\n' :: behind.toList := by
      simp
    rw [← s.read_append_feed, ← split]
  have added : r.added = p.added ++ q.added := congrArg Progress.added seam
  have errors : r.errors = p.errors + q.errors := congrArg Progress.errors seam
  have warnings := congrArg Progress.warnings seam
  rw [Progress.warnings_onLine, Progress.warnings_onLine, Progress.warnings_append] at warnings
  obtain ⟨wholeIff, wholeLeaves⟩ := live.added_text usable ns (before ++ "\n" ++ behind)
  obtain ⟨firstIff, firstLeaves⟩ := live.added_text usable ns before
  by_cases goes : first.1 = .ok ()
  · obtain ⟨fit, clean⟩ := firstIff.mp goes
    obtain ⟨lives, sound, warned, _⟩ := firstLeaves goes
    obtain ⟨secondIff, secondLeaves⟩ := lives.added_text sound ns behind
    have together : whole.1 = .ok () ↔ second.1 = .ok () := by
      rw [wholeIff, secondIff, fit_append_feed_iff]
      change (Fit ns before ∧ Fit ns behind) ∧ r.errors = 0 ↔ Fit ns behind ∧ q.errors = 0
      rw [errors, show p.errors = 0 from clean, Nat.zero_add]
      exact and_congr_left' (and_iff_right fit)
    refine ⟨together.trans (and_iff_right goes).symm, fun success => ?_⟩
    obtain ⟨wholeLive, _, wholeWarned, _⟩ := wholeLeaves success
    obtain ⟨secondLive, _, secondWarned, _⟩ := secondLeaves (together.mp success)
    constructor
    · rw [wholeLive.known_eq, secondLive.known_eq, List.append_assoc]
      exact congrArg (known ++ ·) added
    · rw [wholeWarned, secondWarned, warned, List.map_append, List.map_append, List.map_append,
        List.append_assoc]
      exact congrArg (c.warnings.map (Diagnostic.onLine 0) ++ ·) (warnings.trans List.map_append)
  -- What keeps the first part from being added is also wrong with the whole.
  · have fails : whole.1 ≠ .ok () := by
      intro success
      obtain ⟨fit, clean⟩ := wholeIff.mp success
      have faultless : p.errors = 0 := Nat.eq_zero_of_add_eq_zero_right (errors.symm.trans clean)
      exact goes (firstIff.mpr ⟨((fit_append_feed_iff ns before behind).mp fit).1, faultless⟩)
    exact ⟨iff_of_false fails fun both => goes both.1, fun success => absurd success fails⟩

theorem addText_append_feed_of_warnings :
    let h : Host := ⟨⟨[], []⟩, .ofText "", [{ holders := 1 }], {}, [], 0⟩
    ∃ c begun, create ⟨0⟩ h = (.ok c, begun) ∧
      let whole := c.addText "ns" "_one a\r\n_two b" begun
      let first := c.addText "ns" "_one a\r" begun
      let second := first.2.1.addText "ns" "_two b" first.2.2
      whole.1 = .ok () ∧ second.1 = .ok () ∧
        whole.2.1.known whole.2.2 = second.2.1.known second.2.2 ∧
        whole.2.1.warnings.map (Diagnostic.onLine 0) =
          second.2.1.warnings.map (Diagnostic.onLine 0) ∧
        whole.2.1.warnings ≠ second.2.1.warnings := by
  intro h
  obtain ⟨c, begun, created, account⟩ := create_eq ⟨0⟩ (h := h) (by decide) rfl
  refine ⟨c, begun, created, ?_⟩
  obtain ⟨same, rfl⟩ := Prod.mk.inj created
  obtain rfl := Except.ok.inj same
  have fresh := account false
  obtain ⟨splits, leaves⟩ :=
    addText_append_feed fresh.live fresh.failed "ns" "_one a\r" "_two b"
  let start : Compiler × Host := (⟨0, 1, false, none, [], [], 0⟩, (create ⟨0⟩ h).2)
  have success : (start.1.addText "ns" "_one a\r\n_two b" start.2).1 = .ok () := by rfl
  obtain ⟨known, warnings⟩ := leaves success
  refine ⟨success, (splits.mp success).2, known, warnings, ?_⟩
  intro same
  have last := congrArg (fun ds => ds.map Diagnostic.line) same
  revert last
  decide

end Compiler

end Needle
