import Needle.Proofs.RuleSet.File

/-!
# Which file an engine works on

A path that is handed to an engine is opened, read or written under the name that it is shown as.
That is the path itself exactly for the paths that are texts; for any other path it is another one.
-/
set_option autoImplicit false

namespace Needle

theorem Path.shownPath_eq_iff {p : Path} : Engine.shownPath p = p ↔ ∃ text, p = .ofText text := by
  constructor
  · intro same
    exact ⟨p.display, same.symm⟩
  · rintro ⟨text, rfl⟩
    exact shownPath_ofText text

namespace RuleSet

/-- Whatever is asked for by a path happens to the file that another path names: what is saved is
there and nowhere else, what is loaded was there, and what is reported of a readable file is what is
satisfied there. -/
structure Touches (s : RuleSet) (r : Owner) (patterns : List Pattern) (h : Host) (p named : Path) :
    Prop where
  saves : ∀ saved, s.save p h = (.ok (), saved) → ∃ l,
    saved.files = h.files.put l (.file (Pattern.save patterns)) ∧
      saved.files.find .target named = .ok (l, .file (Pattern.save patterns))
  loads : ∀ loaded after, load r p h = (.ok loaded, after) → ∃ e content found,
    h.files.openObject p = .ok e ∧ h.files.readFile named = .ok content ∧
      Pattern.load content = .ok found ∧ loaded.patterns? after = some found
  scans : ∀ content, h.files.readFile p = .ok content →
    ∀ (σ : Type) (options : ScanOptions) (handler : Handler σ) (own : σ),
      ∃ begun, begun.files = h.files ∧ begun.scans = h.scans ∧
        let told := Engine.reports (h.engine s.slot).faults.scans patterns (h.files.readFile named)
        let ran := Scan.run handler (fun _ => .ofEvents false told.1 told.2) (begun, own)
        s.scanFile p options handler (h, own) = (ran.1.outcome (some p), ran.2)

variable {s : RuleSet} {r : Owner} {patterns : List Pattern} {h : Host} {p : Path}

theorem saves_shown (live : s.patterns? h = some patterns) (literal : (h.engine s.slot).Literal)
    {saved : Host} (saves : s.save p h = (.ok (), saved)) : ∃ l,
      saved.files = h.files.put l (.file (Pattern.save patterns)) ∧
        saved.files.find .target (Engine.shownPath p) = .ok (l, .file (Pattern.save patterns)) := by
  have same := s.save_eq live literal p
  rw [saves] at same
  rcases savedAt_cases patterns p h.files with ⟨e, refused⟩ | ⟨written, wrote, done⟩
  · rw [refused] at same
    cases (Prod.mk.inj same).1
  · rw [done] at same
    rw [(Prod.mk.inj same).2]
    exact FileTree.find_written wrote

theorem loads_shown (started : r.slot < h.engines.length) (literal : (h.engine r.slot).Literal)
    {loaded : RuleSet} {after : Host} (loads : load r p h = (.ok loaded, after)) :
    ∃ e content found, h.files.openObject p = .ok e ∧
      h.files.readFile (Engine.shownPath p) = .ok content ∧ Pattern.load content = .ok found ∧
      loaded.patterns? after = some found := by
  have course := load_course r started literal.load p
  cases read : loadedFrom h.files p with
  | error e =>
      rw [read] at course
      obtain ⟨_, refused, _⟩ := course
      cases loads.symm.trans refused
  | ok found =>
      rw [read] at course
      obtain ⟨_, _, goes, _, holds, _⟩ := course
      cases loads.symm.trans goes
      obtain ⟨e, content, opened, reads, decoded⟩ := loadedFrom_eq_ok read
      exact ⟨e, content, found, opened, reads, decoded, holds⟩

theorem begins_of_readFile {content : Bytes} (holds : h.files.readFile p = .ok content) :
    (ScanTarget.file p).refusal? h.files = none := by
  have opened := FileTree.openObject_of_readFile holds
  have plain := FileTree.plain_of_readFile holds
  simp [ScanTarget.refusal?, opened, Plain.path, plain]

/-- An engine works on the file that the shown path names, and that is the file of the path itself
exactly if the path is a text. -/
theorem touches_shown (live : s.patterns? h = some patterns) (started : r.slot < h.engines.length)
    (literal : (h.engine s.slot).Literal) (other : (h.engine r.slot).Literal) (p : Path) :
    Touches s r patterns h p (Engine.shownPath p) ∧
      (Engine.shownPath p = p ↔ ∃ text, p = .ofText text) := by
  refine ⟨⟨?_, ?_, ?_⟩, Path.shownPath_eq_iff⟩
  · intro saved saves
    exact saves_shown live literal saves
  · intro loaded after loads
    exact loads_shown started other loads
  · intro content holds σ options handler own
    obtain ⟨begun, same, scans, runs⟩ :=
      s.scanFile_begun live literal.scan (begins_of_readFile holds) options handler own
    exact ⟨begun, same.files, scans, runs⟩

def someRule : Pattern := ⟨"ns", "rule", "x", [], []⟩

def bareHost : Host where
  files := ⟨[], []⟩
  tempDir := .ofText ""
  engines := [{ engine := ((Engine.fresh {}).addRuleSet [someRule]).2, holders := 2 }]

def soleRules : RuleSet := ⟨0, 1, {}⟩

def noText : Path := ⟨[0xFF]⟩

theorem soleRules_live : soleRules.patterns? bareHost = some [someRule] := rfl

theorem bareHost_literal : (bareHost.engine 0).Literal := ⟨rfl, rfl, rfl⟩

theorem shownPath_noText : Engine.shownPath noText = .ofText "\uFFFD" := by decide

theorem touches_shown_of_no_text :
    Touches soleRules ⟨0⟩ [someRule] bareHost noText (.ofText "\uFFFD") ∧
      ¬ ∃ text, noText = .ofText text := by
  obtain ⟨touches, named⟩ := touches_shown (r := ⟨0⟩) soleRules_live (by decide) bareHost_literal
    bareHost_literal noText
  rw [shownPath_noText] at touches named
  refine ⟨touches, ?_⟩
  rw [← named]
  decide

/-- A rule set that is saved under a path that is no text is not there. -/
theorem not_touches_of_no_text :
    ¬ Touches soleRules ⟨0⟩ [someRule] bareHost noText noText := by
  intro touches
  let name := Utf8.encode "\uFFFD"
  let written := bareHost.files.put [name] (.file (Pattern.save [someRule]))
  have wrote : bareHost.files.writeFile (.ofText "\uFFFD") (Pattern.save [someRule]) = .ok written :=
    FileTree.writeFile_free rfl rfl rfl ⟨by decide, by decide, by decide, by decide⟩ rfl rfl _
  have plain : Plain.path noText = .ok [0xFF] := rfl
  have saves := soleRules.save_eq soleRules_live bareHost_literal noText
  unfold savedAt at saves
  rw [plain, shownPath_noText, wrote] at saves
  obtain ⟨result, files⟩ := Prod.mk.inj saves
  obtain ⟨l, _, found⟩ := touches.saves _ (Prod.ext result rfl)
  rw [files] at found
  have absent : written.entry? [[0xFF]] = none :=
    FileTree.entry?_put_of_ne bareHost.files (by decide) _
  have missing : written.find .target noText = .error .notFound :=
    FileTree.find_missing (FileTree.current_put bareHost.files [name] _) rfl rfl
      ⟨by decide, by decide, by decide, by decide⟩ absent
  cases missing.symm.trans found

end RuleSet

end Needle
