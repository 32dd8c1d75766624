import Needle.Proofs.File.Fresh
import Needle.Proofs.File.Path
import Needle.Proofs.File.Write
import Needle.Proofs.Host
import Needle.Proofs.Pattern.Artifact
import Needle.Proofs.Lookup
import Needle.Proofs.RuleSet.Match
import Needle.Proofs.Untraced

/-!
# Saving a rule set and loading it again

A rule set that is loaded from where another one was saved has the patterns of that one, so the two
find the same and are saved alike. The way by a temporary file leaves the files as they were.
-/
set_option autoImplicit false

namespace Needle

def RuleSet.patterns? (s : RuleSet) (h : Host) : Option (List Pattern) :=
  (h.engine s.slot).ruleSet? s.handle

/-- The engine is given no answers in place of its own about saved rule sets and scans. -/
structure Engine.Literal (e : Engine) : Prop where
  save : e.faults.save = none
  load : e.faults.load = none
  scan : e.faults.scan = none

/-- A later state of a host, in which no rule set is gone. -/
structure Host.Extends (before after : Host) : Prop where
  patterns : ∀ (s : RuleSet) (patterns : List Pattern),
    s.patterns? before = some patterns → s.patterns? after = some patterns
  faults : ∀ i, (after.engine i).faults = (before.engine i).faults
  count : after.engines.length = before.engines.length
  tempDir : after.tempDir = before.tempDir

/-- A new file can be made in the directory for temporary files, which has a text as its path. -/
structure Host.TempReady (h : Host) : Prop where
  named : ∃ text, h.tempDir = .ofText text
  writable : ∃ files, h.files.writeFile (h.files.freshPath h.tempDir) [] = .ok files

namespace Host

theorem TempReady.path {h : Host} (ready : h.TempReady) :
    ∃ text, h.files.freshPath h.tempDir = .ofText text := by
  obtain ⟨dir, named⟩ := ready.named
  rw [named]
  exact h.files.freshPath_ofText dir

theorem TempReady.later {before after : Host} (ready : before.TempReady)
    (later : before.Extends after) (files : after.files = before.files) : after.TempReady := by
  constructor
  case named => rw [later.tempDir]; exact ready.named
  case writable => rw [files, later.tempDir]; exact ready.writable

theorem Extends.trans {first second third : Host} (before : first.Extends second)
    (after : second.Extends third) : first.Extends third where
  patterns s patterns live := after.patterns s patterns (before.patterns s patterns live)
  faults i := (after.faults i).trans (before.faults i)
  count := after.count.trans before.count
  tempDir := after.tempDir.trans before.tempDir

theorem Extends.literal {before after : Host} (later : before.Extends after) {i : Nat}
    (literal : (before.engine i).Literal) : (after.engine i).Literal := by
  have faults := later.faults i
  exact ⟨faults ▸ literal.save, faults ▸ literal.load, faults ▸ literal.scan⟩

theorem extends_setSlot (h : Host) (i : Nat) (change : EngineSlot → EngineSlot)
    (ruleSets : ∀ handle patterns, (h.engine i).ruleSet? handle = some patterns →
      (change (h.slot i)).engine.ruleSet? handle = some patterns)
    (faults : (change (h.slot i)).engine.faults = (h.engine i).faults) :
    h.Extends (h.setSlot i change) where
  patterns s patterns live := by
    unfold RuleSet.patterns? at live ⊢
    rw [engine_setSlot]
    split
    case isTrue here =>
      rw [here.1] at live
      exact ruleSets s.handle patterns live
    case isFalse => exact live
  faults j := by
    rw [engine_setSlot]
    split
    case isTrue here => rw [here.1, faults]
    case isFalse => rfl
  count := List.length_modify ..
  tempDir := rfl

theorem extends_note (h : Host) (n : Note) : h.Extends (h.note n) :=
  ⟨fun _ _ live => live, fun _ => rfl, rfl, rfl⟩

theorem extends_files (h : Host) (files : FileTree) : h.Extends { h with files := files } :=
  ⟨fun _ _ live => live, fun _ => rfl, rfl, rfl⟩

theorem extends_hold (h : Host) (i : Nat) : h.Extends (h.hold i) :=
  h.extends_setSlot i _ (fun _ _ live => live) rfl

end Host

/-! ## The engine's part -/

namespace Engine

theorem ruleSet?_addRuleSet_new (e : Engine) (patterns : List Pattern) :
    (e.addRuleSet patterns).2.ruleSet? (e.addRuleSet patterns).1 = some patterns := by
  have unused : e.ruleSets.lookup (e.last + 1) = none := by
    cases found : e.ruleSets.lookup (e.last + 1) with
    | none => rfl
    | some older =>
        have issued : e.last + 1 ≤ e.last := e.ruleSets_issued _ (mem_of_lookup found)
        exact absurd issued (Nat.not_succ_le_self e.last)
  have added := lookup_append_singleton e.ruleSets (e.last + 1) patterns (e.last + 1)
  rw [unused, if_pos rfl] at added
  exact added

theorem ruleSet?_addRuleSet_old (e : Engine) (added : List Pattern) {handle : Handle}
    {patterns : List Pattern} (live : e.ruleSet? handle = some patterns) :
    (e.addRuleSet added).2.ruleSet? handle = some patterns := by
  have kept := lookup_append_singleton e.ruleSets (e.last + 1) added handle
  have found : e.ruleSets.lookup handle = some patterns := live
  rw [found] at kept
  exact kept

theorem save_eq (e : Engine) {handle : Handle} {patterns : List Pattern} {text : String}
    {files written : FileTree} (live : e.ruleSet? handle = some patterns) (literal : e.Literal)
    (wrote : files.writeFile (.ofText text) (Pattern.save patterns) = .ok written) :
    e.save files handle (.ofText text) =
      (Code.success, written, e.trace (.save handle (.ofText text) Code.success)) := by
  unfold save
  rw [literal.save, live]
  dsimp only
  rw [Path.shownPath_ofText, wrote]

def decoded (files : FileTree) (p : Path) : Except Code (List Pattern) :=
  match files.readFile (shownPath p) with
  | .error _ => .error Code.couldNotOpenFile
  | .ok content => Pattern.load content

theorem load_eq (e : Engine) (own : e.faults.load = none) (files : FileTree) (p : Path) :
    e.load files p =
      match decoded files p with
      | .error code => (.error code, e.trace (.load p (.error code)))
      | .ok patterns =>
        (.ok (e.addRuleSet patterns).1,
          (e.addRuleSet patterns).2.trace (.load p (.ok (e.addRuleSet patterns).1))) := by
  unfold load decoded
  rw [own]
  dsimp only
  cases files.readFile (shownPath p) with
  | error cause => rfl
  | ok content =>
      dsimp only
      cases Pattern.load content with
      | error code => rfl
      | ok patterns => rfl

end Engine

/-! ## Saving and loading at a path -/

namespace RuleSet

theorem save_ok (s : RuleSet) {h : Host} {patterns : List Pattern} {text : String}
    {written : FileTree} (live : s.patterns? h = some patterns)
    (literal : (h.engine s.slot).Literal)
    (wrote : h.files.writeFile (.ofText text) (Pattern.save patterns) = .ok written) :
    ∃ saved, s.save (.ofText text) h = (.ok (), saved) ∧ saved.files = written ∧
      h.Extends saved := by
  have plain := (FileTree.writeFile_eq_ok_iff.mp wrote).1
  have written' := (h.engine s.slot).save_eq live literal wrote
  let filed : Host := { h with files := written }
  let engine := (h.engine s.slot).trace (.save s.handle (.ofText text) Code.success)
  let changed := filed.setSlot s.slot fun slot => { slot with engine := engine }
  have change : filed.Extends changed :=
    filed.extends_setSlot s.slot _ (fun _ _ live => live) rfl
  refine ⟨changed.note (.saved (.ofText text)), ?_, rfl, ?_⟩
  · unfold save Plain.path
    rw [plain]
    dsimp only
    rw [written']
    rfl
  · exact ((h.extends_files written).trans change).trans (changed.extends_note _)

/-- What loading a path comes to: the path is opened, and then the file that it is shown as is
decoded. -/
def loadedFrom (files : FileTree) (p : Path) : Except Error (List Pattern) :=
  match files.openObject p with
  | .error cause => .error (.fileRead p cause)
  | .ok _ =>
    match Plain.path p with
    | .error e => .error e
    | .ok _ => (Engine.decoded files p).mapError fun code => Code.loadError code p

theorem extends_added (r : Owner) {h : Host} (started : r.slot < h.engines.length)
    (patterns : List Pattern) (p : Path) :
    let added := (h.engine r.slot).addRuleSet patterns
    let engine := added.2.trace (.load p (.ok added.1))
    let changed := h.setSlot r.slot fun slot => { slot with engine := engine }
    let after := (changed.note (.loaded p)).hold r.slot
    let loaded : RuleSet := ⟨r.slot, added.1, {}⟩
    loaded.patterns? after = some patterns ∧ h.Extends after := by
  intro added engine changed after loaded
  have change : h.Extends changed := h.extends_setSlot r.slot _
    (fun _ _ live => (h.engine r.slot).ruleSet?_addRuleSet_old _ live) rfl
  have here : changed.engine r.slot = engine := by
    rw [Host.engine_setSlot, if_pos ⟨rfl, started⟩]
  have found : loaded.patterns? (changed.note (.loaded p)) = some patterns := by
    unfold patterns?
    rw [show (changed.note (.loaded p)).engine loaded.slot = engine from here]
    exact (h.engine r.slot).ruleSet?_addRuleSet_new patterns
  have holding := (changed.note (.loaded p)).extends_hold r.slot
  exact ⟨holding.patterns loaded patterns found,
    (change.trans (changed.extends_note _)).trans holding⟩

/-- A load that fails leaves no trace but in the log and the engine's own. -/
theorem load_course (r : Owner) {h : Host} (started : r.slot < h.engines.length)
    (own : (h.engine r.slot).faults.load = none) (p : Path) :
    match loadedFrom h.files p with
    | .error e => ∃ after, load r p h = (.error e, after) ∧ after.untraced = h.untraced
    | .ok patterns => ∃ loaded after, load r p h = (.ok loaded, after) ∧ loaded.slot = r.slot ∧
        loaded.patterns? after = some patterns ∧ after.files = h.files ∧ h.Extends after := by
  have asked := (h.engine r.slot).load_eq own h.files p
  unfold loadedFrom load
  cases opened : h.files.openObject p with
  | error cause => exact ⟨h, rfl, rfl⟩
  | ok e =>
      dsimp only
      cases Plain.path p with
      | error e => exact ⟨h, rfl, rfl⟩
      | ok bytes =>
          unfold Host.call
          dsimp only
          rw [asked]
          cases Engine.decoded h.files p with
          | error code => exact ⟨_, rfl, h.untraced_setEngine r.slot rfl⟩
          | ok patterns =>
              obtain ⟨found, later⟩ := extends_added r started patterns p
              exact ⟨_, _, rfl, rfl, found, rfl, later⟩

theorem loadedFrom_eq_ok {files : FileTree} {p : Path} {patterns : List Pattern}
    (loaded : loadedFrom files p = .ok patterns) : ∃ e content, files.openObject p = .ok e ∧
      files.readFile (Engine.shownPath p) = .ok content ∧ Pattern.load content = .ok patterns := by
  unfold loadedFrom at loaded
  cases opened : files.openObject p with
  | error cause =>
      rw [opened] at loaded
      contradiction
  | ok e =>
      rw [opened] at loaded
      cases plain : Plain.path p with
      | error cause =>
          rw [plain] at loaded
          contradiction
      | ok _ =>
          rw [plain] at loaded
          unfold Engine.decoded at loaded
          cases holds : files.readFile (Engine.shownPath p) with
          | error cause =>
              rw [holds] at loaded
              contradiction
          | ok content =>
              rw [holds] at loaded
              cases decoded : Pattern.load content with
              | error code => simp [decoded, Except.mapError] at loaded
              | ok found =>
                  simp only [decoded, Except.mapError] at loaded
                  cases loaded
                  exact ⟨e, content, rfl, rfl, decoded⟩

theorem loadedFrom_of_readFile {files : FileTree} {content : Bytes} {text : String}
    (holds : files.readFile (.ofText text) = .ok content) :
    loadedFrom files (.ofText text) =
      (Pattern.load content).mapError fun code => Code.loadError code (.ofText text) := by
  have plain := FileTree.plain_of_readFile holds
  unfold loadedFrom Plain.path Engine.decoded
  rw [FileTree.openObject_of_readFile holds, plain, Path.shownPath_ofText, holds]
  rfl

theorem loadedFrom_saved {files : FileTree} {patterns : List Pattern} {text : String}
    (holds : files.readFile (.ofText text) = .ok (Pattern.save patterns)) :
    loadedFrom files (.ofText text) = .ok patterns := by
  rw [loadedFrom_of_readFile holds, Pattern.load_save]
  rfl

theorem load_ok (r : Owner) {h : Host} {patterns : List Pattern} {text : String}
    (started : r.slot < h.engines.length) (literal : (h.engine r.slot).Literal)
    (holds : h.files.readFile (.ofText text) = .ok (Pattern.save patterns)) :
    ∃ loaded after, load r (.ofText text) h = (.ok loaded, after) ∧ loaded.slot = r.slot ∧
      loaded.patterns? after = some patterns ∧ after.files = h.files ∧ h.Extends after := by
  have loads := load_course r started literal.load (.ofText text)
  rw [loadedFrom_saved holds] at loads
  exact loads

/-! ## The way by a temporary file -/

theorem makeTemp_ok {h : Host} {content : Bytes} {written : FileTree}
    (wrote : h.files.writeFile (h.files.freshPath h.tempDir) content = .ok written) :
    makeTemp h content = (.ok (h.files.freshPath h.tempDir), { h with files := written }) := by
  unfold makeTemp
  dsimp only
  rw [wrote]

theorem dropTemp_ok {h : Host} {p : Path} {files : FileTree}
    (removed : h.files.remove p = .ok files) : dropTemp h p = { h with files := files } := by
  unfold dropTemp
  rw [removed]

theorem saveBytes_ok (s : RuleSet) {h : Host} {patterns : List Pattern}
    (live : s.patterns? h = some patterns) (literal : (h.engine s.slot).Literal)
    (ready : h.TempReady) :
    ∃ after, s.saveBytes h = (.ok (Pattern.save patterns), after) ∧ after.files = h.files ∧
      h.Extends after := by
  obtain ⟨text, path⟩ := ready.path
  obtain ⟨_, empty, wrote⟩ := ready
  have fresh := h.files.isTaken_freshPath h.tempDir
  have made := makeTemp_ok wrote
  rw [path] at fresh wrote made
  obtain ⟨plain, wrote⟩ := FileTree.writeFile_eq_ok_iff.mp wrote
  obtain ⟨full, filled⟩ := FileTree.writeFile_any
    (FileTree.writeFile_eq_ok_iff.mpr ⟨plain, wrote⟩) (Pattern.save patterns)
  obtain ⟨_, written⟩ := FileTree.writeFile_eq_ok_iff.mp filled
  have refilled : empty.writeFile (.ofText text) (Pattern.save patterns) = .ok full :=
    FileTree.writeFile_eq_ok_iff.mpr ⟨plain, by rw [FileTree.write_written fresh wrote, written]⟩
  have removed : full.remove (.ofText text) = .ok h.files := FileTree.remove_written fresh written
  obtain ⟨saved, saves, rfl, later⟩ := s.save_ok (h := { h with files := empty }) live literal refilled
  refine ⟨{ saved with files := h.files }, ?_, rfl, ?_⟩
  · unfold saveBytes
    rw [made]
    dsimp only
    rw [saves]
    dsimp only
    rw [FileTree.readFile_written filled, dropTemp_ok removed]
    rfl
  · exact ((h.extends_files empty).trans later).trans (saved.extends_files h.files)

/-- Bytes are loaded as a file that is there for as long as that takes. -/
theorem loadBytes_eq (r : Owner) {h : Host} (ready : h.TempReady) (content : Bytes) :
    ∃ text full, h.files.freshPath h.tempDir = .ofText text ∧
      full.readFile (.ofText text) = .ok content ∧
      ∀ result after, load r (.ofText text) { h with files := full } = (result, after) →
        after.files = full → loadBytes r content h = (result, { after with files := h.files }) := by
  obtain ⟨text, path⟩ := ready.path
  obtain ⟨_, empty, wrote⟩ := ready
  have fresh := h.files.isTaken_freshPath h.tempDir
  obtain ⟨full, filled⟩ := FileTree.writeFile_any wrote content
  have made := makeTemp_ok filled
  rw [path] at fresh filled made
  have removed : full.remove (.ofText text) = .ok h.files :=
    FileTree.remove_written fresh (FileTree.writeFile_eq_ok_iff.mp filled).2
  refine ⟨text, full, path, FileTree.readFile_written filled, fun result after loads kept => ?_⟩
  unfold loadBytes
  rw [made]
  dsimp only
  rw [loads]
  dsimp only
  rw [dropTemp_ok (kept.symm ▸ removed)]

theorem loadBytes_ok (r : Owner) {h : Host} (patterns : List Pattern)
    (started : r.slot < h.engines.length) (literal : (h.engine r.slot).Literal)
    (ready : h.TempReady) :
    ∃ loaded after, loadBytes r (Pattern.save patterns) h = (.ok loaded, after) ∧
      loaded.slot = r.slot ∧ loaded.patterns? after = some patterns ∧ after.files = h.files ∧
      h.Extends after := by
  obtain ⟨text, full, _, holds, goes⟩ := loadBytes_eq r ready (Pattern.save patterns)
  obtain ⟨loaded, after, loads, slot, found, kept, later⟩ :=
    load_ok r (h := { h with files := full }) started literal holds
  have dropping := after.extends_files h.files
  refine ⟨loaded, { after with files := h.files }, goes _ _ loads kept, slot,
    dropping.patterns _ _ found, rfl, ?_⟩
  exact ((h.extends_files full).trans later).trans dropping

/-! ## Rule sets with the same patterns -/

def savedAt (patterns : List Pattern) (place : Path) (files : FileTree) :
    Except Error Unit × FileTree :=
  match Plain.path place with
  | .error e => (.error e, files)
  | .ok _ =>
    match files.writeFile (Engine.shownPath place) (Pattern.save patterns) with
    | .ok written => (.ok (), written)
    | .error _ => (Code.checkSave Code.couldNotOpenFile place, files)

/-- Saving goes well exactly where the shown path can be written to. -/
theorem savedAt_cases (patterns : List Pattern) (place : Path) (files : FileTree) :
    (∃ e, savedAt patterns place files = (.error e, files)) ∨
      ∃ written, files.write (Engine.shownPath place) (Pattern.save patterns) = .ok written ∧
        savedAt patterns place files = (.ok (), written) := by
  unfold savedAt
  cases Plain.path place with
  | error e => exact Or.inl ⟨e, rfl⟩
  | ok _ =>
      cases wrote : files.writeFile (Engine.shownPath place) (Pattern.save patterns) with
      | error cause => exact Or.inl ⟨_, rfl⟩
      | ok written => exact Or.inr ⟨written, (FileTree.writeFile_eq_ok_iff.mp wrote).2, rfl⟩

theorem save_eq (s : RuleSet) {h : Host} {patterns : List Pattern}
    (live : s.patterns? h = some patterns) (literal : (h.engine s.slot).Literal) (place : Path) :
    ((s.save place h).1, (s.save place h).2.files) = savedAt patterns place h.files := by
  have held : (h.engine s.slot).ruleSet? s.handle = some patterns := live
  unfold save savedAt
  cases Plain.path place with
  | error e => rfl
  | ok bytes =>
      unfold Engine.save
      rw [literal.save, held]
      dsimp only
      cases h.files.writeFile (Engine.shownPath place) (Pattern.save patterns) with
      | ok written => rfl
      | error cause => rfl

/-- Two rule sets of a host with the same patterns, as far as a caller can tell. -/
structure Alike (s t : RuleSet) (patterns : List Pattern) (h : Host) : Prop where
  first : s.patterns? h = some patterns
  second : t.patterns? h = some patterns
  found : ∀ (data : Bytes) (options : ScanOptions),
    (t.scanBuffer data options collect (h, [])).2.2 =
      (s.scanBuffer data options collect (h, [])).2.2
  matched : (h.engine t.slot).faults.scans = (h.engine s.slot).faults.scans →
    ∀ data : Bytes, (t.matchBuffer data h).1 = (s.matchBuffer data h).1
  saved : ∀ place : Path, (t.save place h).1 = (s.save place h).1 ∧
    (t.save place h).2.files = (s.save place h).2.files

theorem alike_of_patterns {s t : RuleSet} {patterns : List Pattern} {h : Host}
    (first : s.patterns? h = some patterns) (second : t.patterns? h = some patterns)
    (literal : (h.engine s.slot).Literal) (other : (h.engine t.slot).Literal) :
    Alike s t patterns h where
  first := first
  second := second
  found data options := by
    by_cases empty : data = []
    · subst empty
      rfl
    · obtain ⟨_, here⟩ := s.scanBuffer_collect first literal.scan empty options
      obtain ⟨_, there⟩ := t.scanBuffer_collect second other.scan empty options
      rw [here, there]
  matched same data := by
    by_cases empty : data = []
    · subst empty
      rfl
    · rw [s.matchBuffer_eq first literal.scan empty, t.matchBuffer_eq second other.scan empty,
        same]
  saved place := by
    have same := (t.save_eq second other place).trans (s.save_eq first literal place).symm
    exact Prod.mk.inj same

/-- A live rule set that is saved at a path, or as bytes, and loaded again, by any owner of an
engine. -/
theorem load_of_saved (s : RuleSet) (r : Owner) (h : Host) {patterns : List Pattern}
    (live : s.patterns? h = some patterns) (started : r.slot < h.engines.length)
    (literal : (h.engine s.slot).Literal) (other : (h.engine r.slot).Literal) :
    (∀ text, (∃ written, h.files.writeFile (.ofText text) [] = .ok written) →
      ∃ saved loaded after, s.save (.ofText text) h = (.ok (), saved) ∧
        load r (.ofText text) saved = (.ok loaded, after) ∧
        loaded.slot = r.slot ∧ Alike s loaded patterns after) ∧
    (h.TempReady →
      ∃ bytes saved loaded after, s.saveBytes h = (.ok bytes, saved) ∧
        loadBytes r bytes saved = (.ok loaded, after) ∧
        loaded.slot = r.slot ∧ Alike s loaded patterns after ∧
        saved.files = h.files ∧ after.files = h.files) := by
  constructor
  · rintro text ⟨_, wrote⟩
    obtain ⟨written, filled⟩ := FileTree.writeFile_any wrote (Pattern.save patterns)
    obtain ⟨saved, saves, rfl, first⟩ := s.save_ok live literal filled
    obtain ⟨loaded, after, loads, slot, found, _, second⟩ :=
      load_ok r (first.count ▸ started) (first.literal other) (FileTree.readFile_written filled)
    have later := first.trans second
    refine ⟨saved, loaded, after, saves, loads, slot, ?_⟩
    exact alike_of_patterns (later.patterns s patterns live) found (later.literal literal)
      (slot ▸ later.literal other)
  · intro ready
    obtain ⟨saved, saves, kept, first⟩ := s.saveBytes_ok live literal ready
    obtain ⟨loaded, after, loads, slot, found, files, second⟩ :=
      loadBytes_ok r patterns (first.count ▸ started) (first.literal other) (ready.later first kept)
    have later := first.trans second
    refine ⟨Pattern.save patterns, saved, loaded, after, saves, loads, slot, ?_, kept,
      files.trans kept⟩
    exact alike_of_patterns (later.patterns s patterns live) found (later.literal literal)
      (slot ▸ later.literal other)

theorem load_of_saved_in_empty_tree :
    let patterns : List Pattern := [⟨"ns", "rule", "\"\n", ["tag"],
      [("n", .integer (-9223372036854775808)), ("n", .text "7"), ("b", .boolean true)]⟩]
    let h : Host := {
      files := ⟨[], []⟩
      tempDir := .ofText ""
      engines := [{ engine := (Engine.addRuleSet {} patterns).2, holders := 2 }] }
    let s : RuleSet := ⟨0, 1, {}⟩
    (∃ saved loaded after, s.save (.ofText "rules.json") h = (.ok (), saved) ∧
        load ⟨0⟩ (.ofText "rules.json") saved = (.ok loaded, after) ∧
        loaded.slot = 0 ∧ Alike s loaded patterns after) ∧
      ∃ bytes saved loaded after, s.saveBytes h = (.ok bytes, saved) ∧
        loadBytes ⟨0⟩ bytes saved = (.ok loaded, after) ∧
        loaded.slot = 0 ∧ Alike s loaded patterns after ∧
        saved.files = h.files ∧ after.files = h.files := by
  intro patterns h s
  have fresh : h.files.isTaken (.ofText ".tmp000000") = false :=
    FileTree.isTaken_nothing rfl rfl ⟨by decide, by decide, by decide, by decide⟩
  have path : h.files.freshPath h.tempDir = .ofText ".tmp000000" := by
    unfold FileTree.freshPath
    simp only [h, List.length_nil, Nat.zero_add, List.range_one, List.map_cons, List.map_nil]
    generalize first : Path.join _ _ = candidate
    have same : candidate = .ofText ".tmp000000" := by
      rw [← first]
      decide +kernel
    rw [same, List.find?_cons_of_pos (by rw [fresh]; rfl)]
    rfl
  obtain ⟨files, bytes⟩ := load_of_saved s ⟨0⟩ h (rfl : _ = some patterns) (by decide)
    ⟨rfl, rfl, rfl⟩ ⟨rfl, rfl, rfl⟩
  constructor
  · apply files
    exact FileTree.writeFile_nothing rfl rfl ⟨by decide, by decide, by decide, by decide⟩ rfl []
  · refine bytes ⟨⟨"", rfl⟩, ?_⟩
    rw [path]
    exact FileTree.writeFile_nothing rfl rfl ⟨by decide, by decide, by decide, by decide⟩ rfl []

end RuleSet

end Needle
