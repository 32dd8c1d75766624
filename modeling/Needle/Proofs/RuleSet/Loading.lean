import Needle.Proofs.Client.Constancy
import Needle.Proofs.Compiler.Addition
import Needle.Proofs.Pattern.Torn
import Needle.Proofs.RuleSet.FileScan

/-!
# Loading whatever a file holds

A readable file is loaded or refused, whatever it holds. What is refused leaves nothing behind, and
what is loaded serves as any other rule set does, also where no compiler would have made it.
-/
set_option autoImplicit false

namespace Needle

open Scan

/-- Each status of refused bytes stands for a corrupt artifact. -/
theorem Pattern.Refused.loadError {content : Bytes} {code : Code} (refused : Refused content code)
    (p : Path) : Code.loadError code p = .corruptArtifact p code := by
  cases refused <;> rfl

theorem ScanTarget.refusal?_ne_engine (target : ScanTarget) (files : FileTree) (code : Code) :
    target.refusal? files ≠ some (.engine code) := by
  intro refused
  unfold ScanTarget.refusal? at refused
  cases target with
  | buffer data =>
      dsimp only at refused
      split at refused <;> cases refused
  | file path =>
      dsimp only at refused
      split at refused
      case h_1 => cases refused
      case h_2 plain =>
        cases refused
        obtain ⟨_, other⟩ := Plain.path_eq_error plain
        cases other
      case h_3 => cases refused

namespace RuleSet

variable {s : RuleSet} {h : Host} {patterns : List Pattern}

/-! ## Rule sets that serve -/

/-- Whatever is asked of the rule set, its engine does not fail. -/
structure Untroubled (s : RuleSet) (h : Host) : Prop where
  scans : ∀ {σ : Type} (target : ScanTarget) (options : ScanOptions) (handler : Handler σ) (own : σ),
    let call : ScanCall := ⟨s, target, options⟩
    (call.run handler.recorded (h, own, {})).2.2.2.Keeps h.scans.next →
      ∀ code, (call.run handler (h, own)).1 ≠ .returned (.error (.engine code))
  saves : ∀ place code, (s.save place h).1 ≠ .error (.engine code)
  savesBytes : ∀ code, (s.saveBytes h).1 ≠ .error (.engine code)
  destroys : (s.destroy h).1 = .ok ()

theorem scan_ne_engine (live : s.patterns? h = some patterns)
    (literal : (h.engine s.slot).faults.scan = none)
    (well : (h.engine s.slot).faults.scans = Code.success) {σ : Type} (target : ScanTarget)
    (options : ScanOptions) (handler : Handler σ) (own : σ) (code : Code) :
    let call : ScanCall := ⟨s, target, options⟩
    (call.run handler.recorded (h, own, {})).2.2.2.Keeps h.scans.next →
      (call.run handler (h, own)).1 ≠ .returned (.error (.engine code)) := by
  intro call kept
  rcases call.run_cases h with same | ⟨text, lapses⟩
  case inr =>
    rw [lapses]
    nofun
  rw [same] at kept ⊢
  cases begins : target.refusal? h.files with
  | some e =>
      have refused : call.target.refusal? h.files = some e := begins
      rw [ScanCall.scan_of_refused refused]
      rintro ⟨⟩
      exact target.refusal?_ne_engine h.files code begins
  | none =>
      -- What begins may still be unreadable: the engine goes by the shown name of a file.
      cases content : target.content h.files with
      | ok data =>
          have erased : (call.scan handler (h, own)).1 =
              (call.scan handler.recorded (h, own, {})).1 :=
            congrArg Prod.fst (call.scan_unrecorded handler (h, own, {}))
          rcases ran : call.scan handler.recorded (h, own, {}) with ⟨outcome, after, left, ledger⟩
          rw [ran] at kept erased
          rw [erased]
          rcases ScanCall.scan_heeds (r := call) live literal begins content handler own ran kept
            with ⟨_, rfl⟩ | ⟨reply, _, _, rfl⟩
          · rw [conclude_proceed, well]
            nofun
          · exact endedBy_ne_engine _ reply code
      | error cause =>
          cases target with
          | buffer data => cases content
          | file path =>
              obtain ⟨after, _, ran⟩ :=
                scanFile_of_unread live literal options begins content handler own
              rw [show call.scan handler (h, own) = _ from ran]
              nofun

theorem savedAt_ne_engine (patterns : List Pattern) (place : Path) (files : FileTree) (code : Code) :
    (savedAt patterns place files).1 ≠ .error (.engine code) := by
  unfold savedAt
  split
  case h_1 e plain =>
    obtain ⟨message, rfl⟩ := Plain.path_eq_error plain
    nofun
  case h_2 => split <;> nofun

theorem save_ne_engine (live : s.patterns? h = some patterns) (literal : (h.engine s.slot).Literal)
    (place : Path) (code : Code) : (s.save place h).1 ≠ .error (.engine code) := by
  rw [(Prod.mk.inj (s.save_eq live literal place)).1]
  exact savedAt_ne_engine patterns place h.files code

theorem saveBytes_ne_engine (live : s.patterns? h = some patterns)
    (literal : (h.engine s.slot).Literal) (code : Code) :
    (s.saveBytes h).1 ≠ .error (.engine code) := by
  have engines := engines_makeTemp h []
  unfold saveBytes
  rcases made : makeTemp h [] with ⟨result, begun⟩
  rw [made] at engines
  cases result with
  | error e =>
      unfold makeTemp at made
      dsimp only at made
      split at made <;> cases made
      nofun
  | ok path =>
      have saves := save_ne_engine ((s.patterns?_congr engines).trans live)
        (literal_congr literal engines) path code
      dsimp only
      rcases saved : s.save path begun with ⟨result, after⟩
      rw [saved] at saves
      cases result with
      | error e =>
          rintro ⟨⟩
          exact saves rfl
      | ok _ =>
          dsimp only
          cases after.files.readFile path <;> nofun

theorem destroy_ok (live : s.patterns? h = some patterns)
    (literal : (h.engine s.slot).faults.destroyRules = none) : (s.destroy h).1 = .ok () := by
  have found : ((h.engine s.slot).ruleSet? s.handle).isSome := Option.isSome_of_eq_some live
  have destroyed : ((h.engine s.slot).destroyRules s.handle).1 = Code.success := by
    unfold Engine.destroyRules
    rw [literal]
    simp only [found, if_true]
  exact congrArg Code.check destroyed

theorem untroubled_of_live (live : s.patterns? h = some patterns)
    (genuine : (h.engine s.slot).faults.Genuine)
    (well : (h.engine s.slot).faults.scans = Code.success) : s.Untroubled h := by
  have literal : (h.engine s.slot).Literal := ⟨genuine.save, genuine.load, genuine.scan⟩
  constructor
  case scans =>
    intro σ target options handler own call kept code
    exact scan_ne_engine live genuine.scan well target options handler own code kept
  case saves => exact save_ne_engine live literal
  case savesBytes => exact saveBytes_ne_engine live literal
  case destroys => exact destroy_ok live genuine.destroyRules

/-! ## Loading -/

variable {r : Owner} {text : String} {content : Bytes}

/-- What comes of loading a file with some content. -/
structure LoadsContent (r : Owner) (h : Host) (text : String) (content : Bytes) : Prop where
  either : (∃ code, Pattern.Refused content code) ∨
    ∃ patterns, Pattern.Stores content patterns
  trailing : ∀ whole extra a, content = whole ++ extra → Pattern.Holds whole a →
    (∃ b ∈ extra, ¬Json.Blank b) → Pattern.Refused content Code.corruptFile
  /-- Nothing has changed but the log and the engine's trace. -/
  refused : ∀ code, Pattern.Refused content code → ∃ after,
    load r (.ofText text) h = (.error (.corruptArtifact (.ofText text) code), after) ∧
      after.untraced = h.untraced ∧ ∀ owner : Owner, owner.liveResources after = owner.liveResources h
  accepted : ∀ patterns, Pattern.Stores content patterns → ∃ loaded after,
    load r (.ofText text) h = (.ok loaded, after) ∧ loaded.slot = r.slot ∧
      loaded.patterns? after = some patterns
  /-- From then on until a call destroys the rule set, whatever else the engine is called for. -/
  untroubled : (h.engine r.slot).faults.Genuine → (h.engine r.slot).faults.scans = Code.success →
    ∀ loaded after, load r (.ofText text) h = (.ok loaded, after) →
      ∀ later calls, (after.engine r.slot).Passes calls (later.engine r.slot) →
        (∀ call ∈ calls, call.destroys? ≠ some (.rules loaded.handle)) → loaded.Untroubled later

theorem load_of_refused (started : r.slot < h.engines.length)
    (own : (h.engine r.slot).faults.load = none)
    (holds : h.files.readFile (.ofText text) = .ok content) {code : Code}
    (refused : Pattern.Refused content code) : ∃ after,
    load r (.ofText text) h = (.error (.corruptArtifact (.ofText text) code), after) ∧
      after.untraced = h.untraced := by
  have course := load_course r started own (.ofText text)
  rw [loadedFrom_of_readFile holds, Pattern.load_of_refused refused, Except.mapError,
    refused.loadError] at course
  exact course

theorem load_of_stores (started : r.slot < h.engines.length)
    (own : (h.engine r.slot).faults.load = none)
    (holds : h.files.readFile (.ofText text) = .ok content)
    (stores : Pattern.Stores content patterns) :
    ∃ loaded after, load r (.ofText text) h = (.ok loaded, after) ∧ loaded.slot = r.slot ∧
      loaded.patterns? after = some patterns ∧ h.Extends after := by
  have course := load_course r started own (.ofText text)
  rw [loadedFrom_of_readFile holds, Pattern.load_of_stores stores, Except.mapError] at course
  obtain ⟨loaded, after, goes, slot, live, _, later⟩ := course
  exact ⟨loaded, after, goes, slot, live, later⟩

theorem untroubled_later {loaded : RuleSet} {after later : Host} {calls : List EngineCall}
    (live : loaded.patterns? after = some patterns)
    (genuine : (after.engine loaded.slot).faults.Genuine)
    (well : (after.engine loaded.slot).faults.scans = Code.success)
    (passes : (after.engine loaded.slot).Passes calls (later.engine loaded.slot))
    (spared : ∀ call ∈ calls, call.destroys? ≠ some (.rules loaded.handle)) :
    loaded.Untroubled later := by
  have still : loaded.patterns? later = some patterns := passes.rules _ _ live spared
  apply untroubled_of_live still
  · rw [passes.faults]
    exact genuine
  · rw [passes.faults]
    exact well

/-- A readable file is loaded or refused for what it holds. -/
theorem load_of_content (r : Owner) (h : Host) (started : r.slot < h.engines.length)
    (own : (h.engine r.slot).faults.load = none) {text : String} {content : Bytes}
    (holds : h.files.readFile (.ofText text) = .ok content) : LoadsContent r h text content := by
  constructor
  case either => exact Pattern.refused_or_stores content
  case trailing =>
    rintro whole extra a rfl whole visible
    exact Pattern.refused_of_trailing whole visible
  case refused =>
    intro code refused
    obtain ⟨after, goes, same⟩ := load_of_refused started own holds refused
    refine ⟨after, goes, same, fun owner => ?_⟩
    have slots : (after.slot owner.slot).untraced = (h.slot owner.slot).untraced := by
      rw [← Host.slot_untraced, same, Host.slot_untraced]
    have holders := congrArg EngineSlot.holders slots
    exact congrArg (· - 1) holders
  case accepted =>
    intro patterns stores
    obtain ⟨loaded, after, goes, slot, live, _⟩ := load_of_stores started own holds stores
    exact ⟨loaded, after, goes, slot, live⟩
  case untroubled =>
    intro genuine well loaded after goes later calls passes spared
    -- Only a content that stores a rule set could have been loaded.
    rcases Pattern.refused_or_stores content with ⟨code, refused⟩ | ⟨patterns, stores⟩
    · obtain ⟨_, failed, _⟩ := load_of_refused started own holds refused
      cases goes.symm.trans failed
    · obtain ⟨_, _, loads, slot, live, later⟩ := load_of_stores started own holds stores
      cases goes.symm.trans loads
      rw [← slot] at passes genuine well
      apply untroubled_later live ?_ ?_ passes spared
      · rw [later.faults]
        exact genuine
      · rw [later.faults]
        exact well

/-- An artifact that no compiler makes: its fields are in another order and one is unknown, its
patterns are arrays with one identifier twice, and blanks surround it. -/
def oddArtifact : Bytes := Utf8.encode
  "\x7b \"rules\": [[\"n\",\"r\",\"\",[],[[\"k\",-1]]],[\"n\",\"r\",\"\",[],[]]],
    \"note\": [1e9], \"format\": \"literal-rules\", \"version\": 1\x7d "

def oddRules : List Pattern := [⟨"n", "r", "", [], [("k", .integer (-1))]⟩, ⟨"n", "r", "", [], []⟩]

def wideArtifact : Bytes := Utf8.encode
  "\x7b\"format\":\"other\",\"version\":4294967296,\"rules\":[]\x7d"

def oddHost : Host where
  files := ⟨[([Utf8.encode "odd"], .file oddArtifact), ([Utf8.encode "wide"], .file wideArtifact)],
    []⟩
  tempDir := .ofText ""
  engines := [{ holders := 1 }]

theorem load_of_content_of_odd_files :
    (∃ loaded after, load ⟨0⟩ (.ofText "odd") oddHost = (.ok loaded, after) ∧
      loaded.patterns? after = some oddRules ∧ loaded.Untroubled after) ∧
    ∃ after, load ⟨0⟩ (.ofText "wide") oddHost =
      (.error (.corruptArtifact (.ofText "wide") 7), after) ∧ after.untraced = oddHost.untraced := by
  have odd : oddHost.files.openObject (.ofText "odd") = .ok (.file oddArtifact) :=
    FileTree.openObject_of_entry rfl rfl rfl ⟨by decide, by decide, by decide, by decide⟩ rfl rfl
  have wide : oddHost.files.openObject (.ofText "wide") = .ok (.file wideArtifact) :=
    FileTree.openObject_of_entry rfl rfl rfl ⟨by decide, by decide, by decide, by decide⟩ rfl rfl
  have loads := load_of_content ⟨0⟩ oddHost (by decide) rfl (FileTree.readFile_eq_ok_iff.mpr odd)
  have fails := load_of_content ⟨0⟩ oddHost (by decide) rfl (FileTree.readFile_eq_ok_iff.mpr wide)
  have stored : Pattern.load oddArtifact = .ok oddRules := by decide +kernel
  have refused : Pattern.load wideArtifact = .error 7 := by decide +kernel
  constructor
  · obtain ⟨loaded, after, goes, slot, live⟩ :=
      loads.accepted oddRules (Pattern.load_eq_ok_iff.mp stored)
    exact ⟨loaded, after, goes, live,
      loads.untroubled rfl rfl loaded after goes after [] (.refl _) (by simp)⟩
  · obtain ⟨after, goes, same, _⟩ := fails.refused 7 (Pattern.load_eq_error_iff.mp refused)
    exact ⟨after, goes, same⟩

/-! ## Torn files -/

inductive SavedAs (s : RuleSet) (h : Host) (bytes : Bytes) : Prop
  | file {place : String} {saved : Host} (saves : s.save (.ofText place) h = (.ok (), saved))
      (holds : saved.files.readFile (.ofText place) = .ok bytes)
  | bytes {saved : Host} (named : ∃ dir, h.tempDir = .ofText dir)
      (saves : s.saveBytes h = (.ok bytes, saved))

theorem readFile_saved (live : s.patterns? h = some patterns) (literal : (h.engine s.slot).Literal)
    {place : String} {saved : Host} (saves : s.save (.ofText place) h = (.ok (), saved)) :
    saved.files.readFile (.ofText place) = .ok (Pattern.save patterns) := by
  have same := s.save_eq live literal (.ofText place)
  rw [saves] at same
  unfold savedAt at same
  split at same
  case h_1 => cases (Prod.mk.inj same).1
  case h_2 =>
    split at same
    case h_1 written wrote =>
      rw [Path.shownPath_ofText] at wrote
      rw [show saved.files = written from (Prod.mk.inj same).2]
      exact FileTree.readFile_written wrote
    case h_2 => cases (Prod.mk.inj same).1

theorem SavedAs.eq (live : s.patterns? h = some patterns) (literal : (h.engine s.slot).Literal)
    {bytes : Bytes} (saved : s.SavedAs h bytes) : bytes = Pattern.save patterns := by
  cases saved with
  | file saves holds =>
      rw [readFile_saved live literal saves] at holds
      exact (Except.ok.inj holds).symm
  | bytes named saves =>
      obtain ⟨dir, named⟩ := named
      obtain ⟨text, fresh⟩ : ∃ text, h.files.freshPath h.tempDir = .ofText text := by
        rw [named]
        exact h.files.freshPath_ofText dir
      unfold saveBytes makeTemp at saves
      rw [fresh] at saves
      dsimp only at saves
      cases wrote : h.files.writeFile (.ofText text) [] with
      | error cause =>
          rw [wrote] at saves
          cases saves
      | ok files =>
          rw [wrote] at saves
          dsimp only at saves
          rcases filled : s.save (.ofText text) { h with files := files } with ⟨result, after⟩
          rw [filled] at saves
          cases result with
          | error e => cases saves
          | ok _ =>
              have read := readFile_saved (h := { h with files := files }) live literal filled
              dsimp only at saves
              rw [read] at saves
              exact (Except.ok.inj (Prod.mk.inj saves).1).symm

/-- No owner takes torn bytes for a rule set. -/
structure Spurns (r : Owner) (h : Host) (content : Bytes) : Prop where
  file : ∀ text, h.files.readFile (.ofText text) = .ok content → ∃ after,
    load r (.ofText text) h = (.error (.corruptArtifact (.ofText text) Code.corruptFile), after) ∧
      after.untraced = h.untraced
  bytes : h.TempReady → ∃ after, loadBytes r content h =
    (.error (.corruptArtifact (h.files.freshPath h.tempDir) Code.corruptFile), after) ∧
      after.untraced = h.untraced

theorem spurns_of_refused (started : r.slot < h.engines.length)
    (own : (h.engine r.slot).faults.load = none)
    (refused : Pattern.Refused content Code.corruptFile) : Spurns r h content where
  file text holds := load_of_refused started own holds refused
  bytes ready := by
    obtain ⟨text, full, path, holds, goes⟩ := loadBytes_eq r ready content
    obtain ⟨after, fails, same⟩ :=
      load_of_refused (h := { h with files := full }) started own holds refused
    have kept : after.files = full := (congrArg Host.files same :)
    rw [path]
    refine ⟨{ after with files := h.files }, goes _ after fails kept, ?_⟩
    exact Host.untraced_files same h.files

/-- What a rule set has been saved as is loaded whole and not once it is torn, by any owner on any
host. -/
theorem load_of_torn (s : RuleSet) (h : Host) {patterns : List Pattern}
    (live : s.patterns? h = some patterns) (literal : (h.engine s.slot).Literal) {whole : Bytes}
    (saved : s.SavedAs h whole) (r : Owner) (other : Host) (started : r.slot < other.engines.length)
    (own : (other.engine r.slot).faults.load = none) :
    (∀ text, other.files.readFile (.ofText text) = .ok whole → ∃ loaded after,
      load r (.ofText text) other = (.ok loaded, after) ∧ loaded.patterns? after = some patterns) ∧
    ∀ content, Pattern.Torn whole content → Spurns r other content := by
  rw [saved.eq live literal]
  constructor
  · intro text holds
    obtain ⟨loaded, after, goes, _, found, _⟩ :=
      load_of_stores started own holds (Pattern.stores_save patterns)
    exact ⟨loaded, after, goes, found⟩
  · intro content torn
    exact spurns_of_refused started own torn.refused

def tornHost : Host where
  files := ⟨[([Utf8.encode "whole"], .file (Pattern.save [someRule])),
    ([Utf8.encode "torn"], .file (Pattern.save [someRule]).dropLast)], []⟩
  tempDir := .ofText ""
  engines := [{ holders := 1 }]

theorem load_of_torn_at_the_end :
    (∃ loaded after, load ⟨0⟩ (.ofText "whole") tornHost = (.ok loaded, after) ∧
      loaded.patterns? after = some [someRule]) ∧
    (load ⟨0⟩ (.ofText "torn") tornHost).1 =
      .error (.corruptArtifact (.ofText "torn") Code.corruptFile) := by
  obtain ⟨full, filled⟩ : ∃ full,
      bareHost.files.writeFile (.ofText "rules") (Pattern.save [someRule]) = .ok full :=
    FileTree.writeFile_nothing rfl rfl ⟨by decide, by decide, by decide, by decide⟩ rfl _
  obtain ⟨saved, saves, _⟩ := soleRules.save_ok soleRules_live bareHost_literal filled
  have savedAs : soleRules.SavedAs bareHost (Pattern.save [someRule]) :=
    .file saves (readFile_saved soleRules_live bareHost_literal saves)
  have nonempty : Pattern.save [someRule] ≠ [] := by decide +kernel
  have torn : Pattern.Torn (Pattern.save [someRule]) (Pattern.save [someRule]).dropLast :=
    .cut (List.cons_ne_nil _ []) (List.dropLast_append_getLast nonempty)
  have whole : tornHost.files.openObject (.ofText "whole") =
      .ok (.file (Pattern.save [someRule])) :=
    FileTree.openObject_of_entry rfl rfl rfl ⟨by decide, by decide, by decide, by decide⟩ rfl rfl
  have short : tornHost.files.openObject (.ofText "torn") =
      .ok (.file (Pattern.save [someRule]).dropLast) :=
    FileTree.openObject_of_entry rfl rfl rfl ⟨by decide, by decide, by decide, by decide⟩ rfl rfl
  obtain ⟨loads, spurns⟩ := load_of_torn soleRules bareHost soleRules_live bareHost_literal savedAs
    ⟨0⟩ tornHost (by decide) rfl
  refine ⟨loads "whole" (FileTree.readFile_eq_ok_iff.mpr whole), ?_⟩
  obtain ⟨after, fails, _⟩ :=
    (spurns _ torn).file "torn" (FileTree.readFile_eq_ok_iff.mpr short)
  rw [fails]

end RuleSet

end Needle
