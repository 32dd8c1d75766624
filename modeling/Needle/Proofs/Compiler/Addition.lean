import Needle.Compiler
import Needle.Proofs.Host
import Needle.Proofs.Lookup

/-!
# One addition to a compiler

What comes of a rule text that is added to a compiler depends on the compiler's own state and on
what the engine finds in the text. The two sides of a session, the compiler and the engine's part of
it, move together: as long as the compiler has not failed, the engine has counted no faulty line.
-/
set_option autoImplicit false

namespace Needle

open Pattern

/-- A rule text for a compiler: given as such, or in a file. -/
inductive RuleText where
  | text (content : String)
  | file (path : Path)

def RuleText.readContent (ns : String) (known : List Pattern) (path : Path) :
    Except IoError String → Progress
  | .ok content => Source.read ⟨ns, some path.display, known⟩ content.toList
  | .error cause => { diagnostics := [⟨.error, some path.display, 0, cause.text⟩], errors := 1 }

/-- What an engine finds in a rule text, where the session holds some patterns already; or why the
text does not get to the engine. -/
def RuleText.read (files : FileTree) (ns : String) (known : List Pattern) :
    RuleText → Except Error Progress
  | .text content => do
    let _ ← Plain.namespaceName ns
    let _ ← Plain.text content "rule source"
    return Source.read ⟨ns, none, known⟩ content.toList
  | .file path => do
    let _ ← Plain.namespaceName ns
    let _ ← Plain.path path
    let content ← Compiler.sourceFile files path
    return readContent ns known path (FileTree.textOf content)

theorem ok_of_bind {α β : Type} {first : Except Error α} {next : α → Except Error β} {last : β}
    (bound : first >>= next = .ok last) : ∃ a, first = .ok a ∧ next a = .ok last := by
  cases first with
  | error e => contradiction
  | ok a => exact ⟨a, rfl, bound⟩

section Refusals

variable {e : Error} {ns : String}

theorem Plain.text_eq_error {value what : String} (refused : Plain.text value what = .error e) :
    ∃ message, e = .invalidArgument message := by
  unfold Plain.text at refused
  split at refused
  · cases refused
    exact ⟨_, rfl⟩
  · contradiction

theorem Plain.namespaceName_eq_error (refused : Plain.namespaceName ns = .error e) :
    ∃ message, e = .invalidArgument message := by
  unfold Plain.namespaceName at refused
  split at refused
  · cases refused
    exact ⟨_, rfl⟩
  · exact Plain.text_eq_error refused

theorem Plain.text_eq_ok_iff {value what : String} {bytes : Bytes} :
    Plain.text value what = .ok bytes ↔ '\x00' ∉ value.toList ∧ Utf8.encode value = bytes := by
  unfold Plain.text
  split
  case isTrue nul =>
    exact iff_of_false nofun fun both => both.1 (List.contains_iff_mem.mp nul)
  case isFalse free =>
    rw [Except.ok.injEq]
    exact (and_iff_right fun nul => free (List.contains_iff_mem.mpr nul)).symm

theorem Plain.namespaceName_eq_ok_iff {value : String} {bytes : Bytes} :
    Plain.namespaceName value = .ok bytes ↔
      value ≠ "" ∧ '\x00' ∉ value.toList ∧ Utf8.encode value = bytes := by
  unfold Plain.namespaceName
  split
  case isTrue empty =>
    exact iff_of_false nofun fun both => both.1 (String.isEmpty_iff.mp empty)
  case isFalse some =>
    rw [Plain.text_eq_ok_iff]
    exact (and_iff_right fun empty => some (String.isEmpty_iff.mpr empty)).symm

theorem Plain.path_eq_error {path : Path} (refused : Plain.path path = .error e) :
    ∃ message, e = .invalidArgument message := by
  unfold Plain.path at refused
  split at refused
  · cases refused
    exact ⟨_, rfl⟩
  · contradiction

theorem Compiler.sourceFile_eq_error {files : FileTree} {path : Path}
    (refused : Compiler.sourceFile files path = .error e) : ∃ cause, e = .fileRead path cause := by
  unfold Compiler.sourceFile at refused
  split at refused
  case h_1 => contradiction
  case h_2 =>
    cases refused
    exact ⟨_, rfl⟩
  case h_3 =>
    cases refused
    exact ⟨_, rfl⟩

/-- A text does not get to the engine because of an argument or of its file. -/
theorem RuleText.read_eq_error {files : FileTree} {known : List Pattern} {t : RuleText}
    (refused : t.read files ns known = .error e) :
    (∃ message, e = .invalidArgument message) ∨ ∃ path cause, e = .fileRead path cause := by
  cases t with
  | text content =>
      simp only [RuleText.read] at refused
      cases name : Plain.namespaceName ns with
      | error cause =>
          rw [name] at refused
          cases refused
          exact .inl (Plain.namespaceName_eq_error name)
      | ok _ =>
          cases plain : Plain.text content "rule source" with
          | error cause =>
              rw [name, plain] at refused
              cases refused
              exact .inl (Plain.text_eq_error plain)
          | ok _ =>
              rw [name, plain] at refused
              cases refused
  | file path =>
      simp only [RuleText.read] at refused
      cases name : Plain.namespaceName ns with
      | error cause =>
          rw [name] at refused
          cases refused
          exact .inl (Plain.namespaceName_eq_error name)
      | ok _ =>
          cases plain : Plain.path path with
          | error cause =>
              rw [name, plain] at refused
              cases refused
              exact .inl (Plain.path_eq_error plain)
          | ok _ =>
              cases opened : Compiler.sourceFile files path with
              | error cause =>
                  rw [name, plain, opened] at refused
                  cases refused
                  exact .inr ⟨path, Compiler.sourceFile_eq_error opened⟩
              | ok content =>
                  rw [name, plain, opened] at refused
                  cases refused

end Refusals

namespace Pattern.Progress

def warnings (p : Progress) : List Diagnostic := p.diagnostics.filter (·.severity = .warning)

/-- The patterns that a session gains: all of them, or none if a line is faulty. -/
def gained (p : Progress) : List Pattern := if p.errors = 0 then p.added else []

def result (p : Progress) (ns : String) : Except Error Unit :=
  if 0 < p.errors then .error (.compile ns p.errors p.diagnostics) else .ok ()

end Pattern.Progress

namespace Engine

/-- The engine has read a text for a compiler, in one call: the session has its patterns and counts
its faults. -/
structure HasRead (before after : Engine) (handle : Handle) (session : CompilerSession)
    (p : Progress) : Prop where
  faults : after.faults = before.faults
  calls : ∃ call, after.calls = before.calls ++ [call]
  left : ∃ left, after.compiler? handle = some left ∧
    left.patterns = session.patterns ++ p.gained ∧ (p.errors = 0 → left.errors = session.errors)

variable {handle : Handle} {session : CompilerSession}

/-- The session after a text, in full. -/
theorem addSource_found (e : Engine) (found : e.compiler? handle = some session) (ns : String)
    (file : Option String) (text : String) :
    let p := Source.read ⟨ns, file, session.patterns⟩ text.toList
    ∃ after, e.addSource handle ns file text = ((p.errors, p.diagnostics), after) ∧
      after.compiler? handle = some (session.add p) ∧ after.faults = e.faults ∧
      after.calls = e.calls := by
  intro p
  let update : Handle × CompilerSession → Handle × CompilerSession :=
    fun entry => if entry.1 = handle then (entry.1, entry.2.add p) else entry
  have updates (k : Handle) (s : CompilerSession) :
      update (k, s) = if k = handle then (k, s.add p) else (k, s) := rfl
  have updated := lookup_map_update updates e.compilers handle
  have there : e.compilers.lookup handle = some session := found
  rw [if_pos rfl, there] at updated
  unfold addSource
  rw [found]
  exact ⟨_, rfl, updated, rfl, rfl⟩

theorem addSource_eq (e : Engine) (found : e.compiler? handle = some session) (call : EngineCall)
    (ns : String) (file : Option String) (text : String) :
    let p := Source.read ⟨ns, file, session.patterns⟩ text.toList
    ∃ after, (e.trace call).addSource handle ns file text = ((p.errors, p.diagnostics), after) ∧
      e.HasRead after handle session p := by
  intro p
  obtain ⟨after, added, left, faults, calls⟩ := (e.trace call).addSource_found found ns file text
  refine ⟨after, added, faults, ⟨call, calls⟩, session.add p, left, ?_, ?_⟩
  · unfold CompilerSession.add Progress.gained
    split
    · rfl
    · exact (List.append_nil _).symm
  · intro clean
    unfold CompilerSession.add
    rw [clean]
    rfl

theorem addText_eq (e : Engine) (genuine : e.faults.Genuine)
    (found : e.compiler? handle = some session) (ns text : String) :
    let p := Source.read ⟨ns, none, session.patterns⟩ text.toList
    ∃ after, e.addText handle ns text = ((p.errors, p.diagnostics), after) ∧
      e.HasRead after handle session p := by
  intro p
  let call := EngineCall.addText handle ns (Utf8.encode text).length
  have asked : (e.trace call).faults.add = none := genuine.add
  obtain ⟨after, added, read⟩ := e.addSource_eq found call ns none text
  refine ⟨after, ?_, read⟩
  unfold addText
  simp only [call] at asked added
  simp only [asked, added, p]

/-- A content that cannot be read leaves the session as it was. -/
theorem addFile_eq (e : Engine) (genuine : e.faults.Genuine)
    (found : e.compiler? handle = some session) (ns : String) (path : Path)
    (content : Except IoError String) :
    let p := RuleText.readContent ns session.patterns path content
    ∃ after, e.addFile handle ns path content = ((p.errors, p.diagnostics), after) ∧
      e.HasRead after handle session p := by
  intro p
  let call := EngineCall.addFile handle ns path
  have asked : (e.trace call).faults.add = none := genuine.add
  cases content with
  | ok text =>
      obtain ⟨after, added, read⟩ := e.addSource_eq found call ns (some path.display) text
      refine ⟨after, ?_, read⟩
      unfold addFile
      simp only [call] at asked added
      simp only [asked, added, p, RuleText.readContent]
  | error cause =>
      have nothing : session.patterns = session.patterns ++ p.gained := (List.append_nil _).symm
      refine ⟨e.trace call, ?_, rfl, ⟨call, rfl⟩, session, found, nothing, fun _ => rfl⟩
      unfold addFile
      simp only [call] at asked
      simp only [asked, p, RuleText.readContent, call]

end Engine

namespace Compiler

def add (c : Compiler) (ns : String) (h : Host) : RuleText → Except Error Unit × Compiler × Host
  | .text content => c.addText ns content h
  | .file path => c.addFile ns path h

/-- A compiler with its session on a genuine engine, which holds some patterns. -/
structure Live (c : Compiler) (h : Host) (known : List Pattern) : Prop where
  started : c.slot < h.engines.length
  genuine : (h.engine c.slot).faults.Genuine
  held : ∃ session, (h.engine c.slot).compiler? c.handle = some session ∧
    session.patterns = known ∧ (c.failed = none → session.errors = 0)

def told (c : Compiler) (ns : String) (p : Progress) : Compiler :=
  let c := { c with warnings := c.warnings ++ p.warnings }
  if 0 < p.errors then { c with failed := some p.errors }
  else
    let namespaces := if c.namespaces.contains ns then c.namespaces else c.namespaces ++ [ns]
    { c with namespaces := namespaces, sources := c.sources + 1 }

theorem told_slot (c : Compiler) (ns : String) (p : Progress) :
    (c.told ns p).slot = c.slot ∧ (c.told ns p).handle = c.handle := by
  unfold told
  dsimp only
  split
  · exact ⟨rfl, rfl⟩
  · exact ⟨rfl, rfl⟩

theorem told_failed (c : Compiler) (ns : String) (p : Progress) :
    (c.told ns p).failed = if 0 < p.errors then some p.errors else c.failed := by
  unfold told
  dsimp only
  split
  · rfl
  · rfl

theorem told_warnings (c : Compiler) (ns : String) (p : Progress) :
    (c.told ns p).warnings = c.warnings ++ p.warnings := by
  unfold told
  dsimp only
  split
  · rfl
  · rfl

theorem told_of_faultless (c : Compiler) (ns : String) {p : Progress} (faultless : ¬0 < p.errors) :
    (c.told ns p).failed = c.failed ∧ (c.told ns p).failOnWarnings = c.failOnWarnings := by
  unfold told
  dsimp only
  rw [if_neg faultless]
  exact ⟨rfl, rfl⟩

/-- All that an addition can come to. -/
inductive Adds (c : Compiler) (ns : String) (h : Host) (t : RuleText) (known : List Pattern) :
    Except Error Unit × Compiler × Host → Prop
  | failed {errors : Nat} (failed : c.failed = some errors) :
      Adds c ns h t known (.error (.sessionFailed errors), c, h)
  | unfit {e : Error} (usable : c.failed = none) (unfit : t.read h.files ns known = .error e) :
      Adds c ns h t known (.error e, c, h)
  | read {p : Progress} {after : Host} (usable : c.failed = none)
      (read : t.read h.files ns known = .ok p)
      (live : (c.told ns p).Live after (known ++ p.gained)) (files : after.files = h.files)
      (called : ∃ call, (after.engine c.slot).calls = (h.engine c.slot).calls ++ [call]) :
      Adds c ns h t known (p.result ns, c.told ns p, after)

theorem absorb_eq (c : Compiler) (ns : String) (p : Progress) (h : Host) :
    ∃ after, c.absorb ns p.errors p.diagnostics h = (p.result ns, c.told ns p, after) ∧
      after.engines = h.engines ∧ after.files = h.files := by
  have noted (ds : List Diagnostic) (h : Host) :
      (ds.foldl (fun h d => h.note (.compileWarning d)) h).engines = h.engines ∧
        (ds.foldl (fun h d => h.note (.compileWarning d)) h).files = h.files := by
    induction ds generalizing h with
    | nil => exact ⟨rfl, rfl⟩
    | cons d rest ih => exact ih (h.note (.compileWarning d))
  refine ⟨p.warnings.foldl (fun h d => h.note (.compileWarning d)) h, ?_, noted p.warnings h⟩
  unfold absorb told Progress.result
  dsimp only
  split
  · rfl
  · rfl

theorem Live.read {c : Compiler} {h : Host} {known : List Pattern} (live : c.Live h known)
    (ns : String) {p : Progress} (note : Note)
    (ask : Engine → (Nat × List Diagnostic) × Engine) {e : Engine}
    (asked : ask (h.engine c.slot) = ((p.errors, p.diagnostics), e)) {session : CompilerSession}
    (holds : session.patterns = known) (clean : session.errors = 0)
    (read : (h.engine c.slot).HasRead e c.handle session p) :
    let answered := (h.note note).call c.slot ask
    ∃ after,
      c.absorb ns answered.1.1 answered.1.2 answered.2 = (p.result ns, c.told ns p, after) ∧
      (c.told ns p).Live after (known ++ p.gained) ∧ after.files = h.files ∧
      ∃ call, (after.engine c.slot).calls = (h.engine c.slot).calls ++ [call] := by
  let changed := (h.note note).setSlot c.slot fun slot => { slot with engine := e }
  obtain ⟨after, absorbed, engines, files⟩ := c.absorb_eq ns p changed
  obtain ⟨slot, handle⟩ := c.told_slot ns p
  have here : after.engine c.slot = e := by
    have set := (h.note note).engine_setSlot c.slot (fun slot => { slot with engine := e }) c.slot
    rw [if_pos ⟨rfl, live.started⟩] at set
    unfold Host.engine Host.slot at set ⊢
    rw [engines]
    exact set
  refine ⟨after, ?_, ?_, files, ?_⟩
  · unfold Host.call
    rw [show (h.note note).engine c.slot = h.engine c.slot from rfl, asked]
    exact absorbed
  · obtain ⟨left, found, patterns, errors⟩ := read.left
    constructor
    case started =>
      rw [slot, engines]
      exact (Host.length_setSlot ..).symm ▸ live.started
    case genuine =>
      rw [slot, here, read.faults]
      exact live.genuine
    case held =>
      rw [slot, handle, here]
      refine ⟨left, found, patterns.trans (congrArg (· ++ p.gained) holds), ?_⟩
      intro sound
      rw [told_failed] at sound
      split at sound
      · contradiction
      case isFalse faultless => rw [errors (Nat.eq_zero_of_not_pos faultless), clean]
  · rw [here]
    exact read.calls

theorem add_of_failed (c : Compiler) {errors : Nat} (failed : c.failed = some errors) (ns : String)
    (h : Host) (t : RuleText) : c.add ns h t = (.error (.sessionFailed errors), c, h) := by
  have refused : c.accepts ns = .error (.sessionFailed errors) := by
    unfold accepts usable
    rw [failed]
    rfl
  cases t with
  | text content => simp only [add, addText, refused]
  | file path => simp only [add, addFile, refused]

theorem accepts_of_usable (c : Compiler) (sound : c.failed = none) (ns : String) :
    c.accepts ns = (Plain.namespaceName ns).map fun _ => () := by
  unfold accepts usable
  rw [sound]
  cases Plain.namespaceName ns with
  | error e => rfl
  | ok _ => rfl

theorem Live.adds_text {c : Compiler} {h : Host} {known : List Pattern} (live : c.Live h known)
    (usable : c.failed = none) (ns content : String) :
    Adds c ns h (.text content) known (c.addText ns content h) := by
  have accepted := c.accepts_of_usable usable ns
  unfold addText
  rw [accepted]
  cases name : Plain.namespaceName ns with
  | error e => exact .unfit usable (by simp only [RuleText.read, name]; rfl)
  | ok _ =>
      cases plain : Plain.text content "rule source" with
      | error e => exact .unfit usable (by simp only [RuleText.read, name, plain]; rfl)
      | ok _ =>
          obtain ⟨session, found, rfl, clean⟩ := live.held
          obtain ⟨e, asked, read⟩ := (h.engine c.slot).addText_eq live.genuine found ns content
          obtain ⟨after, absorbed, lives, files, called⟩ := live.read ns (.compilingText ns)
            (fun e => e.addText c.handle ns content) asked rfl (clean usable) read
          simp only [Except.map]
          rw [absorbed]
          exact .read usable (by simp only [RuleText.read, name, plain]; rfl) lives files called

theorem Live.adds_file {c : Compiler} {h : Host} {known : List Pattern} (live : c.Live h known)
    (usable : c.failed = none) (ns : String) (path : Path) :
    Adds c ns h (.file path) known (c.addFile ns path h) := by
  have accepted := c.accepts_of_usable usable ns
  unfold addFile
  rw [accepted]
  cases name : Plain.namespaceName ns with
  | error e => exact .unfit usable (by simp only [RuleText.read, name]; rfl)
  | ok _ =>
      cases plain : Plain.path path with
      | error e => exact .unfit usable (by simp only [RuleText.read, name, plain]; rfl)
      | ok _ =>
          cases opened : sourceFile h.files path with
          | error e => exact .unfit usable (by simp only [RuleText.read, name, plain, opened]; rfl)
          | ok content =>
              obtain ⟨session, found, rfl, clean⟩ := live.held
              obtain ⟨e, asked, read⟩ := (h.engine c.slot).addFile_eq live.genuine found ns path
                (FileTree.textOf content)
              obtain ⟨after, absorbed, lives, files, called⟩ := live.read ns
                (.compilingFile path ns)
                (fun e => e.addFile c.handle ns path (FileTree.textOf content)) asked rfl
                (clean usable) read
              simp only [Except.map]
              rw [absorbed]
              exact .read usable (by simp only [RuleText.read, name, plain, opened]; rfl)
                lives files called

theorem Live.adds {c : Compiler} {h : Host} {known : List Pattern} (live : c.Live h known)
    (ns : String) (t : RuleText) : Adds c ns h t known (c.add ns h t) := by
  cases usable : c.failed with
  | some errors =>
      rw [c.add_of_failed usable]
      exact .failed usable
  | none =>
      cases t with
      | text content => exact live.adds_text usable ns content
      | file path => exact live.adds_file usable ns path

/-! ## Texts as such -/

structure Fit (ns content : String) : Prop where
  named : ns ≠ ""
  ns : '\x00' ∉ ns.toList
  content : '\x00' ∉ content.toList

theorem read_text_eq_ok_iff {files : FileTree} {ns content : String} {known : List Pattern}
    {p : Progress} :
    RuleText.read files ns known (.text content) = .ok p ↔
      Fit ns content ∧ Source.read ⟨ns, none, known⟩ content.toList = p := by
  simp only [RuleText.read]
  constructor
  · intro read
    cases name : Plain.namespaceName ns with
    | error e => rw [name] at read; contradiction
    | ok bytes =>
        cases plain : Plain.text content "rule source" with
        | error e => rw [name, plain] at read; contradiction
        | ok _ =>
            rw [name, plain] at read
            obtain ⟨named, free, -⟩ := Plain.namespaceName_eq_ok_iff.mp name
            exact ⟨⟨named, free, (Plain.text_eq_ok_iff.mp plain).1⟩, Except.ok.inj read⟩
  · rintro ⟨fit, rfl⟩
    rw [Plain.namespaceName_eq_ok_iff.mpr ⟨fit.named, fit.ns, rfl⟩,
      Plain.text_eq_ok_iff.mpr ⟨fit.content, rfl⟩]
    rfl

theorem Live.added_text {c : Compiler} {h : Host} {known : List Pattern} (live : c.Live h known)
    (usable : c.failed = none) (ns content : String) :
    let p := Source.read ⟨ns, none, known⟩ content.toList
    let added := c.addText ns content h
    (added.1 = .ok () ↔ Fit ns content ∧ p.errors = 0) ∧
      (added.1 = .ok () → added.2.1.Live added.2.2 (known ++ p.added) ∧
        added.2.1.failed = none ∧ added.2.1.warnings = c.warnings ++ p.warnings ∧
        added.2.1.failOnWarnings = c.failOnWarnings) := by
  intro p added
  have adds : Adds c ns h (.text content) known added := live.adds_text usable ns content
  generalize added = outcome at adds
  cases adds with
  | failed failed =>
      rw [usable] at failed
      contradiction
  | unfit _ unfit =>
      refine ⟨iff_of_false nofun fun both => ?_, nofun⟩
      rw [read_text_eq_ok_iff.mpr ⟨both.1, rfl⟩] at unfit
      contradiction
  | read _ read lives _ _ =>
      obtain ⟨fit, rfl⟩ := read_text_eq_ok_iff.mp read
      unfold Progress.result
      by_cases faulty : 0 < p.errors
      · rw [if_pos faulty]
        exact ⟨iff_of_false nofun fun both => (Nat.pos_iff_ne_zero.mp faulty) both.2, nofun⟩
      · have none : p.errors = 0 := Nat.eq_zero_of_not_pos faulty
        rw [Progress.gained, if_pos none] at lives
        rw [if_neg faulty]
        obtain ⟨sound, strict⟩ := c.told_of_faultless ns faulty
        exact ⟨iff_of_true rfl ⟨fit, none⟩,
          fun _ => ⟨lives, sound.trans usable, c.told_warnings ns p, strict⟩⟩
end Compiler

end Needle
