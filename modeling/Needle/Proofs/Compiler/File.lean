import Needle.Proofs.Compiler.Addition
import Needle.Proofs.File.Read
import Needle.Proofs.Untraced
import Needle.Proofs.Utf8

/-!
# Rule texts in files

A file is read as its text is, with the shown path as the place of every diagnostic. So adding a
file leaves a compiler and its engine as adding its text does; what is no text, or cannot be read,
is told apart from a faulty line only by the error.
-/
set_option autoImplicit false

namespace Needle

def Diagnostic.inFile (file : String) (d : Diagnostic) : Diagnostic := { d with file := some file }

def Error.inFile (file : String) : Error → Error
  | .compile ns errors diagnostics => .compile ns errors (diagnostics.map (Diagnostic.inFile file))
  | e => e

/-! ## Reading -/

namespace Pattern

def Progress.inFile (file : String) (p : Progress) : Progress :=
  { p with diagnostics := p.diagnostics.map (Diagnostic.inFile file) }

namespace Source

variable (s : Source) (file : String)

def inFile : Source := { s with file := some file }

theorem refuse_inFile (p : Progress) (line : Nat) (message : String) :
    (s.inFile file).refuse (p.inFile file) line message = (s.refuse p line message).inFile file := by
  unfold refuse Progress.inFile
  rw [List.map_append]
  rfl

theorem readPattern_inFile (p : Progress) (line : Nat) (identifier literal : List Char)
    (rest : List (List Char)) :
    (s.inFile file).readPattern (p.inFile file) line identifier literal rest =
      (s.readPattern p line identifier literal rest).inFile file := by
  have placed (severity : Severity) (message : String) :
      (s.inFile file).diagnostic severity line message =
        (s.diagnostic severity line message).inFile file := rfl
  have own : (s.inFile file).ns = s.ns := rfl
  unfold readPattern Progress.inFile
  simp only [placed, own, List.isEmpty_map]
  generalize (rest.map Clause.ofWord).filterMap Clause.unexpected? = unexpected
  by_cases hidden : identifier.head? = some '_'
  · cases unexpected <;> simp [hidden]
  · cases unexpected <;> simp [hidden]

theorem readLine_inFile (p : Progress) (line : Nat) (words : List (List Char)) :
    (s.inFile file).readLine (p.inFile file) line words = (s.readLine p line words).inFile file := by
  unfold readLine
  split
  · rfl
  · rfl
  · exact s.refuse_inFile file p line _
  · rw [show (s.inFile file).taken (p.inFile file).added _ = s.taken p.added _ from rfl]
    split
    · exact s.refuse_inFile file p line _
    · exact s.readPattern_inFile file p line _ _ _

theorem read_inFile (text : List Char) : (s.inFile file).read text = (s.read text).inFile file := by
  unfold read
  generalize (Text.lines text).zipIdx = lines
  -- Both readings start from nothing, but after a line each has some progress of its own.
  suffices every : ∀ p : Progress,
      lines.foldl (fun p numbered =>
        (s.inFile file).readLine p (numbered.2 + 1) (Text.words numbered.1)) (p.inFile file) =
      (lines.foldl (fun p numbered =>
        s.readLine p (numbered.2 + 1) (Text.words numbered.1)) p).inFile file from every {}
  induction lines with
  | nil => exact fun p => rfl
  | cons numbered rest ih =>
      intro p
      rw [List.foldl_cons, List.foldl_cons, readLine_inFile]
      exact ih _

end Source

end Pattern

/-! ## The engine -/

namespace Engine

variable (e : Engine) (handle : Handle) (ns : String)

theorem addSource_trace (call : EngineCall) (file : Option String) (text : String) :
    (e.trace call).addSource handle ns file text =
      ((e.addSource handle ns file text).1, (e.addSource handle ns file text).2.trace call) := by
  unfold addSource
  rw [show (e.trace call).compiler? handle = e.compiler? handle from rfl]
  cases e.compiler? handle with
  | none => rfl
  | some session => rfl

theorem addSource_inFile (file text : String) :
    let given := e.addSource handle ns none text
    e.addSource handle ns (some file) text =
      ((given.1.1, given.1.2.map (Diagnostic.inFile file)), given.2) := by
  unfold addSource
  cases e.compiler? handle with
  | none => rfl
  | some session =>
      have read := Pattern.Source.read_inFile ⟨ns, none, session.patterns⟩ file text.toList
      dsimp only [Pattern.Source.inFile] at read
      simp only [read]
      rfl

/-- A file is added as its text is, but for the place of the diagnostics and the trace. -/
theorem addFile_inFile (own : e.faults.add = none) (path : Path) (text : String) :
    let given := e.addText handle ns text
    let filed := e.addFile handle ns path (.ok text)
    filed.1 = (given.1.1, given.1.2.map (Diagnostic.inFile path.display)) ∧
      filed.2.untraced = given.2.untraced := by
  have asked (call : EngineCall) : (e.trace call).faults.add = none := own
  unfold addText addFile
  simp only [asked, addSource_trace, addSource_inFile]
  exact ⟨trivial, rfl⟩

theorem addFile_notUtf8 (own : e.faults.add = none) (path : Path) :
    let filed := e.addFile handle ns path (.error .notUtf8)
    filed.1 = (1, [⟨.error, some path.display, 0, IoError.notUtf8.text⟩]) ∧
      filed.2.untraced = e.untraced := by
  have asked (call : EngineCall) : (e.trace call).faults.add = none := own
  unfold addFile
  simp only [asked]
  exact ⟨trivial, rfl⟩

end Engine

/-! ## The compiler -/

namespace Compiler

variable (c : Compiler) (ns : String) (h : Host)

/-- The addition of a file comes to what the addition of its text comes to, but for the place of the
diagnostics, the log and the trace. -/
structure AgreesInFile (file : String) (given filed : Except Error Unit × Compiler × Host) :
    Prop where
  result : filed.1 = given.1.mapError (Error.inFile file)
  left : ∃ new, given.2.1.warnings = c.warnings ++ new ∧
    filed.2.1 = { given.2.1 with warnings := c.warnings ++ new.map (Diagnostic.inFile file) }
  host : filed.2.2.untraced = given.2.2.untraced

theorem untraced_absorb (errors : Nat) (ds : List Diagnostic) :
    (c.absorb ns errors ds h).2.2.untraced = h.untraced := by
  have noted (ds : List Diagnostic) (h : Host) :
      (ds.foldl (fun h d => h.note (.compileWarning d)) h).untraced = h.untraced := by
    induction ds generalizing h with
    | nil => rfl
    | cons d rest ih => exact ih (h.note (.compileWarning d))
  unfold absorb
  dsimp only
  split
  · exact noted _ h
  · exact noted _ h

theorem absorb_inFile (errors : Nat) (ds : List Diagnostic) (file : String) {given filed : Host}
    (same : filed.untraced = given.untraced) :
    c.AgreesInFile file (c.absorb ns errors ds given)
      (c.absorb ns errors (ds.map (Diagnostic.inFile file)) filed) := by
  have warnings : (ds.map (Diagnostic.inFile file)).filter (·.severity = .warning) =
      (ds.filter (·.severity = .warning)).map (Diagnostic.inFile file) := by
    rw [List.filter_map]
    rfl
  constructor
  case host => rw [untraced_absorb, untraced_absorb, same]
  case result =>
    unfold absorb
    dsimp only
    split
    · rfl
    · rfl
  case left =>
    refine ⟨ds.filter (·.severity = .warning), ?_⟩
    unfold absorb
    rw [warnings]
    dsimp only
    split
    · exact ⟨rfl, rfl⟩
    · exact ⟨rfl, rfl⟩

theorem agreesInFile_refused (file : String) {e : Error} (same : e.inFile file = e) :
    c.AgreesInFile file (.error e, c, h) (.error e, c, h) where
  result := by
    dsimp only [Except.mapError]
    rw [same]
  left := ⟨[], (List.append_nil _).symm, by simp⟩
  host := rfl

theorem accepts_eq_error {e : Error} (refused : c.accepts ns = .error e) :
    (∃ errors, c.failed = some errors ∧ e = .sessionFailed errors) ∨
      c.failed = none ∧ ∃ message, e = .invalidArgument message := by
  cases failed : c.failed with
  | some errors =>
      unfold accepts usable at refused
      rw [failed] at refused
      cases refused
      exact .inl ⟨errors, rfl, rfl⟩
  | none =>
      rw [c.accepts_of_usable failed] at refused
      cases name : Plain.namespaceName ns with
      | ok bytes =>
          rw [name] at refused
          contradiction
      | error cause =>
          rw [name] at refused
          cases refused
          exact .inr ⟨rfl, Plain.namespaceName_eq_error name⟩

theorem readFile_of_sourceFile {files : FileTree} {path : Path} {bytes : Bytes}
    (opened : sourceFile files path = .ok bytes) : files.readFile path = .ok bytes := by
  unfold sourceFile at opened
  split at opened
  case h_1 content found =>
    cases opened
    exact FileTree.readFile_eq_ok_iff.mpr found
  case h_2 => contradiction
  case h_3 => contradiction

theorem addFile_of_readable {path : Path} {bytes : Bytes} (accepted : c.accepts ns = .ok ())
    (holds : h.files.readFile path = .ok bytes) :
    c.addFile ns path h =
      let asked := (h.engine c.slot).addFile c.handle ns path (FileTree.textOf bytes)
      c.absorb ns asked.1.1 asked.1.2
        ((h.note (.compilingFile path ns)).setSlot c.slot fun s => { s with engine := asked.2 }) := by
  have plain : Plain.path path = .ok path.bytes := by
    unfold Plain.path
    rw [FileTree.plain_of_readFile holds]
    rfl
  have opened : sourceFile h.files path = .ok bytes := by
    unfold sourceFile
    rw [FileTree.openObject_of_readFile holds]
  unfold addFile
  rw [accepted, plain, opened]
  rfl

theorem addText_of_plain {content : String} (accepted : c.accepts ns = .ok ())
    (plain : '\x00' ∉ content.toList) :
    c.addText ns content h =
      let asked := (h.engine c.slot).addText c.handle ns content
      c.absorb ns asked.1.1 asked.1.2
        ((h.note (.compilingText ns)).setSlot c.slot fun s => { s with engine := asked.2 }) := by
  unfold addText
  rw [accepted, Plain.text_eq_ok_iff.mpr ⟨plain, rfl⟩]
  rfl

variable {c ns h}

theorem agrees_addFile (own : (h.engine c.slot).faults.add = none) {path : Path} {bytes : Bytes}
    {content : String} (holds : h.files.readFile path = .ok bytes)
    (decoded : Utf8.decode? bytes = some content) (plain : '\x00' ∉ content.toList) :
    c.AgreesInFile path.display (c.addText ns content h) (c.addFile ns path h) := by
  cases accepted : c.accepts ns with
  | error e =>
      have same : e.inFile path.display = e := by
        rcases c.accepts_eq_error ns accepted with ⟨errors, _, rfl⟩ | ⟨_, message, rfl⟩ <;> rfl
      simpa only [addText, addFile, accepted] using c.agreesInFile_refused h path.display same
  | ok _ =>
      have text : FileTree.textOf bytes = .ok content := by
        unfold FileTree.textOf
        rw [decoded]
      obtain ⟨answer, engines⟩ :=
        (h.engine c.slot).addFile_inFile c.handle ns own path content
      rw [c.addFile_of_readable ns h accepted holds, c.addText_of_plain ns h accepted plain, text]
      dsimp only
      rw [answer]
      exact c.absorb_inFile ns _ _ path.display (Host.untraced_setEngine_congr _ _ rfl engines)

/-- What is no text fails the session, and changes nothing else. -/
theorem addFile_of_notUtf8 (own : (h.engine c.slot).faults.add = none) {path : Path} {bytes : Bytes}
    (accepted : c.accepts ns = .ok ()) (holds : h.files.readFile path = .ok bytes)
    (broken : Utf8.decode? bytes = none) :
    let filed := c.addFile ns path h
    filed.1 = .error (.compile ns 1 [⟨.error, some path.display, 0, IoError.notUtf8.text⟩]) ∧
      filed.2.1 = { c with failed := some 1 } ∧ filed.2.2.untraced = h.untraced := by
  have text : FileTree.textOf bytes = .error .notUtf8 := by
    unfold FileTree.textOf
    rw [broken]
  obtain ⟨answer, engine⟩ := (h.engine c.slot).addFile_notUtf8 c.handle ns own path
  intro filed
  have added : filed = _ := c.addFile_of_readable ns h accepted holds
  rw [added, text]
  dsimp only
  rw [answer]
  refine ⟨rfl, ?_, ?_⟩
  · simp [absorb]
  · rw [untraced_absorb]
    exact Host.untraced_setEngine _ _ engine

theorem addFile_of_unfit (sound : c.failed = none) {path : Path}
    (unfit : ns = "" ∨ '\x00' ∈ ns.toList ∨ path.hasNul = true ∨
      ∀ bytes, h.files.readFile path ≠ .ok bytes) :
    ∃ e, c.addFile ns path h = (.error e, c, h) ∧
      ((∃ message, e = .invalidArgument message) ∨ ∃ cause, e = .fileRead path cause) := by
  have accepted := c.accepts_of_usable sound ns
  unfold addFile
  rw [accepted]
  cases name : Plain.namespaceName ns with
  | error e => exact ⟨e, rfl, .inl (Plain.namespaceName_eq_error name)⟩
  | ok _ =>
      cases plain : Plain.path path with
      | error e => exact ⟨e, rfl, .inl (Plain.path_eq_error plain)⟩
      | ok _ =>
          cases opened : sourceFile h.files path with
          | error e => exact ⟨e, rfl, .inr (sourceFile_eq_error opened)⟩
          | ok content =>
              obtain ⟨named, free, _⟩ := Plain.namespaceName_eq_ok_iff.mp name
              rcases unfit with empty | nul | nul | unread
              · exact absurd empty named
              · exact absurd nul free
              · simp [Plain.path, nul] at plain
              · exact absurd (readFile_of_sourceFile opened) (unread content)

/-! ## The two ways -/

/-- What comes of adding a file: nothing where the session has failed, the same as of its text where
it holds one, one error where it holds none, and nothing where it does not get to the engine. -/
structure AddsFile (c : Compiler) (ns : String) (path : Path) (h : Host) : Prop where
  failed : ∀ errors, c.failed = some errors →
    c.addFile ns path h = (.error (.sessionFailed errors), c, h)
  text : ∀ bytes content, h.files.readFile path = .ok bytes → Utf8.decode? bytes = some content →
    '\x00' ∉ content.toList →
      c.AgreesInFile path.display (c.addText ns content h) (c.addFile ns path h)
  noText : ∀ bytes, c.failed = none → ns ≠ "" → '\x00' ∉ ns.toList →
    h.files.readFile path = .ok bytes → Utf8.decode? bytes = none →
      let filed := c.addFile ns path h
      filed.1 = .error (.compile ns 1 [⟨.error, some path.display, 0, IoError.notUtf8.text⟩]) ∧
        filed.2.1 = { c with failed := some 1 } ∧ filed.2.2.untraced = h.untraced
  unfit : c.failed = none → (ns = "" ∨ '\x00' ∈ ns.toList ∨ path.hasNul = true ∨
    ∀ bytes, h.files.readFile path ≠ .ok bytes) →
      ∃ e, c.addFile ns path h = (.error e, c, h) ∧
        ((∃ message, e = .invalidArgument message) ∨ ∃ cause, e = .fileRead path cause)

/-- A file is added as its text is, where it has one, by any compiler of an engine that reads what it
is given. -/
theorem addFile_agrees (c : Compiler) (ns : String) (path : Path) (h : Host)
    (own : (h.engine c.slot).faults.add = none) : c.AddsFile ns path h := by
  constructor
  case failed => exact fun errors failed => c.add_of_failed failed ns h (.file path)
  case text => exact fun bytes content => agrees_addFile own
  case noText =>
    intro bytes sound named free holds broken
    have accepted : c.accepts ns = .ok () := by
      rw [c.accepts_of_usable sound, Plain.namespaceName_eq_ok_iff.mpr ⟨named, free, rfl⟩]
      rfl
    exact addFile_of_notUtf8 own accepted holds broken
  case unfit => exact fun sound unfit => addFile_of_unfit sound unfit

def textHost : Host where
  files := ⟨[([Utf8.encode "rules"], .file (Utf8.encode "_r x")),
    ([Utf8.encode "bytes"], .file [0xFF])], []⟩
  tempDir := .ofText ""
  engines := [{ engine := (Engine.fresh {}).createCompiler.2, holders := 2 }]

def soleCompiler : Compiler := { slot := 0, handle := 1 }

theorem addFile_agrees_of_files :
    let read := soleCompiler.addFile "ns" (.ofText "rules") textHost
    let broken := soleCompiler.addFile "ns" (.ofText "bytes") textHost
    read.1 = .ok () ∧
      read.2.1.warnings = [⟨.warning, some "rules", 1, "rule \"_r\" is private"⟩] ∧
      broken.1 = .error (.compile "ns" 1
        [⟨.error, some "bytes", 0, "stream did not contain valid UTF-8"⟩]) := by
  intro read broken
  have shown (text : String) : (Path.ofText text).display = text := Utf8.lossy_encode text
  have holds (text : String) {bytes : Bytes}
      (opened : textHost.files.openObject (.ofText text) = .ok (.file bytes)) :
      textHost.files.readFile (.ofText text) = .ok bytes :=
    FileTree.readFile_eq_ok_iff.mpr opened
  have agrees := (addFile_agrees soleCompiler "ns" (.ofText "rules") textHost rfl).text _ _
    (holds "rules" (FileTree.openObject_of_entry rfl rfl rfl
      ⟨by decide, by decide, by decide, by decide⟩ rfl rfl)) (Utf8.decode?_encode "_r x") (by decide)
  have noText := (addFile_agrees soleCompiler "ns" (.ofText "bytes") textHost rfl).noText _ rfl
    (by decide) (by decide) (holds "bytes" (FileTree.openObject_of_entry rfl rfl rfl
      ⟨by decide, by decide, by decide, by decide⟩ rfl rfl)) (by decide)
  obtain ⟨new, given, left⟩ := agrees.left
  have warned : new = [⟨.warning, none, 1, "rule \"_r\" is private"⟩] := given.symm
  rw [shown] at left
  refine ⟨agrees.result, ?_, ?_⟩
  · rw [left, warned]
    rfl
  · rw [← shown "bytes"]
    exact noText.1

/-- A session that has failed takes no file, and so does not tell that there is none. -/
theorem addFile_of_failed_session :
    let failed := soleCompiler.addText "ns" "broken" textHost
    failed.1 = .error (.compile "ns" 1 [⟨.error, none, 1, "syntax error"⟩]) ∧
      failed.2.2.files.openObject (.ofText "missing") = .error (.os .notFound) ∧
      ¬∃ e, (failed.2.1.addFile "ns" (.ofText "missing") failed.2.2).1 = .error e ∧
        ((∃ message, e = .invalidArgument message) ∨
          ∃ cause, e = .fileRead (.ofText "missing") cause) := by
  intro failed
  have kept : failed.2.2.files = textHost.files := rfl
  have refused : (failed.2.1.addFile "ns" (.ofText "missing") failed.2.2).1 =
      .error (.sessionFailed 1) := rfl
  refine ⟨rfl, ?_, ?_⟩
  · rw [kept]
    exact FileTree.openObject_missing rfl rfl rfl ⟨by decide, by decide, by decide, by decide⟩ rfl rfl
  · rintro ⟨e, same, other⟩
    obtain rfl := Except.error.inj (refused.symm.trans same)
    rcases other with ⟨_, same⟩ | ⟨_, same⟩ <;> contradiction

end Compiler

end Needle
