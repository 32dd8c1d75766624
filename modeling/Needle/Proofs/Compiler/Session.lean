import Needle.Proofs.Compiler.Addition
import Needle.Proofs.RuleSet.RoundTrip

/-!
# Compilation sessions

A session is a list of calls of one compiler. Each call makes attempts to add a rule text: one of
them, or one for each file up to the first that fails. What the compiler tells of itself is the
account of its attempts, and so is the rule set that it gives at the end.

An account is kept by every attempt (`Account.attempt`), so by every list of calls. An attempt that
fails the session is the last one to have any effect.
-/
set_option autoImplicit false

namespace Needle

open Pattern

inductive Addition where
  | text (ns content : String)
  | file (ns : String) (path : Path)
  | files (ns : String) (paths : List Path)

/-- A rule text that was to be added, with the compiler and the host as it found them and as it left
them. -/
structure Attempt where
  ns : String
  text : RuleText
  found : Compiler × Host
  result : Except Error Unit
  left : Compiler × Host

namespace Compiler

def attempt (s : Compiler × Host) (ns : String) (t : RuleText) : Attempt :=
  let (result, left) := s.1.add ns s.2 t
  ⟨ns, t, s, result, left⟩

def fileAttempts (s : Compiler × Host) (ns : String) : List Path → List Attempt
  | [] => []
  | path :: rest =>
    let a := attempt s ns (.file path)
    match a.result with
    | .ok () => a :: fileAttempts a.left ns rest
    | .error _ => [a]

/-- The attempts of a call. -/
def attempts (s : Compiler × Host) : Addition → List Attempt
  | .text ns content => [attempt s ns (.text content)]
  | .file ns path => [attempt s ns (.file path)]
  | .files ns paths => fileAttempts s ns paths

def carryOut (s : Compiler × Host) : Addition → Except Error Unit × Compiler × Host
  | .text ns content => s.1.addText ns content s.2
  | .file ns path => s.1.addFile ns path s.2
  | .files ns paths => s.1.addFiles ns s.2 paths

def carryOutAll (s : Compiler × Host) :
    List Addition → List (Except Error Unit × List Attempt) × Compiler × Host
  | [] => ([], s)
  | call :: rest =>
    let (answer, next) := carryOut s call
    let (log, last) := carryOutAll next rest
    ((answer, attempts s call) :: log, last)

def known (c : Compiler) (h : Host) : List Pattern :=
  match (h.engine c.slot).compiler? c.handle with
  | some session => session.patterns
  | none => []

/-- The attempts follow one another from one state to another. -/
def Chain : Compiler × Host → List Attempt → Compiler × Host → Prop
  | s, [], last => s = last
  | s, a :: rest, last => a = attempt s a.ns a.text ∧ Chain a.left rest last

end Compiler

namespace Attempt

/-- What the engine found in the text, if the text got to it. -/
def read? (a : Attempt) : Option Progress :=
  match a.found.1.failed with
  | some _ => none
  | none => (a.text.read a.found.2.files a.ns (a.found.1.known a.found.2)).toOption

def succeeded (a : Attempt) : Bool :=
  match a.result with
  | .ok () => true
  | .error _ => false

def faults? (a : Attempt) : Option Nat :=
  match a.result with
  | .error (.compile _ errors _) => some errors
  | _ => none

def warnings (a : Attempt) : List Diagnostic :=
  match a.read? with
  | some p => p.warnings
  | none => []

def patterns (a : Attempt) : List Pattern :=
  match a.result, a.read? with
  | .ok (), some p => p.added
  | _, _ => []

def calls (a : Attempt) : List EngineCall :=
  (a.left.2.engine a.found.1.slot).calls.drop (a.found.2.engine a.found.1.slot).calls.length

end Attempt

namespace Compiler

/-- A compiler that tells the account of some attempts. -/
structure Account (strict : Bool) (made : List Attempt) (s : Compiler × Host) : Prop where
  live : s.1.Live s.2 (made.flatMap Attempt.patterns)
  sources : s.1.sources = (made.filter Attempt.succeeded).length
  namespaces : s.1.namespaces = ((made.filter Attempt.succeeded).map Attempt.ns).eraseDups
  warnings : s.1.warnings = made.flatMap Attempt.warnings
  failed : s.1.failed = made.findSome? Attempt.faults?
  failOnWarnings : s.1.failOnWarnings = strict

/-! ## One attempt -/

/-- What an attempt can be, where the session holds some patterns. -/
inductive Took (known : List Pattern) (a : Attempt) : Prop
  | failed {errors : Nat} (failed : a.found.1.failed = some errors) (unread : a.read? = none)
      (result : a.result = .error (.sessionFailed errors)) (same : a.left = a.found)
  | unfit {e : Error} (unread : a.read? = none) (result : a.result = .error e)
      (unfit : (∃ message, e = .invalidArgument message) ∨ ∃ path cause, e = .fileRead path cause)
      (same : a.left = a.found)
  | read {p : Progress} (usable : a.found.1.failed = none) (read : a.read? = some p)
      (result : a.result = p.result a.ns) (told : a.left.1 = a.found.1.told a.ns p)
      (live : a.left.1.Live a.left.2 (known ++ p.gained)) (called : a.calls.length = 1)

theorem Took.unread {known : List Pattern} {a : Attempt} (took : Took known a)
    (unread : a.read? = none) : a.left = a.found := by
  cases took with
  | failed _ _ _ same => exact same
  | unfit _ _ _ same => exact same
  | read _ read => rw [unread] at read; contradiction

theorem Took.called {known : List Pattern} {a : Attempt} (took : Took known a) {p : Progress}
    (read : a.read? = some p) : a.result = p.result a.ns ∧ a.calls.length = 1 := by
  cases took with
  | failed _ unread => rw [unread] at read; contradiction
  | unfit unread => rw [unread] at read; contradiction
  | read _ found result _ _ called =>
      obtain rfl := Option.some.inj (found.symm.trans read)
      exact ⟨result, called⟩

theorem result_eq_compile {p : Progress} {ns : String} {e : Error}
    (refused : p.result ns = .error e) :
    e = .compile ns p.errors p.diagnostics ∧ 0 < p.errors := by
  unfold Progress.result at refused
  split at refused
  case isTrue faulty =>
    cases refused
    exact ⟨rfl, faulty⟩
  case isFalse => contradiction

theorem Took.unfit_of_result {known : List Pattern} {a : Attempt} (took : Took known a)
    (unfit : (∃ path cause, a.result = .error (.fileRead path cause)) ∨
      ∃ message, a.result = .error (.invalidArgument message)) : a.left = a.found := by
  cases took with
  | failed _ _ _ same => exact same
  | unfit _ _ _ same => exact same
  | read _ _ result =>
      rw [result] at unfit
      rcases unfit with ⟨_, _, refused⟩ | ⟨_, refused⟩
      · cases (result_eq_compile refused).1
      · cases (result_eq_compile refused).1

theorem Took.fails {known : List Pattern} {a : Attempt} (took : Took known a) {ns : String}
    {errors : Nat} {diagnostics : List Diagnostic}
    (result : a.result = .error (.compile ns errors diagnostics)) :
    a.left.1.failed = some errors := by
  cases took with
  | failed _ _ refused => rw [refused] at result; cases result
  | unfit _ refused unfit =>
      rw [refused] at result
      rcases unfit with ⟨_, rfl⟩ | ⟨_, _, rfl⟩
      · cases result
      · cases result
  | read _ _ answer told =>
      rw [answer] at result
      obtain ⟨same, faulty⟩ := result_eq_compile result
      cases same
      rw [told, told_failed, if_pos faulty]

theorem Live.known_eq {c : Compiler} {h : Host} {known : List Pattern} (live : c.Live h known) :
    c.known h = known := by
  obtain ⟨session, found, holds, _⟩ := live.held
  unfold Compiler.known
  rw [found]
  exact holds

theorem Live.took {c : Compiler} {h : Host} {known : List Pattern} (live : c.Live h known)
    (ns : String) (t : RuleText) : Took known (attempt (c, h) ns t) := by
  have adds := live.adds ns t
  have holds := live.known_eq
  generalize made : c.add ns h t = outcome at adds
  have shape : attempt (c, h) ns t = ⟨ns, t, (c, h), outcome.1, outcome.2⟩ := by
    rw [← made]
    rfl
  rw [shape]
  cases adds with
  | failed failed =>
      refine .failed failed ?_ rfl rfl
      simp only [Attempt.read?, failed]
  | unfit usable unfit =>
      refine .unfit ?_ rfl (RuleText.read_eq_error unfit) rfl
      simp only [Attempt.read?, usable, holds, unfit]
      rfl
  | read usable read live _ called =>
      obtain ⟨call, called⟩ := called
      refine .read usable ?_ rfl rfl live ?_
      · simp only [Attempt.read?, usable, holds, read]
        rfl
      · simp [Attempt.calls, called]

/-! ## The account -/

variable {strict : Bool} {made : List Attempt}

theorem Account.unread {s : Compiler × Host} (account : Account strict made s) {a : Attempt}
    {e : Error} (unread : a.read? = none) (result : a.result = .error e)
    (sound : a.faults? = none) : Account strict (made ++ [a]) s := by
  have fails : a.succeeded = false := by simp only [Attempt.succeeded, result]
  have silent : a.warnings = [] := by simp only [Attempt.warnings, unread]
  have nothing : a.patterns = [] := by simp only [Attempt.patterns, result]
  constructor
  case live => simpa [nothing] using account.live
  case sources => simpa [fails] using account.sources
  case namespaces => simpa [fails] using account.namespaces
  case warnings => simpa [silent] using account.warnings
  case failed => simpa [List.findSome?_append, sound] using account.failed
  case failOnWarnings => exact account.failOnWarnings

/-- An attempt whose text is read goes into the account. -/
theorem Account.told {s : Compiler × Host} (account : Account strict made s) {a : Attempt}
    {p : Progress} (usable : s.1.failed = none) (read : a.read? = some p)
    (result : a.result = p.result a.ns) (told : a.left.1 = s.1.told a.ns p)
    (live : a.left.1.Live a.left.2 (made.flatMap Attempt.patterns ++ p.gained)) :
    Account strict (made ++ [a]) a.left := by
  have heard : a.warnings = p.warnings := by simp only [Attempt.warnings, read]
  have sound : made.findSome? Attempt.faults? = none := account.failed.symm.trans usable
  -- A faulty text leaves its warnings and its failure, any other its source and its namespace.
  by_cases faulty : 0 < p.errors
  · have result : a.result = .error (.compile a.ns p.errors p.diagnostics) := by
      rw [result, Progress.result, if_pos faulty]
    have told : a.left.1 =
        { s.1 with warnings := s.1.warnings ++ p.warnings, failed := some p.errors } := by
      rw [told, Compiler.told]
      exact if_pos faulty
    have fails : a.succeeded = false := by simp only [Attempt.succeeded, result]
    have count : a.faults? = some p.errors := by simp only [Attempt.faults?, result]
    have nothing : a.patterns = p.gained := by
      rw [Progress.gained, if_neg (Nat.pos_iff_ne_zero.mp faulty)]
      simp only [Attempt.patterns, result]
    constructor
    case live => simpa [nothing] using live
    case sources => simpa [told, fails] using account.sources
    case namespaces => simpa [told, fails] using account.namespaces
    case warnings => simp [told, heard, account.warnings]
    case failed => simp [told, List.findSome?_append, sound, count]
    case failOnWarnings => simpa [told] using account.failOnWarnings
  · have result : a.result = .ok () := by rw [result, Progress.result, if_neg faulty]
    have told : a.left.1 = { s.1 with
        warnings := s.1.warnings ++ p.warnings
        namespaces := if s.1.namespaces.contains a.ns then s.1.namespaces
          else s.1.namespaces ++ [a.ns]
        sources := s.1.sources + 1 } := by
      rw [told, Compiler.told]
      exact if_neg faulty
    have succeeds : a.succeeded = true := by simp only [Attempt.succeeded, result]
    have count : a.faults? = none := by simp only [Attempt.faults?, result]
    have gained : a.patterns = p.gained := by
      rw [Progress.gained, if_pos (Nat.eq_zero_of_not_pos faulty)]
      simp only [Attempt.patterns, result, read]
    constructor
    case live => simpa [gained] using live
    case sources => simp [told, succeeds, account.sources]
    case namespaces =>
      rw [List.filter_append, List.filter_cons_of_pos succeeds, List.map_append, List.filter_nil,
        List.map_singleton, eraseDups_concat, ← account.namespaces, told]
    case warnings => simp [told, heard, account.warnings]
    case failed => simpa [told, List.findSome?_append, count, sound] using usable
    case failOnWarnings => simpa [told] using account.failOnWarnings

theorem Account.attempt {c : Compiler} {h : Host} (account : Account strict made (c, h))
    (ns : String) (t : RuleText) :
    Account strict (made ++ [attempt (c, h) ns t]) (attempt (c, h) ns t).left := by
  have took := account.live.took ns t
  have found : (Compiler.attempt (c, h) ns t).found = (c, h) := rfl
  generalize Compiler.attempt (c, h) ns t = a at took found ⊢
  cases took with
  | failed _ unread result same =>
      rw [same, found]
      exact account.unread unread result (by simp only [Attempt.faults?, result])
  | unfit unread result unfit same =>
      rw [same, found]
      refine account.unread unread result ?_
      rcases unfit with ⟨_, rfl⟩ | ⟨_, _, rfl⟩
      · simp only [Attempt.faults?, result]
      · simp only [Attempt.faults?, result]
  | read usable read result told live _ =>
      rw [found] at usable told
      exact account.told usable read result told live

/-! ## All attempts -/

theorem Account.chain {s last : Compiler × Host} {more : List Attempt}
    (account : Account strict made s) (chain : Chain s more last) :
    Account strict (made ++ more) last := by
  induction more generalizing made s with
  | nil =>
      obtain rfl : s = last := chain
      rw [List.append_nil]
      exact account
  | cons a rest ih =>
      obtain ⟨c, h⟩ := s
      obtain ⟨here, chain⟩ := chain
      have next := account.attempt a.ns a.text
      rw [← here] at next
      rw [List.append_cons]
      exact ih next chain

theorem Chain.append {s middle last : Compiler × Host} {first second : List Attempt}
    (before : Chain s first middle) (after : Chain middle second last) :
    Chain s (first ++ second) last := by
  induction first generalizing s with
  | nil =>
      obtain rfl : s = middle := before
      exact after
  | cons a rest ih => exact ⟨before.1, ih before.2⟩

theorem Chain.split {s last : Compiler × Host} {before after : List Attempt} {a : Attempt}
    (chain : Chain s (before ++ a :: after) last) :
    Chain s before a.found ∧ a = attempt a.found a.ns a.text ∧ Chain a.left after last := by
  induction before generalizing s with
  | nil =>
      obtain ⟨here, chain⟩ := chain
      have found : a.found = s := congrArg Attempt.found here
      exact ⟨found.symm, found ▸ here, chain⟩
  | cons b rest ih =>
      obtain ⟨here, chain⟩ := chain
      obtain ⟨first, second⟩ := ih chain
      exact ⟨⟨here, first⟩, second⟩

theorem Account.took {s last : Compiler × Host} (account : Account strict [] s)
    (chain : Chain s made last) {a : Attempt} (member : a ∈ made) : ∃ known, Took known a := by
  obtain ⟨before, after, rfl⟩ := List.mem_iff_append.mp member
  obtain ⟨first, here, _⟩ := chain.split
  rw [here]
  exact ⟨_, (account.chain first).live.took a.ns a.text⟩

/-- Once the session has failed, nothing happens any more. -/
theorem Chain.of_failed {s last : Compiler × Host} {more : List Attempt} {errors : Nat}
    (chain : Chain s more last) (failed : s.1.failed = some errors) :
    last = s ∧ ∀ a ∈ more, a.result = .error (.sessionFailed errors) ∧ a.left = a.found := by
  induction more generalizing s with
  | nil => exact ⟨chain.symm, by simp⟩
  | cons a rest ih =>
      obtain ⟨here, chain⟩ := chain
      have refused : a = ⟨a.ns, a.text, s, .error (.sessionFailed errors), s⟩ := by
        refine here.trans ?_
        unfold Compiler.attempt
        rw [s.1.add_of_failed failed]
      have left : a.left = s := congrArg Attempt.left refused
      have found : a.found = s := congrArg Attempt.found refused
      obtain ⟨same, others⟩ := ih chain (left ▸ failed)
      refine ⟨same.trans left, ?_⟩
      intro b member
      rcases List.mem_cons.mp member with rfl | later
      · exact ⟨congrArg Attempt.result refused, left.trans found.symm⟩
      · exact others b later

/-- A call makes attempts up to the first that fails, and answers as the last one. -/
structure Concludes (answer : Except Error Unit) (tries : List Attempt) : Prop where
  answer : answer = (tries.getLast?.map Attempt.result).getD (.ok ())
  before : ∀ a ∈ tries.dropLast, a.result = .ok ()

theorem chain_fileAttempts (s : Compiler × Host) (ns : String) (paths : List Path) :
    Chain s (fileAttempts s ns paths) (s.1.addFiles ns s.2 paths).2 ∧
      Concludes (s.1.addFiles ns s.2 paths).1 (fileAttempts s ns paths) := by
  -- On the files, each of which finds the session as the one before has left it.
  induction paths generalizing s with
  | nil => exact ⟨rfl, rfl, by simp [fileAttempts]⟩
  | cons path rest ih =>
      rcases added : s.1.addFile ns path s.2 with ⟨result, next⟩
      have made : attempt s ns (.file path) = ⟨ns, .file path, s, result, next⟩ := by
        simp only [attempt, add, added]
      cases result with
      | ok _ =>
          obtain ⟨chain, concludes⟩ := ih next
          have called : s.1.addFiles ns s.2 (path :: rest) = next.1.addFiles ns next.2 rest := by
            rw [addFiles, added]
          have tries : fileAttempts s ns (path :: rest) =
              ⟨ns, .file path, s, .ok (), next⟩ :: fileAttempts next ns rest := by
            rw [fileAttempts]
            simp only [made]
          rw [called, tries]
          refine ⟨⟨made.symm, chain⟩, ?_, ?_⟩
          · rw [concludes.answer]
            cases fileAttempts next ns rest with
            | nil => rfl
            | cons a others => rw [List.getLast?_cons_cons]
          · intro a member
            cases others : fileAttempts next ns rest with
            | nil => simp [others] at member
            | cons b later =>
                rw [others, List.dropLast_cons_cons] at member
                rcases List.mem_cons.mp member with rfl | further
                · rfl
                · exact concludes.before a (others ▸ further)
      | error e =>
          have called : s.1.addFiles ns s.2 (path :: rest) = (.error e, next) := by
            rw [addFiles, added]
          have tries :
              fileAttempts s ns (path :: rest) = [⟨ns, .file path, s, .error e, next⟩] := by
            rw [fileAttempts]
            simp only [made]
          rw [called, tries]
          exact ⟨⟨made.symm, rfl⟩, rfl, by simp⟩

theorem chain_attempts (s : Compiler × Host) (call : Addition) :
    Chain s (attempts s call) (carryOut s call).2 ∧
      Concludes (carryOut s call).1 (attempts s call) := by
  cases call with
  | text ns content => exact ⟨⟨rfl, rfl⟩, rfl, by simp [attempts]⟩
  | file ns path => exact ⟨⟨rfl, rfl⟩, rfl, by simp [attempts]⟩
  | files ns paths => exact chain_fileAttempts s ns paths

theorem chain_carryOutAll (s : Compiler × Host) (calls : List Addition) :
    Chain s ((carryOutAll s calls).1.flatMap Prod.snd) (carryOutAll s calls).2 ∧
      ∀ call ∈ (carryOutAll s calls).1, Concludes call.1 call.2 := by
  induction calls generalizing s with
  | nil => exact ⟨rfl, by simp [carryOutAll]⟩
  | cons call rest ih =>
      obtain ⟨here, concludes⟩ := chain_attempts s call
      obtain ⟨later, others⟩ := ih (carryOut s call).2
      refine ⟨here.append later, ?_⟩
      intro made member
      rcases List.mem_cons.mp member with rfl | further
      · exact concludes
      · exact others made further

end Compiler

/-! ## The beginning and the end of a session -/

namespace Engine

theorem createCompiler_eq (e : Engine) (genuine : e.faults.Genuine) :
    ∃ after, e.createCompiler = (.ok (e.last + 1), after) ∧ after.faults = e.faults ∧
      after.compiler? (e.last + 1) = some {} := by
  have unused : e.compilers.lookup (e.last + 1) = none := by
    cases found : e.compilers.lookup (e.last + 1) with
    | none => rfl
    | some older =>
        have issued : e.last + 1 ≤ e.last := e.compilers_issued _ (mem_of_lookup found)
        exact absurd issued (Nat.not_succ_le_self e.last)
  have added := lookup_append_singleton e.compilers (e.last + 1) ({} : CompilerSession) (e.last + 1)
  rw [unused, if_pos rfl] at added
  have asked : e.faults.createCompiler = none := genuine.createCompiler
  unfold createCompiler
  rw [asked]
  exact ⟨_, rfl, rfl, added⟩

theorem getRules_eq (e : Engine) (genuine : e.faults.Genuine) {handle : Handle}
    {session : CompilerSession} (found : e.compiler? handle = some session)
    (clean : session.errors = 0) :
    ∃ call, e.getRules handle =
      (.ok (e.addRuleSet session.patterns).1, (e.addRuleSet session.patterns).2.trace call) := by
  have asked : e.faults.getRules = none := genuine.getRules
  unfold getRules
  rw [asked, found]
  dsimp only
  rw [if_pos clean]
  exact ⟨_, rfl⟩

end Engine

namespace Host

theorem extends_stop (h : Host) (i : Nat) : h.Extends (h.stop i).2 := by
  let called := h.setSlot i fun slot => { slot with engine := (h.engine i).stop.2 }
  let stopped := called.setSlot i fun slot => { slot with stopped := true }
  have calling : h.Extends called := h.extends_setSlot i _ (fun _ _ live => live) rfl
  have stopping : called.Extends stopped := called.extends_setSlot i _ (fun _ _ live => live) rfl
  unfold stop call
  split
  · exact ⟨fun _ _ live => live, fun _ => rfl, rfl, rfl⟩
  · dsimp only
    split
    · exact (calling.trans stopping).trans (stopped.extends_note _)
    · exact calling.trans stopping

theorem extends_release (h : Host) (i : Nat) : h.Extends (h.release i) := by
  let left := h.setSlot i fun slot => { slot with holders := slot.holders - 1 }
  have leaving : h.Extends left := h.extends_setSlot i _ (fun _ _ live => live) rfl
  have stopping := left.extends_stop i
  unfold release
  dsimp only
  split
  · rcases stopped : left.stop i with ⟨result, after⟩
    rw [stopped] at stopping
    cases result with
    | ok _ => exact leaving.trans stopping
    | error cause => exact (leaving.trans stopping).trans (after.extends_note _)
  · exact leaving

end Host

namespace Compiler

theorem create_eq (r : Owner) {h : Host} (started : r.slot < h.engines.length)
    (genuine : (h.engine r.slot).faults.Genuine) :
    ∃ c begun, create r h = (.ok c, begun) ∧
      ∀ strict, Account strict [] ({ c with failOnWarnings := strict }, begun) := by
  obtain ⟨e, asked, faults, fresh⟩ := (h.engine r.slot).createCompiler_eq genuine
  let changed := h.setSlot r.slot fun slot => { slot with engine := e }
  let handle := (h.engine r.slot).last + 1
  have here : ((changed.note .compilerCreated).hold r.slot).engine r.slot = e := by
    have set := h.engine_setSlot r.slot (fun slot => { slot with engine := e }) r.slot
    rw [if_pos ⟨rfl, started⟩] at set
    unfold Host.hold
    rw [Host.engine_setSlot]
    split
    · exact set
    · exact set
  refine ⟨{ slot := r.slot, handle := handle }, (changed.note .compilerCreated).hold r.slot, ?_, ?_⟩
  · unfold create Host.call
    rw [asked]
  · intro strict
    constructor
    case live =>
      constructor
      case started => simpa [Host.hold, Host.note, changed] using started
      case genuine =>
        rw [here, faults]
        exact genuine
      case held => exact ⟨{}, (congrArg (·.compiler? handle) here).trans fresh, rfl, fun _ => rfl⟩
    case sources => rfl
    case namespaces => rfl
    case warnings => rfl
    case failed => rfl
    case failOnWarnings => rfl

theorem extends_drop (c : Compiler) (h : Host) : h.Extends (c.drop h) := by
  let e := (h.engine c.slot).destroyCompiler c.handle
  let destroyed := h.setSlot c.slot fun slot => { slot with engine := e }
  have destroying : h.Extends destroyed := by
    apply h.extends_setSlot c.slot
    · intro handle patterns live
      dsimp only [e]
      unfold Engine.destroyCompiler
      dsimp only
      split
      · exact live
      · exact live
    · dsimp only [e]
      unfold Engine.destroyCompiler
      dsimp only
      split
      · rfl
      · rfl
  exact destroying.trans (destroyed.extends_release c.slot)

theorem rules_of_failed (c : Compiler) {errors : Nat} (failed : c.failed = some errors) (h : Host) :
    c.rules h = (.error (.sessionFailed errors), c.drop h) := by
  unfold rules finish usable
  rw [failed]

theorem rules_of_warnings (c : Compiler) (usable : c.failed = none)
    (strict : c.failOnWarnings = true) (warned : c.warnings ≠ []) (h : Host) :
    c.rules h = (.error (.compile (",".intercalate c.namespaces) c.warnings.length c.warnings),
      c.drop h) := by
  unfold rules finish Compiler.usable
  rw [usable]
  simp [strict, warned]

theorem Live.rules {c : Compiler} {h : Host} {known : List Pattern} (live : c.Live h known)
    (usable : c.failed = none) (allowed : ¬(c.failOnWarnings = true ∧ c.warnings ≠ [])) :
    ∃ s after, c.rules h = (.ok s, after) ∧ s.patterns? after = some known ∧ s.slot = c.slot ∧
      (after.engine s.slot).faults = (h.engine c.slot).faults := by
  obtain ⟨session, found, rfl, clean⟩ := live.held
  obtain ⟨call, asked⟩ := (h.engine c.slot).getRules_eq live.genuine found (clean usable)
  let added := (h.engine c.slot).addRuleSet session.patterns
  let changed := h.setSlot c.slot fun slot => { slot with engine := added.2.trace call }
  let s : RuleSet := ⟨c.slot, added.1, {}⟩
  have there : s.patterns? changed = some session.patterns := by
    unfold RuleSet.patterns?
    rw [Host.engine_setSlot, if_pos ⟨rfl, live.started⟩]
    exact (h.engine c.slot).ruleSet?_addRuleSet_new session.patterns
  let noted := changed.note (.compiled c.sources c.namespaces.length)
  have finishing : changed.Extends (c.drop (noted.hold c.slot)) :=
    ((changed.extends_note _).trans (noted.extends_hold c.slot)).trans (c.extends_drop _)
  have given : (changed.engine c.slot).faults = (h.engine c.slot).faults := by
    rw [Host.engine_setSlot, if_pos ⟨rfl, live.started⟩]
    rfl
  refine ⟨s, c.drop (noted.hold c.slot), ?_, finishing.patterns s session.patterns there, rfl,
    (finishing.faults c.slot).trans given⟩
  have lenient : (c.failOnWarnings && !c.warnings.isEmpty) = false := by
    simpa using allowed
  unfold Compiler.rules finish Compiler.usable Host.call
  simp only [usable, lenient, asked]
  rfl

/-! ## Whole sessions -/

/-- What becomes of some calls and of the session after them: the attempts of every call, what the
compiler tells of itself, and its rule set. -/
structure Course (strict : Bool) (start : Compiler × Host)
    (log : List (Except Error Unit × List Attempt)) (last : Compiler × Host)
    (produced : Except Error RuleSet × Host) : Prop where
  chain : Chain start (log.flatMap Prod.snd) last
  concludes : ∀ call ∈ log, Concludes call.1 call.2
  calls : ∀ a ∈ log.flatMap Prod.snd, (a.read? = none → a.left = a.found) ∧
    ∀ p, a.read? = some p → a.result = p.result a.ns ∧ a.calls.length = 1
  sources : last.1.sources = ((log.flatMap Prod.snd).filter Attempt.succeeded).length
  namespaces : last.1.namespaces =
    (((log.flatMap Prod.snd).filter Attempt.succeeded).map Attempt.ns).eraseDups
  warnings : last.1.warnings = (log.flatMap Prod.snd).flatMap Attempt.warnings
  unfit : ∀ a ∈ log.flatMap Prod.snd,
    ((∃ path cause, a.result = .error (.fileRead path cause)) ∨
      ∃ message, a.result = .error (.invalidArgument message)) → a.left = a.found
  /-- A session that has failed gives no rule set, and all that asking for it does is to give the
  compiler up. -/
  fails : ∀ before a after ns errors diagnostics, log.flatMap Prod.snd = before ++ a :: after →
    a.result = .error (.compile ns errors diagnostics) →
    (∀ b ∈ after, b.result = .error (.sessionFailed errors) ∧ b.left = b.found) ∧
      last = a.left ∧ produced = (.error (.sessionFailed errors), last.1.drop last.2)
  ends : (∀ a ∈ log.flatMap Prod.snd, ∀ ns errors diagnostics,
      a.result ≠ .error (.compile ns errors diagnostics)) →
    ((∃ ns errors diagnostics, produced.1 = .error (.compile ns errors diagnostics)) ↔
      strict = true ∧ last.1.warnings ≠ []) ∧
    (strict = true → last.1.warnings ≠ [] → produced.1 = .error
      (.compile (",".intercalate last.1.namespaces) last.1.warnings.length last.1.warnings)) ∧
    (¬(strict = true ∧ last.1.warnings ≠ []) → ∃ s, produced.1 = .ok s ∧
      s.patterns? produced.2 = some ((log.flatMap Prod.snd).flatMap Attempt.patterns))

theorem Account.course {strict : Bool} {s last : Compiler × Host}
    {log : List (Except Error Unit × List Attempt)} (account : Account strict [] s)
    (chain : Chain s (log.flatMap Prod.snd) last)
    (concludes : ∀ call ∈ log, Concludes call.1 call.2) :
    Course strict s log last (last.1.rules last.2) := by
  have told : Account strict (log.flatMap Prod.snd) last := account.chain chain
  refine ⟨chain, concludes, ?calls, told.sources, told.namespaces, told.warnings, ?unfit, ?fails,
    ?ends⟩
  case calls =>
    intro a member
    obtain ⟨known, took⟩ := account.took chain member
    exact ⟨took.unread, fun p => took.called⟩
  case unfit =>
    intro a member unfit
    obtain ⟨known, took⟩ := account.took chain member
    exact took.unfit_of_result unfit
  case fails =>
    intro before a after ns errors diagnostics split result
    rw [split] at chain
    obtain ⟨known, took⟩ := account.took chain (List.mem_append.mpr (.inr List.mem_cons_self))
    obtain ⟨_, _, later⟩ := chain.split
    obtain ⟨same, refused⟩ := later.of_failed (took.fails result)
    exact ⟨refused, same, last.1.rules_of_failed (same ▸ took.fails result) last.2⟩
  case ends =>
    intro sound
    have usable : last.1.failed = none := by
      rw [told.failed, List.findSome?_eq_none_iff]
      intro a member
      unfold Attempt.faults?
      split
      case h_1 ns errors diagnostics result =>
        exact absurd result (sound a member ns errors diagnostics)
      case h_2 => rfl
    by_cases warned : strict = true ∧ last.1.warnings ≠ []
    · have answer := congrArg Prod.fst (last.1.rules_of_warnings usable
        (told.failOnWarnings.trans warned.1) warned.2 last.2)
      exact ⟨⟨fun _ => warned, fun _ => ⟨_, _, _, answer⟩⟩, fun _ _ => answer,
        fun quiet => absurd warned quiet⟩
    · obtain ⟨s, after, answer, holds, _⟩ :=
        told.live.rules usable (by rw [told.failOnWarnings]; exact warned)
      rw [answer]
      refine ⟨⟨?_, fun both => absurd both warned⟩, fun so some => absurd ⟨so, some⟩ warned,
        fun _ => ⟨s, rfl, holds⟩⟩
      rintro ⟨_, _, _, refused⟩
      cases refused

/-- A new compiler with any calls, and then its rule set. -/
theorem session_of_additions (r : Owner) (h : Host) (started : r.slot < h.engines.length)
    (genuine : (h.engine r.slot).faults.Genuine) :
    ∃ c begun, create r h = (.ok c, begun) ∧ ∀ strict calls,
      let start := ({ c with failOnWarnings := strict }, begun)
      let carried := carryOutAll start calls
      Course strict start carried.1 carried.2 (carried.2.1.rules carried.2.2) := by
  obtain ⟨c, begun, created, account⟩ := create_eq r started genuine
  refine ⟨c, begun, created, ?_⟩
  intro strict calls start carried
  obtain ⟨chain, concludes⟩ := chain_carryOutAll start calls
  exact (account strict).course chain concludes

theorem session_of_a_faulty_text :
    let h : Host := ⟨⟨[], []⟩, .ofText "", [{ holders := 1 }], {}, [], 0⟩
    let calls : List Addition := [.text "ns" "_one a", .text "ns" "two"]
    ∃ c begun, create ⟨0⟩ h = (.ok c, begun) ∧
      let last := (carryOutAll (c, begun) calls).2
      last.1.rules last.2 = (.error (.sessionFailed 1), last.1.drop last.2) := by
  intro h calls
  obtain ⟨c, begun, created, course⟩ := session_of_additions ⟨0⟩ h (by decide) rfl
  refine ⟨c, begun, created, ?_⟩
  obtain ⟨same, rfl⟩ := Prod.mk.inj created
  obtain rfl := Except.ok.inj same
  let found := (create ⟨0⟩ h).2
  let first := attempt (⟨0, 1, false, none, [], [], 0⟩, found) "ns" (.text "_one a")
  let second := attempt first.left "ns" (.text "two")
  obtain ⟨_, _, failed⟩ := (course false calls).fails [first] second [] "ns" 1
    [⟨.error, none, 1, "syntax error"⟩] rfl rfl
  exact failed

/-- The engine is called, though the session has failed: it is told that the compiler is given
up. -/
theorem rules_of_a_failed_session :
    let h : Host := ⟨⟨[], []⟩, .ofText "", [{ holders := 1 }], {}, [], 0⟩
    ∃ c begun, create ⟨0⟩ h = (.ok c, begun) ∧
      let added := c.addText "ns" "broken" begun
      let asked := added.2.1.rules added.2.2
      added.1 = .error (.compile "ns" 1 [⟨.error, none, 1, "syntax error"⟩]) ∧
        asked.1 = .error (.sessionFailed 1) ∧
        (asked.2.engine 0).calls ≠ (added.2.2.engine 0).calls := by
  intro h
  refine ⟨⟨0, 1, false, none, [], [], 0⟩, (create ⟨0⟩ h).2, rfl, rfl, rfl, ?_⟩
  intro same
  have more : 3 = 2 := congrArg List.length same
  contradiction

end Compiler

end Needle
