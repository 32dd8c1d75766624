import Needle.Proofs.Host
import Needle.Scan.Call

/-!
# The engine's part in a scan

The loop of a scan depends on the files, the rule sets of the engine and the answers that the engine
is given; the counts and the calls that an engine keeps make no difference.
-/
set_option autoImplicit false

namespace Needle

namespace Scan

/-- Two loops over different surroundings report the same, each to its own scan. -/
inductive Alike {S T : Type} : EngineLoop S → EngineLoop T → Prop
  | finish (code : Code) : Alike (.finish code) (.finish code)
  | report (event : Event) {next : Verdict → EngineLoop S} {other : Verdict → EngineLoop T}
      (rest : ∀ v, Alike (next v) (other v)) :
      Alike (.report .sink event next) (.report .sink event other)

section Loops

variable {S T : Type}

theorem alike_heed {loop : EngineLoop S} {other : EngineLoop T} (alike : Alike loop other)
    (stubborn : Bool) (v : Verdict) : Alike (.heed stubborn loop v) (.heed stubborn other v) := by
  unfold EngineLoop.heed
  cases stubborn with
  | true => exact alike
  | false =>
      cases v with
      | proceed => exact alike
      | abort => exact .finish Code.success
      | fail => exact .finish Code.callbackError

theorem alike_ofEvents (stubborn : Bool) (code : Code) (events : List Event) :
    Alike (S := S) (T := T) (.ofEvents stubborn code events) (.ofEvents stubborn code events) := by
  induction events with
  | nil => exact .finish code
  | cons event rest ih => exact .report event (alike_heed ih stubborn)

theorem Alike.eq {loop other : EngineLoop S} (alike : Alike loop other) : loop = other := by
  induction alike with
  | finish code => rfl
  | report event _ ih => rw [funext ih]

end Loops

/-! ## What a handler keeps -/

section Keeps

variable {σ : Type} {P : List EngineSlot → σ → Prop} {handler : Handler σ}

/-- Each call of the handler keeps `P`, which is about the engines and its own state. -/
def KeepsEngines (P : List EngineSlot → σ → Prop) (handler : Handler σ) : Prop :=
  ∀ rule h own, P h.engines own →
    P (handler rule (h, own)).2.1.engines (handler rule (h, own)).2.2

theorem engines_receive (h : Host) (thread : ThreadId) (id : ScanId) :
    match h.receive thread id with
    | .ok entered => entered.engines = h.engines
    | .error noted => noted.engines = h.engines := by
  unfold Host.receive
  cases h.scans.enter thread id with
  | ok table => rfl
  | error refusal => rfl

theorem engines_close (id : ScanId) (run : ScanRun) (h : Host) :
    (close id run h).2.engines = h.engines := by
  unfold close
  dsimp only
  split
  · rfl
  · rfl

theorem KeepsEngines.dispatch (keeps : KeepsEngines P handler) {id : ScanId} (channel : Channel)
    (event : Event) (tally : Tally) {h : Host} {own : σ} (holds : P h.engines own) :
    let after := (dispatch handler id channel event tally (h, own)).2.2
    P after.1.engines after.2 := by
  unfold Scan.dispatch
  dsimp only
  have received := engines_receive h (channel.address id h.thread).2 (channel.address id h.thread).1
  cases entering : h.receive (channel.address id h.thread).2 (channel.address id h.thread).1 with
  | error noted =>
      rw [entering] at received
      dsimp only at received ⊢
      rw [received]
      exact holds
  | ok entered =>
      rw [entering] at received
      dsimp only at received ⊢
      split
      · rw [← received] at holds
        exact keeps event.toRule entered own holds
      · exact holds

/-- A loop that does nothing but report keeps what every call of the handler keeps. -/
theorem KeepsEngines.drive (keeps : KeepsEngines P handler) (id : ScanId) {bare : EngineLoop Unit}
    {loop : EngineLoop (Host × σ)} (alike : Alike bare loop) (tally : Tally) {h : Host} {own : σ}
    (holds : P h.engines own) :
    let after := (drive handler id loop tally (h, own)).2
    P after.1.engines after.2 := by
  induction alike generalizing tally h own with
  | finish code => exact holds
  | report event rest ih => exact ih _ _ (keeps.dispatch .sink event tally holds)

theorem KeepsEngines.run (keeps : KeepsEngines P handler) {bare : EngineLoop Unit}
    {loop : EngineLoop (Host × σ)} (alike : Alike bare loop) {h : Host} {own : σ}
    (holds : P h.engines own) :
    let after := (run handler (fun _ => loop) (h, own)).2
    P after.1.engines after.2 := by
  have driven := keeps.drive h.openScan.1 alike {} (h := h.openScan.2) holds
  unfold Scan.run
  dsimp only
  rw [engines_close]
  exact driven

end Keeps

end Scan

namespace Engine

/-- The rule sets and the given answers of an engine are those of another one. -/
def SameRules (e other : Engine) : Prop := other.ruleSets = e.ruleSets ∧ other.faults = e.faults

open Scan

variable {S T : Type} {e other : Engine}

theorem scan_loop (e : Engine) (handle : Handle) (data : Bytes) :
    (e.scan (S := S) handle data).1 = match e.ruleSets.lookup handle with
      | none => .finish Code.invalidArgument
      | some patterns => .ofEvents false e.faults.scans (Pattern.events data patterns) := by
  unfold scan ruleSet?
  cases e.ruleSets.lookup handle with
  | none => rfl
  | some patterns => rfl

theorem alike_scan (same : e.SameRules other) (handle : Handle) (data : Bytes) :
    Alike (e.scan (S := S) handle data).1 (other.scan (S := T) handle data).1 := by
  rw [scan_loop, scan_loop, same.1, same.2]
  cases e.ruleSets.lookup handle with
  | none => exact .finish _
  | some patterns => exact alike_ofEvents false _ _

theorem alike_scanBuffer (same : e.SameRules other) (handle : Handle) (data : Bytes)
    (o : ScanOptions) :
    Alike (e.scanBuffer (S := S) handle data o).1 (other.scanBuffer (S := T) handle data o).1 := by
  have traced (call : EngineCall) : (e.trace call).SameRules (other.trace call) := same
  unfold scanBuffer
  dsimp only
  rw [(traced _).2]
  cases (e.trace _).faults.scan with
  | none => exact alike_scan (traced _) handle data
  | some canned => exact alike_ofEvents canned.stubborn canned.code canned.events

theorem alike_scanFile (same : e.SameRules other) (files : FileTree) (handle : Handle) (path : Path)
    (o : ScanOptions) : Alike (e.scanFile (S := S) files handle path o).1
      (other.scanFile (S := T) files handle path o).1 := by
  have traced (call : EngineCall) : (e.trace call).SameRules (other.trace call) := same
  unfold scanFile
  dsimp only
  rw [(traced _).2]
  cases (e.trace _).faults.scan with
  | some canned => exact alike_ofEvents canned.stubborn canned.code canned.events
  | none =>
      cases files.readFile (shownPath path) with
      | ok content => exact alike_scan (traced _) handle content
      | error _ => exact .finish _

theorem sameRules_scan (e : Engine) (handle : Handle) (data : Bytes) :
    e.SameRules (e.scan (S := S) handle data).2 := by
  unfold scan
  split
  · exact ⟨rfl, rfl⟩
  · exact ⟨rfl, rfl⟩

theorem sameRules_scanBuffer (e : Engine) (handle : Handle) (data : Bytes) (o : ScanOptions) :
    e.SameRules (e.scanBuffer (S := S) handle data o).2 := by
  unfold scanBuffer
  dsimp only
  split
  · exact ⟨rfl, rfl⟩
  · exact (e.trace _).sameRules_scan handle data

theorem sameRules_scanFile (e : Engine) (files : FileTree) (handle : Handle) (path : Path)
    (o : ScanOptions) : e.SameRules (e.scanFile (S := S) files handle path o).2 := by
  unfold scanFile
  dsimp only
  split
  · exact ⟨rfl, rfl⟩
  · split
    · exact (e.trace _).sameRules_scan handle _
    · exact ⟨rfl, rfl⟩

end Engine

structure Host.SameRules (h other : Host) : Prop where
  files : other.files = h.files
  engines : ∀ i, (h.engine i).SameRules (other.engine i)

theorem Host.SameRules.trans {first second third : Host} (before : first.SameRules second)
    (after : second.SameRules third) : first.SameRules third where
  files := after.files.trans before.files
  engines i :=
    ⟨(after.engines i).1.trans (before.engines i).1, (after.engines i).2.trans (before.engines i).2⟩

namespace ScanCall

open Scan

variable {r : ScanCall} {h other : Host}

theorem alike_ask {S T : Type} (r : ScanCall) (same : h.SameRules other) :
    Alike (r.ask (S := S) h).1 (r.ask (S := T) other).1 := by
  obtain ⟨rules, target, options⟩ := r
  cases target with
  | buffer data =>
      exact Engine.alike_scanBuffer (same.engines rules.slot) rules.handle data options
  | file path =>
      unfold ask Host.call
      dsimp only
      rw [same.files]
      exact Engine.alike_scanFile (same.engines rules.slot) h.files rules.handle path options

/-- Asking an engine changes its counts and its trace. -/
theorem sameRules_ask {S : Type} (r : ScanCall) (h : Host) :
    h.SameRules (r.ask (S := S) h).2 ∧ (r.ask (S := S) h).2.scans = h.scans := by
  have changed {e : Engine} (same : (h.engine r.rules.slot).SameRules e) :
      h.SameRules (h.setSlot r.rules.slot fun slot => { slot with engine := e }) := by
    refine ⟨rfl, fun i => ?_⟩
    rw [Host.engine_setSlot]
    split
    case isTrue here => rw [here.1]; exact same
    case isFalse => exact ⟨rfl, rfl⟩
  obtain ⟨rules, target, options⟩ := r
  cases target with
  | buffer data =>
      exact ⟨changed ((h.engine rules.slot).sameRules_scanBuffer rules.handle data options), rfl⟩
  | file path =>
      exact ⟨changed ((h.engine rules.slot).sameRules_scanFile h.files rules.handle path options),
        rfl⟩

theorem scan_of_refused {σ : Type} {e : Error} (refused : r.target.refusal? h.files = some e)
    (handler : Handler σ) (own : σ) : r.scan handler (h, own) = (.returned (.error e), h, own) := by
  obtain ⟨rules, target, options⟩ := r
  cases target with
  | buffer data =>
      simp only [ScanTarget.refusal?] at refused
      split at refused
      case isTrue empty =>
        cases refused
        exact if_pos empty
      case isFalse => contradiction
  | file path =>
      simp only [ScanTarget.refusal?] at refused
      unfold scan RuleSet.scanFile
      dsimp only
      split at refused
      case h_1 cause _ opened =>
        cases refused
        rw [opened]
      case h_2 opened plain =>
        cases refused
        rw [opened, plain]
      case h_3 => contradiction

/-- A scan that begins notes its target, asks its engine and runs the loop that it gets. -/
theorem scan_of_begun {σ : Type} (begins : r.target.refusal? h.files = none) (handler : Handler σ)
    (own : σ) : r.scan handler (h, own) =
      let asked := r.ask (h.note r.target.note)
      let ran := Scan.run handler (fun _ => asked.1) (asked.2, own)
      (ran.1.outcome r.target.path?, ran.2) := by
  obtain ⟨rules, target, options⟩ := r
  cases target with
  | buffer data =>
      simp only [ScanTarget.refusal?] at begins
      split at begins
      case isTrue => contradiction
      case isFalse filled => exact if_neg filled
  | file path =>
      simp only [ScanTarget.refusal?] at begins
      unfold scan RuleSet.scanFile
      dsimp only
      split at begins
      case h_1 => contradiction
      case h_2 => contradiction
      case h_3 opened plain =>
        rw [opened, plain]
        rfl

theorem keeps_scan {σ : Type} {P : List EngineSlot → σ → Prop} {handler : Handler σ}
    (keeps : KeepsEngines P handler) (r : ScanCall) {own : σ}
    (asks : ∀ h : Host, P h.engines own → P (r.ask (S := Host × σ) h).2.engines own)
    (holds : P h.engines own) :
    let after := (r.scan handler (h, own)).2
    P after.1.engines after.2 := by
  cases begins : r.target.refusal? h.files with
  | some e =>
      rw [scan_of_refused begins]
      exact holds
  | none =>
      have noted : P (h.note r.target.note).engines own := holds
      rw [scan_of_begun begins]
      exact keeps.run (r.alike_ask ⟨rfl, fun _ => ⟨rfl, rfl⟩⟩) (asks _ noted)

theorem run_of_refused {σ : Type} {e : Error} (refused : r.target.refusal? h.files = some e)
    (handler : Handler σ) (own : σ) : r.run handler (h, own) = (.returned (.error e), h, own) := by
  rw [← scan_of_refused refused, run]
  dsimp only
  rw [refused]

theorem run_eq_scan {σ : Type} {seconds : Nat} (converts : r.options.timeoutSecs = .ok seconds)
    (handler : Handler σ) (state : Host × σ) : r.run handler state = r.scan handler state := by
  unfold run
  rw [converts]
  split
  case h_1 => contradiction
  case h_2 => rfl

theorem run_of_lost {σ : Type} {text : String} (begins : r.target.refusal? h.files = none)
    (lost : r.options.timeoutSecs = .error text) (handler : Handler σ) (own : σ) :
    r.run handler (h, own) = (.panicked text, r.lapse h, own) := by
  unfold run
  dsimp only
  rw [begins, lost]

/-- Whatever its handler is, a call goes the way of the scan or dies of its timeout. -/
theorem run_cases (r : ScanCall) (h : Host) :
    (∀ {σ : Type} (handler : Handler σ) (own : σ),
      r.run handler (h, own) = r.scan handler (h, own)) ∨
    ∃ text, ∀ {σ : Type} (handler : Handler σ) (own : σ),
      r.run handler (h, own) = (.panicked text, r.lapse h, own) := by
  cases converted : r.options.timeoutSecs with
  | ok seconds => exact .inl fun handler own => run_eq_scan converted handler (h, own)
  | error text =>
      cases begins : r.target.refusal? h.files with
      | none => exact .inr ⟨text, run_of_lost begins converted⟩
      | some e =>
          refine .inl fun handler own => ?_
          rw [run_of_refused begins, scan_of_refused begins]

theorem keeps_run {σ : Type} {P : List EngineSlot → σ → Prop} {handler : Handler σ}
    (keeps : KeepsEngines P handler) (r : ScanCall) {own : σ}
    (asks : ∀ h : Host, P h.engines own → P (r.ask (S := Host × σ) h).2.engines own)
    (holds : P h.engines own) :
    let after := (r.run handler (h, own)).2
    P after.1.engines after.2 := by
  rcases r.run_cases h with same | ⟨text, lapses⟩
  · rw [same]
    exact keeps_scan keeps r asks holds
  · rw [lapses]
    exact holds

end ScanCall

end Needle
