import Needle.Proofs.Scan.Call
import Needle.Proofs.Scan.Quiet
import Needle.Proofs.Scan.Status
import Needle.Proofs.Untraced

/-!
# Scans that go alike

Two scans with the same content before the same rules go alike, wherever the content comes from: the
engine is asked in different words, but what it reports is the same. This is a simulation between
hosts that differ in the log and the traces only. Handlers have to take part in it, so it holds for
handlers that look at neither; a handler that runs such scans itself is one of them.
-/
set_option autoImplicit false

namespace Needle

namespace Engine

open Scan

def serve {S : Type} (e : Engine) (handle : Handle) (content : Except IoError Bytes) :
    EngineLoop S × Engine :=
  match e.faults.scan with
  | some canned => (.ofEvents canned.stubborn canned.code canned.events, e)
  | none =>
    match content with
    | .ok data => e.scan handle data
    | .error _ => (.finish Code.couldNotOpenFile, e)

variable {S T : Type} {e f : Engine}

theorem scan_untraced (same : e.untraced = f.untraced) (handle : Handle) (data : Bytes) :
    Alike (e.scan (S := S) handle data).1 (f.scan (S := T) handle data).1 ∧
      (e.scan (S := S) handle data).2.untraced = (f.scan (S := T) handle data).2.untraced := by
  have found : e.ruleSet? handle = f.ruleSet? handle := (congrArg (ruleSet? · handle) same :)
  have faults : e.faults = f.faults := (congrArg Engine.faults same :)
  let counted (e : Engine) : Engine := { e with stats.scans := e.stats.scans + 1 }
  have counts : counted e.untraced = counted f.untraced := congrArg counted same
  unfold scan
  rw [found]
  cases f.ruleSet? handle with
  | none => exact ⟨.finish _, same⟩
  | some patterns =>
      refine ⟨?_, counts⟩
      dsimp only
      rw [faults]
      exact alike_ofEvents false _ _

theorem serve_untraced (same : e.untraced = f.untraced) (handle : Handle)
    (content : Except IoError Bytes) :
    Alike (e.serve (S := S) handle content).1 (f.serve (S := T) handle content).1 ∧
      (e.serve (S := S) handle content).2.untraced =
        (f.serve (S := T) handle content).2.untraced := by
  have faults : e.faults = f.faults := (congrArg Engine.faults same :)
  unfold serve
  rw [faults]
  cases f.faults.scan with
  | some canned => exact ⟨alike_ofEvents canned.stubborn canned.code canned.events, same⟩
  | none =>
      cases content with
      | ok data => exact scan_untraced same handle data
      | error cause => exact ⟨.finish _, same⟩

theorem mirrors_serve {σ : Type} (e : Engine) (handle : Handle) (content : Except IoError Bytes) :
    Mirrors (σ := σ) (e.serve handle content).1 (e.serve handle content).1 ∧
      (e.serve (S := Host × σ × Ledger) handle content).2 =
        (e.serve (S := Host × σ) handle content).2 := by
  unfold serve scan
  cases e.faults.scan with
  | some canned => exact ⟨mirrors_ofEvents canned.stubborn canned.code canned.events, rfl⟩
  | none =>
      cases content with
      | error cause => exact ⟨.finish _, rfl⟩
      | ok data =>
          dsimp only
          cases e.ruleSet? handle with
          | none => exact ⟨.finish _, rfl⟩
          | some patterns => exact ⟨mirrors_ofEvents false _ _, rfl⟩

end Engine

/-! ## Handlers -/

namespace Scan

variable {σ τ : Type} {R : σ → τ → Prop}

/-- Two states that are the same but for the log and the traces, and for what is related in the
handlers' own. -/
structure Like (R : σ → τ → Prop) (x : Host × σ) (y : Host × τ) : Prop where
  host : x.1.untraced = y.1.untraced
  own : R x.2 y.2

/-- In such states the two handlers answer the same, and leave such states. -/
def Mimics (R : σ → τ → Prop) (handler : Handler σ) (other : Handler τ) : Prop :=
  ∀ rule x y, Like R x y →
    (handler rule x).1 = (other rule y).1 ∧ Like R (handler rule x).2 (other rule y).2

variable {handler : Handler σ} {other : Handler τ} {x : Host × σ} {y : Host × τ}

theorem receive_untraced {h k : Host} (same : h.untraced = k.untraced) (thread : ThreadId)
    (id : ScanId) :
    match h.receive thread id, k.receive thread id with
    | .ok entered, .ok entered' => entered.untraced = entered'.untraced
    | .error noted, .error noted' => noted.untraced = noted'.untraced
    | _, _ => False := by
  have scans : h.scans = k.scans := (congrArg Host.scans same :)
  unfold Host.receive
  rw [scans]
  cases k.scans.enter thread id with
  | ok table => exact Host.untraced_scans same table
  | error refusal => exact same

theorem Mimics.handle (mimics : Mimics R handler other) (id : ScanId) (event : Event)
    (tally : Tally) (like : Like R x y) :
    let here := Scan.handle handler id event tally x.1 x.2
    let there := Scan.handle other id event tally y.1 y.2
    here.1 = there.1 ∧ here.2.1 = there.2.1 ∧ Like R here.2.2 there.2.2 := by
  obtain ⟨answer, left⟩ := mimics event.toRule x y like
  have scans : (handler event.toRule x).2.1.scans = (other event.toRule y).2.1.scans :=
    (congrArg Host.scans left.host :)
  unfold Scan.handle
  dsimp only
  rw [show (x.1, x.2) = x from rfl, show (y.1, y.2) = y from rfl, answer, scans]
  exact ⟨rfl, rfl, Host.untraced_scans left.host _, left.own⟩

theorem Mimics.dispatch (mimics : Mimics R handler other) (id : ScanId) (event : Event)
    (tally : Tally) (like : Like R x y) :
    let here := Scan.dispatch handler id .sink event tally x
    let there := Scan.dispatch other id .sink event tally y
    here.1 = there.1 ∧ here.2.1 = there.2.1 ∧ Like R here.2.2 there.2.2 := by
  obtain ⟨h, own⟩ := x
  obtain ⟨k, own'⟩ := y
  have thread : h.thread = k.thread := (congrArg Host.thread like.host :)
  have received := receive_untraced like.host k.thread id
  unfold Scan.dispatch
  simp only [Channel.address, thread, if_true]
  cases entering : h.receive k.thread id with
  | ok entered =>
      cases entering' : k.receive k.thread id with
      | ok entered' =>
          rw [entering, entering'] at received
          exact mimics.handle (x := (entered, own)) (y := (entered', own')) id event tally
            ⟨received, like.own⟩
      | error noted =>
          rw [entering, entering'] at received
          contradiction
  | error noted =>
      cases entering' : k.receive k.thread id with
      | ok entered' =>
          rw [entering, entering'] at received
          contradiction
      | error noted' =>
          rw [entering, entering'] at received
          exact ⟨rfl, rfl, received, like.own⟩

/-- Loops that report the same go alike. -/
theorem Mimics.drive (mimics : Mimics R handler other) (id : ScanId)
    {loop : EngineLoop (Host × σ)} {loop' : EngineLoop (Host × τ)} (alike : Alike loop loop')
    (tally : Tally) (like : Like R x y) :
    let here := Scan.drive handler id loop tally x
    let there := Scan.drive other id loop' tally y
    here.1 = there.1 ∧ Like R here.2 there.2 := by
  induction alike generalizing tally x y with
  | finish code => exact ⟨rfl, like⟩
  | report event rest ih =>
      obtain ⟨verdict, count, left⟩ := mimics.dispatch id event tally like
      unfold Scan.drive
      dsimp only
      rw [verdict, count]
      exact ih _ _ left

theorem openScan_untraced {h k : Host} (same : h.untraced = k.untraced) :
    h.openScan.1 = k.openScan.1 ∧ h.openScan.2.untraced = k.openScan.2.untraced := by
  have scans : h.scans = k.scans := (congrArg Host.scans same :)
  have thread : h.thread = k.thread := (congrArg Host.thread same :)
  have registered : h.scans.register h.thread = k.scans.register k.thread := by rw [scans, thread]
  unfold Host.openScan
  rw [registered]
  exact ⟨rfl, Host.untraced_scans same _⟩

theorem close_untraced {h k : Host} (same : h.untraced = k.untraced) (id : ScanId) (run : ScanRun) :
    (close id run h).1 = (close id run k).1 ∧
      (close id run h).2.untraced = (close id run k).2.untraced := by
  have scans : h.scans = k.scans := (congrArg Host.scans same :)
  unfold close
  rw [scans]
  dsimp only
  split
  · exact ⟨rfl, Host.untraced_scans same _⟩
  · exact ⟨rfl, Host.untraced_scans same _⟩

theorem Mimics.run (mimics : Mimics R handler other) {loop : EngineLoop (Host × σ)}
    {loop' : EngineLoop (Host × τ)} (alike : Alike loop loop') (like : Like R x y) :
    let here := Scan.run handler (fun _ => loop) x
    let there := Scan.run other (fun _ => loop') y
    here.1 = there.1 ∧ Like R here.2 there.2 := by
  obtain ⟨h, own⟩ := x
  obtain ⟨k, own'⟩ := y
  obtain ⟨number, opened⟩ := openScan_untraced like.host
  have started : Like R (h.openScan.2, own) (k.openScan.2, own') := ⟨opened, like.own⟩
  obtain ⟨finished, driven⟩ := mimics.drive h.openScan.1 alike {} started
  unfold Scan.run
  dsimp only at number finished driven ⊢
  rw [← number, ← finished]
  obtain ⟨ending, closed⟩ := close_untraced driven.host h.openScan.1
    (Scan.drive handler h.openScan.1 loop {} (h.openScan.2, own)).1
  exact ⟨ending, closed, driven.own⟩

end Scan

open Scan

variable {σ τ : Type}

/-- A handler that looks neither at the log nor at the traces of the engines. -/
def Handler.Blind (handler : Handler σ) : Prop := Mimics Eq handler handler

def SameCalls (x y : σ × Ledger) : Prop :=
  x.1 = y.1 ∧ x.2.calls.map Call.answered = y.2.calls.map Call.answered

theorem Handler.Blind.recorded {handler : Handler σ} (blind : handler.Blind) :
    Mimics SameCalls handler.recorded handler.recorded := by
  rintro rule ⟨h, own, ledger⟩ ⟨k, own', ledger'⟩ like
  obtain ⟨answer, left⟩ := blind rule (h, own) (k, own') ⟨like.host, like.own.1⟩
  have made : (handler.callOn rule (h, own)).answered = (handler.callOn rule (k, own')).answered :=
    congrArg (rule, ·) answer
  refine ⟨answer, left.host, left.own, ?_⟩
  simp only [Handler.recorded, Ledger.add, List.map_append, List.map_singleton, made, like.own.2]

theorem Handler.blind_quiet (answer : Rule → σ → Verdict × σ) : (quiet answer).Blind := by
  rintro rule ⟨h, own⟩ ⟨k, own'⟩ ⟨host, same⟩
  obtain rfl : own = own' := same
  exact ⟨rfl, host, rfl⟩

/-! ## Calls -/

namespace ScanTarget

def content (files : FileTree) : ScanTarget → Except IoError Bytes
  | .buffer data => .ok data
  | .file path => files.readFile (Engine.shownPath path)

end ScanTarget

namespace ScanCall

variable {r r' : ScanCall} {h k : Host}

theorem ask_eq_serve (r : ScanCall) (h : Host) :
    ∃ e : Engine, e.untraced = (h.engine r.rules.slot).untraced ∧ ∀ {S : Type},
      let served := e.serve (S := S) r.rules.handle (r.target.content h.files)
      r.ask h = (served.1, h.setSlot r.rules.slot fun slot => { slot with engine := served.2 }) := by
  obtain ⟨rules, target, options⟩ := r
  cases target with
  | buffer data => exact ⟨(h.engine rules.slot).trace _, rfl, rfl⟩
  | file path => exact ⟨(h.engine rules.slot).trace _, rfl, rfl⟩

theorem scan_unrecorded (r : ScanCall) (handler : Handler σ) (state : Host × σ × Ledger) :
    r.scan handler (unrecorded state) =
      ((r.scan handler.recorded state).1, unrecorded (r.scan handler.recorded state).2) := by
  obtain ⟨h, own, ledger⟩ := state
  unfold unrecorded
  cases begins : r.target.refusal? h.files with
  | some e => rw [scan_of_refused begins, scan_of_refused begins]
  | none =>
      obtain ⟨e, _, asked⟩ := r.ask_eq_serve (h.note r.target.note)
      obtain ⟨mirrors, left⟩ := e.mirrors_serve (σ := σ) r.rules.handle
        (r.target.content (h.note r.target.note).files)
      let begun := (h.note r.target.note).setSlot r.rules.slot fun slot =>
        { slot with engine := (e.serve (S := Host × σ) r.rules.handle
          (r.target.content (h.note r.target.note).files)).2 }
      have erased := Needle.run_unrecorded handler (fun _ => mirrors) (begun, own, ledger)
      rw [scan_of_begun begins, scan_of_begun begins]
      simp only [asked, left]
      exact congrArg (fun ran => (ran.1.outcome r.target.path?, ran.2)) erased

/-- Scans with the same content before the same rules: the engine does the same for both. -/
structure Serves (r r' : ScanCall) (h k : Host) : Prop where
  host : h.untraced = k.untraced
  slot : r'.rules.slot = r.rules.slot
  handle : r'.rules.handle = r.rules.handle
  content : r'.target.content k.files = r.target.content h.files

theorem Serves.ask {S T : Type} (serves : Serves r r' h k) :
    Alike (r.ask (S := S) h).1 (r'.ask (S := T) k).1 ∧
      (r.ask (S := S) h).2.untraced = (r'.ask (S := T) k).2.untraced := by
  obtain ⟨e, same, asked⟩ := r.ask_eq_serve h
  obtain ⟨f, same', asked'⟩ := r'.ask_eq_serve k
  simp only [serves.slot, serves.handle, serves.content] at asked'
  rw [serves.slot, ← Host.engine_untraced, ← serves.host, Host.engine_untraced] at same'
  obtain ⟨alike, left⟩ := Engine.serve_untraced (S := S) (T := T) (same.trans same'.symm)
    r.rules.handle (r.target.content h.files)
  rw [asked, asked']
  exact ⟨alike, h.untraced_setEngine_congr r.rules.slot serves.host left⟩

/-- Two scans that begin come to the same end, said of what each of them scans. -/
theorem Serves.scan {R : σ → τ → Prop} {handler : Handler σ} {other : Handler τ}
    (serves : Serves r r' h k) (mimics : Mimics R handler other)
    (begins : r.target.refusal? h.files = none) (begins' : r'.target.refusal? k.files = none)
    {own : σ} {own' : τ} (owns : R own own') :
    ∃ ending : Ending, (r.scan handler (h, own)).1 = ending.outcome r.target.path? ∧
      (r'.scan other (k, own')).1 = ending.outcome r'.target.path? ∧
      Like R (r.scan handler (h, own)).2 (r'.scan other (k, own')).2 := by
  have noted : Serves r r' (h.note r.target.note) (k.note r'.target.note) :=
    ⟨serves.host, serves.slot, serves.handle, serves.content⟩
  obtain ⟨alike, left⟩ := noted.ask (S := Host × σ) (T := Host × τ)
  let x := ((r.ask (S := Host × σ) (h.note r.target.note)).2, own)
  let y := ((r'.ask (S := Host × τ) (k.note r'.target.note)).2, own')
  have like : Like R x y := ⟨left, owns⟩
  obtain ⟨same, after⟩ := mimics.run alike like
  rw [scan_of_begun begins, scan_of_begun begins']
  exact ⟨_, rfl, congrArg (Ending.outcome r'.target.path?) same.symm, after⟩

theorem lapse_untraced (r : ScanCall) (same : h.untraced = k.untraced) :
    (r.lapse h).untraced = (r.lapse k).untraced := by
  have noted : (h.note r.target.note).untraced = (k.note r.target.note).untraced := same
  obtain ⟨number, opened⟩ := openScan_untraced noted
  have table : (h.note r.target.note).openScan.2.scans = (k.note r.target.note).openScan.2.scans :=
    (congrArg Host.scans opened :)
  unfold lapse
  dsimp only
  rw [number, table]
  exact Host.untraced_scans opened _

theorem like_run {R : σ → τ → Prop} {handler : Handler σ} {other : Handler τ} (r : ScanCall)
    (mimics : Mimics R handler other) {x : Host × σ} {y : Host × τ} (like : Like R x y) :
    (r.run handler x).1 = (r.run other y).1 ∧ Like R (r.run handler x).2 (r.run other y).2 := by
  obtain ⟨h, own⟩ := x
  obtain ⟨k, own'⟩ := y
  have files : k.files = h.files := (congrArg Host.files like.host.symm :)
  have same : r.target.refusal? k.files = r.target.refusal? h.files := by rw [files]
  cases begins : r.target.refusal? h.files with
  | some e =>
      rw [run_of_refused begins, run_of_refused (same.trans begins)]
      exact ⟨rfl, like⟩
  | none =>
      cases converted : r.options.timeoutSecs with
      | ok seconds =>
          have serves : Serves r r h k := ⟨like.host, rfl, rfl, by rw [files]⟩
          obtain ⟨ending, here, there, after⟩ :=
            serves.scan mimics begins (same.trans begins) like.own
          rw [run_eq_scan converted, run_eq_scan converted]
          exact ⟨here.trans there.symm, after⟩
      | error text =>
          rw [run_of_lost begins converted, run_of_lost (same.trans begins) converted]
          exact ⟨rfl, r.lapse_untraced like.host, like.own⟩

/-- A handler that runs a scan with a blind handler, and answers from what it comes to, is blind. -/
theorem blind_nested {inner : Handler τ} (blind : inner.Blind) (r : ScanCall) (start : σ → τ)
    (answer : Rule → σ → ScanOutcome → τ → Reply × σ) :
    Handler.Blind fun rule (h, own) =>
      let (outcome, h, found) := r.run inner (h, start own)
      let (reply, own) := answer rule own outcome found
      (reply, h, own) := by
  rintro rule ⟨h, own⟩ ⟨k, own'⟩ ⟨host, same⟩
  obtain rfl : own = own' := same
  have like : Like Eq (h, start own) (k, start own) := ⟨host, rfl⟩
  obtain ⟨outcome, left⟩ := r.like_run blind like
  have found := left.own
  refine ⟨?_, left.host, ?_⟩
  · dsimp only
    rw [outcome, found]
  · dsimp only
    rw [outcome, found]

end ScanCall

end Needle
