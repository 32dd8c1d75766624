import Needle.RuleSet

/-!
# Scans that keep a ledger

A handler can write down every call it gets, and a loop every act and the status it ends with. What
they write is kept beside the handler's own state, where the scan itself does not look: a scan with
a ledger goes as the scan without one.
-/
set_option autoImplicit false

namespace Needle

namespace Scan

structure Call where
  rule : Rule
  reply : Reply
  found : Host
  left : Host

structure Ledger where
  calls : List Call := []
  acts : List (Host × Host) := []
  code : Option Code := none

def Ledger.add (ledger : Ledger) (call : Call) : Ledger :=
  { ledger with calls := ledger.calls ++ [call] }

end Scan

open Scan

section Recording

variable {σ : Type}

def Handler.callOn (handler : Handler σ) (rule : Rule) (state : Host × σ) : Call :=
  let (reply, left, _) := handler rule state
  ⟨rule, reply, state.1, left⟩

def Handler.recorded (handler : Handler σ) : Handler (σ × Ledger) :=
  fun rule (h, own, ledger) =>
    let (reply, left, after) := handler rule (h, own)
    (reply, left, after, ledger.add (handler.callOn rule (h, own)))

def recordedAct (change : Host × σ → Host × σ) : Host × σ × Ledger → Host × σ × Ledger :=
  fun (h, own, ledger) =>
    let (left, own) := change (h, own)
    (left, own, { ledger with acts := ledger.acts ++ [(h, left)] })

def recordedEnd (code : Code) : Host × σ × Ledger → Host × σ × Ledger :=
  fun (h, own, ledger) => (h, own, { ledger with code := some code })

def EngineLoop.recorded : EngineLoop (Host × σ) → EngineLoop (Host × σ × Ledger)
  | .finish code => .act (recordedEnd code) fun _ => .finish code
  | .report channel event next => .report channel event fun v => (next v).recorded
  | .act change next => .act (recordedAct change) fun (h, own, _) => (next (h, own)).recorded

def unrecorded (state : Host × σ × Ledger) : Host × σ := (state.1, state.2.1)

/-- The first loop does what the second one does, and may write in a ledger. -/
inductive Mirrors : EngineLoop (Host × σ × Ledger) → EngineLoop (Host × σ) → Prop
  | finish (code : Code) : Mirrors (.finish code) (.finish code)
  | report (channel : Channel) (event : Event)
      {next : Verdict → EngineLoop (Host × σ × Ledger)} {bare : Verdict → EngineLoop (Host × σ)}
      (rest : ∀ v, Mirrors (next v) (bare v)) :
      Mirrors (.report channel event next) (.report channel event bare)
  | act (change : Host × σ → Host × σ)
      {next : Host × σ × Ledger → EngineLoop (Host × σ × Ledger)}
      {bare : Host × σ → EngineLoop (Host × σ)}
      (rest : ∀ state, Mirrors (next state) (bare (unrecorded state))) :
      Mirrors (.act (recordedAct change) next) (.act change bare)
  | ending (code : Code) {next : Host × σ × Ledger → EngineLoop (Host × σ × Ledger)}
      {bare : EngineLoop (Host × σ)} (rest : ∀ state, Mirrors (next state) bare) :
      Mirrors (.act (recordedEnd code) next) bare

theorem mirrors_recorded (loop : EngineLoop (Host × σ)) : Mirrors loop.recorded loop := by
  induction loop with
  | finish code =>
      exact .ending code fun _ => .finish code
  | report channel event next ih =>
      exact .report channel event ih
  | act change next ih =>
      exact .act change fun state => ih (unrecorded state)

theorem mirrors_heed {loop : EngineLoop (Host × σ × Ledger)} {bare : EngineLoop (Host × σ)}
    (mirrors : Mirrors loop bare) (stubborn : Bool) (v : Verdict) :
    Mirrors (.heed stubborn loop v) (.heed stubborn bare v) := by
  unfold EngineLoop.heed
  cases stubborn with
  | true => exact mirrors
  | false =>
      cases v with
      | proceed => exact mirrors
      | abort => exact .finish Code.success
      | fail => exact .finish Code.callbackError

theorem mirrors_ofEvents (stubborn : Bool) (code : Code) (events : List Event) :
    Mirrors (σ := σ) (.ofEvents stubborn code events) (.ofEvents stubborn code events) := by
  induction events with
  | nil => exact .finish code
  | cons event rest ih => exact .report .sink event (mirrors_heed ih stubborn)

/-! ## Erasure -/

theorem receive_refused {h noted : Host} {thread : ThreadId} {id : ScanId}
    (refused : h.receive thread id = .error noted) :
    noted.scans = h.scans ∧ noted.thread = h.thread := by
  unfold Host.receive at refused
  split at refused
  case h_1 => contradiction
  case h_2 =>
    cases refused
    exact ⟨rfl, rfl⟩

/-- Whether a report reaches the handler is decided by the table alone. -/
theorem dispatch_cases (id : ScanId) (channel : Channel) (h : Host) :
    (∃ thread entered, h.receive thread id = .ok entered ∧
      ∀ {τ : Type} (handler : Handler τ) (event : Event) (tally : Tally) (own : τ),
        dispatch handler id channel event tally (h, own) =
          handle handler id event tally entered own) ∨
    (∃ after, after.scans = h.scans ∧ after.thread = h.thread ∧
      ∀ {τ : Type} (handler : Handler τ) (event : Event) (tally : Tally) (own : τ),
        dispatch handler id channel event tally (h, own) = (.fail, tally, after, own)) := by
  unfold dispatch
  rcases address : channel.address id h.thread with ⟨target, thread⟩
  cases received : h.receive thread target with
  | error noted =>
      obtain ⟨scans, onThread⟩ := receive_refused received
      refine .inr ⟨noted, scans, onThread, ?_⟩
      intro _ handler event tally own
      simp only [address, received]
  | ok entered =>
      by_cases same : target = id
      · subst same
        refine .inl ⟨thread, entered, received, ?_⟩
        intro _ handler event tally own
        simp only [address, received, if_true]
      · refine .inr ⟨h, rfl, rfl, ?_⟩
        intro _ handler event tally own
        simp only [address, received, if_neg same]

theorem drive_unrecorded (handler : Handler σ) (id : ScanId)
    {loop : EngineLoop (Host × σ × Ledger)} {bare : EngineLoop (Host × σ)}
    (mirrors : Mirrors loop bare) (tally : Tally) (state : Host × σ × Ledger) :
    drive handler id bare tally (unrecorded state) =
      ((drive handler.recorded id loop tally state).1,
        unrecorded (drive handler.recorded id loop tally state).2) := by
  induction mirrors generalizing tally state with
  | finish code => rfl
  | report channel event _ ih =>
      obtain ⟨h, own, ledger⟩ := state
      rcases dispatch_cases id channel h with
        ⟨_, entered, _, through⟩ | ⟨after, _, _, refused⟩
      · simp only [drive, unrecorded, through]
        let answered := handle handler.recorded id event tally entered (own, ledger)
        exact ih answered.1 answered.2.1 answered.2.2
      · simp only [drive, unrecorded, refused]
        exact ih .fail tally (after, own, ledger)
  | act change _ ih =>
      let changed := recordedAct change state
      exact ih changed tally changed
  | ending code _ ih =>
      let ended := recordedEnd code state
      exact ih ended tally ended

theorem run_unrecorded (handler : Handler σ) {loop : ScanId → EngineLoop (Host × σ × Ledger)}
    {bare : ScanId → EngineLoop (Host × σ)} (mirrors : ∀ id, Mirrors (loop id) (bare id))
    (state : Host × σ × Ledger) :
    run handler bare (unrecorded state) =
      ((run handler.recorded loop state).1, unrecorded (run handler.recorded loop state).2) := by
  obtain ⟨h, own, ledger⟩ := state
  let opened : Host × σ × Ledger := (h.openScan.2, own, ledger)
  have driven := drive_unrecorded handler h.openScan.1 (mirrors h.openScan.1) {} opened
  unfold run
  dsimp only [unrecorded] at driven ⊢
  rw [driven]

end Recording

end Needle
