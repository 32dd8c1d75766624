import Needle.Proofs.Scan.Protocol

/-!
# Handlers that leave the host alone

A handler whose answers depend on the rules and on a state of its own. What it makes of the rules
that an engine reports is a function of those, and the host is afterwards as it was but for the
table of scans and the log.
-/
set_option autoImplicit false

namespace Needle

def Reply.death? : Reply → Option String
  | .verdict _ => none
  | .panic text => some text

namespace Scan

theorem settled_eq (thread : ThreadId) (busy : Bool) (death : Option String) (reply : Reply) :
    ScanTable.settled ⟨thread, busy, death⟩ reply = ⟨thread, false, reply.death?.or death⟩ := by
  cases reply with
  | verdict _ => rfl
  | panic _ => rfl

variable {σ : Type}

def quiet (answer : Rule → σ → Verdict × σ) : Handler σ :=
  fun rule (h, own) => (.verdict (answer rule own).1, h, (answer rule own).2)

/-- Hands rules to a handler, up to the first that it does not let proceed. -/
def handOver (answer : Rule → σ → Verdict × σ) : List Rule → Tally × σ → Tally × σ
  | [], state => state
  | rule :: rest, (tally, own) =>
    let (v, own) := answer rule own
    match v with
    | .proceed => handOver answer rest (⟨tally.calls + 1, .proceed⟩, own)
    | v => (⟨tally.calls + 1, v⟩, own)

variable {id : ScanId} {h : Host} {death : Option String}

theorem drive_quiet {handler : Handler σ} {event : Event} {own left : σ} {reply : Reply}
    (idle : h.scans.slot? id = some ⟨h.thread, false, death⟩)
    (quiet : ∀ h, handler event.toRule (h, own) = (reply, h, left))
    (next : Verdict → EngineLoop (Host × σ)) (tally : Tally) :
    ∃ table : ScanTable, table.slot? id = some ⟨h.thread, false, reply.death?.or death⟩ ∧
      drive handler id (.report .sink event next) tally (h, own) =
        drive handler id (next (ScanTable.answer reply)) (tally.count reply)
          ({ h with scans := table }, left) := by
  let busy := h.scans.update id fun slot => { slot with busy := true }
  let table := busy.update id fun slot => ScanTable.settled slot reply
  have allowed : h.scans.enter h.thread id = .ok busy :=
    ScanTable.enter_eq_ok_iff.mpr ⟨_, idle, rfl, rfl, rfl⟩
  have received : h.receive h.thread id = .ok { h with scans := busy } :=
    receive_eq_ok_iff.mpr ⟨busy, allowed, rfl⟩
  have entered : busy.slot? id = some ⟨h.thread, true, death⟩ := by
    rw [ScanTable.slot?_update, if_pos rfl, idle]
    rfl
  have settled : table.slot? id = some ⟨h.thread, false, reply.death?.or death⟩ := by
    rw [ScanTable.slot?_update, if_pos rfl, entered, Option.map_some, settled_eq]
  refine ⟨table, settled, ?_⟩
  rw [drive_sink received]
  unfold handle
  simp only [quiet, ScanTable.settle_of_slot entered]
  rfl

/-- The events of a loop are handed over; where all of them proceed, the loop ends with its own
status. -/
theorem drive_handOver (answer : Rule → σ → Verdict × σ) (code : Code) (events : List Event)
    (idle : h.scans.slot? id = some ⟨h.thread, false, none⟩) (tally : Tally) (own : σ) :
    let handed := handOver answer (events.map Event.toRule) (tally, own)
    ∃ table last, table.slot? id = some ⟨h.thread, false, none⟩ ∧
      drive (quiet answer) id (.ofEvents false code events) tally (h, own) =
        (⟨last, handed.1⟩, { h with scans := table }, handed.2) ∧
      (handed.1.last = .proceed → last = code) := by
  induction events generalizing h tally own with
  | nil => exact ⟨h.scans, code, idle, rfl, fun _ => rfl⟩
  | cons event rest ih =>
      have answers (h : Host) : quiet answer event.toRule (h, own) =
          (.verdict (answer event.toRule own).1, h, (answer event.toRule own).2) := rfl
      obtain ⟨table, settled, driven⟩ := drive_quiet idle answers
        (.heed false (.ofEvents false code rest)) tally
      rw [EngineLoop.ofEvents, driven, List.map_cons, handOver]
      generalize answer event.toRule own = answered at settled
      obtain ⟨v, left⟩ := answered
      cases v with
      | proceed =>
          exact ih (h := { h with scans := table }) settled ⟨tally.calls + 1, .proceed⟩ left
      | abort => exact ⟨table, Code.success, settled, rfl, fun same => absurd same (by simp)⟩
      | fail => exact ⟨table, Code.callbackError, settled, rfl, fun same => absurd same (by simp)⟩

theorem conclude_congr {tally : Tally} {code last : Code}
    (same : tally.last = .proceed → last = code) (path : Option Path) :
    conclude ⟨last, tally⟩ path = conclude ⟨code, tally⟩ path := by
  unfold conclude
  cases verdict : tally.last with
  | proceed => rw [same verdict]
  | abort => rfl
  | fail => rfl

theorem run_quiet (answer : Rule → σ → Verdict × σ) (code : Code) (events : List Event) (h : Host)
    (own : σ) (path : Option Path) :
    let handed := handOver answer (events.map Event.toRule) ({}, own)
    ∃ ending after,
      run (quiet answer) (fun _ => .ofEvents false code events) (h, own) =
        (ending, after, handed.2) ∧
      ending.outcome path = .returned (conclude ⟨code, handed.1⟩ path) ∧
      after.files = h.files ∧ after.engines = h.engines := by
  intro handed
  have opened := (running_openScan h).slot_eq
  have onThread : h.openScan.2.thread = h.thread := rfl
  rw [← onThread] at opened
  obtain ⟨table, last, idle, driven, status⟩ := drive_handOver answer code events opened {} own
  have nobody : (table.finish h.scans.next).1 = none := by
    unfold ScanTable.finish
    rw [idle]
    rfl
  refine ⟨.ran ⟨last, handed.1⟩,
    { h.openScan.2 with scans := (table.finish h.scans.next).2 }, ?_, ?_, rfl, rfl⟩
  · unfold run
    dsimp only
    rw [show h.openScan.1 = h.scans.next from rfl, driven]
    unfold close
    dsimp only
    rw [nobody]
  · exact congrArg ScanOutcome.returned (conclude_congr status path)

theorem drive_quiet_keeps (answer : Rule → σ → Verdict × σ) (code : Code) (events : List Event)
    {other : ScanId} (tally : Tally) (state : Host × σ × Ledger) (kept : state.2.2.Keeps other) :
    (drive (quiet answer).recorded id (.ofEvents false code events) tally state).2.2.2.Keeps other := by
  induction events generalizing tally state with
  | nil => exact kept
  | cons event rest ih =>
      obtain ⟨h, own, ledger⟩ := state
      rcases dispatch_cases id .sink h with ⟨_, entered, _, through⟩ | ⟨after, _, _, refused⟩
      · let call := (quiet answer).callOn event.toRule (entered, own)
        have more : (ledger.add call).Keeps other := by
          refine ⟨fun made member => ?_, kept.2⟩
          rcases List.mem_append.mp member with old | new
          · exact kept.1 made old
          · rw [List.mem_singleton.mp new]
            exact ⟨rfl, rfl⟩
        rw [EngineLoop.ofEvents, drive, through]
        let answered := handle (quiet answer).recorded id event tally entered (own, ledger)
        show (drive _ id (.heed false _ answered.1) answered.2.1 answered.2.2).2.2.2.Keeps other
        cases answered.1 with
        | proceed => exact ih answered.2.1 answered.2.2 more
        | abort => exact more
        | fail => exact more
      · rw [EngineLoop.ofEvents, drive, refused]
        exact kept

theorem run_quiet_keeps (answer : Rule → σ → Verdict × σ) (code : Code) (events : List Event)
    (h : Host) (own : σ) (other : ScanId) :
    (run (quiet answer).recorded (fun _ => .ofEvents false code events) (h, own, {})).2.2.2.Keeps
      other :=
  drive_quiet_keeps answer code events {} (h.openScan.2, own, {})
    ⟨fun _ member => absurd member List.not_mem_nil, fun _ member => absurd member List.not_mem_nil⟩

end Scan

end Needle
