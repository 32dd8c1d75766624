import Needle.Proofs.Scan.Ledger
import Needle.Proofs.Scan.Table

/-!
# The outcome of one scan

An engine may report what it likes, by whatever number, and go on after any verdict. What the caller
gets is still decided by the calls of the handler and the status of the engine: a scan comes back
unless a call died, and then the last verdict goes before the status.

Between two reports the entry of a running scan is idle and keeps what its handler last died of
(`Running`). Handlers and loops have no way to the entry, nor do they move to another thread: that
is what `Keeps` says of a step of theirs.
-/
set_option autoImplicit false

namespace Needle.Scan

variable {σ : Type}

/-- Between two hosts the entry of a scan and the thread are the same. -/
def Keeps (id : ScanId) (before after : Host) : Prop :=
  after.thread = before.thread ∧ after.scans.slot? id = before.scans.slot? id

def Call.verdict? (call : Call) : Option Verdict :=
  match call.reply with
  | .verdict v => some v
  | .panic _ => none

def Call.death? (call : Call) : Option String :=
  match call.reply with
  | .verdict _ => none
  | .panic text => some text

instance (id : ScanId) (before after : Host) : Decidable (Keeps id before after) :=
  inferInstanceAs (Decidable (_ ∧ _))

/-- No call of the handler and no act of the loop has got at the entry of the scan. -/
def Ledger.Keeps (ledger : Ledger) (id : ScanId) : Prop :=
  (∀ call ∈ ledger.calls, Scan.Keeps id call.found call.left) ∧
    ∀ act ∈ ledger.acts, Scan.Keeps id act.1 act.2

instance (ledger : Ledger) (id : ScanId) : Decidable (ledger.Keeps id) :=
  inferInstanceAs (Decidable (_ ∧ _))

def lastDeath (calls : List Call) : Option String :=
  (calls.filterMap Call.death?).getLast?

def counted (calls : List Call) : Tally :=
  let verdicts := calls.filterMap Call.verdict?
  ⟨verdicts.length, verdicts.getLast?.getD .proceed⟩

def Call.Returned (call : Call) : Prop := ∃ v, call.reply = .verdict v

/-- The handler found its scan busy, on the thread of the scan. -/
def Call.Busy (id : ScanId) (thread : ThreadId) (call : Call) : Prop :=
  call.found.thread = thread ∧
    ∃ death, call.found.scans.slot? id = some ⟨thread, true, death⟩

structure Running (id : ScanId) (thread : ThreadId) (calls : List Call) (tally : Tally)
    (h : Host) : Prop where
  thread_eq : h.thread = thread
  slot_eq : h.scans.slot? id = some ⟨thread, false, lastDeath calls⟩
  tally_eq : tally = counted calls
  busy : ∀ call ∈ calls, call.Busy id thread

/-! ## One report -/

theorem receive_eq_ok_iff {h entered : Host} {thread : ThreadId} {id : ScanId} :
    h.receive thread id = .ok entered ↔
      ∃ table, h.scans.enter thread id = .ok table ∧ entered = { h with scans := table } := by
  unfold Host.receive
  cases h.scans.enter thread id with
  | error refusal => simp
  | ok table => simp [eq_comm]

/-- No report gets through to a busy scan. -/
theorem receive_of_busy {h : Host} {id : ScanId} {owner : ThreadId} {death : Option String}
    (busy : h.scans.slot? id = some ⟨owner, true, death⟩) (thread : ThreadId) :
    ∃ noted, h.receive thread id = .error noted := by
  have refused : ∃ refusal, h.scans.enter thread id = .error refusal := by
    rw [ScanTable.enter_refused_iff]
    intro slot found
    rw [busy, Option.some.injEq] at found
    subst found
    exact .inr rfl
  obtain ⟨refusal, turned⟩ := refused
  unfold Host.receive
  rw [turned]
  exact ⟨_, rfl⟩

theorem lastDeath_append (calls : List Call) (call : Call) :
    lastDeath (calls ++ [call]) = call.death?.or (lastDeath calls) := by
  rw [lastDeath, List.filterMap_append, List.getLast?_append]
  cases died : call.death? <;> simp [died, lastDeath]

theorem counted_append (calls : List Call) (call : Call) :
    counted (calls ++ [call]) = (counted calls).count call.reply := by
  obtain ⟨rule, reply, found, left⟩ := call
  cases reply with
  | verdict v => simp [counted, Tally.count, Call.verdict?]
  | panic text => simp [counted, Tally.count, Call.verdict?]

/-- A report to a running scan that is let through finds it, marks it busy and changes nothing
else of the host. -/
theorem Running.entered {id : ScanId} {thread arrived : ThreadId} {calls : List Call}
    {tally : Tally} {h entered : Host} (running : Running id thread calls tally h)
    (through : h.receive arrived id = .ok entered) :
    entered.thread = thread ∧
      entered.scans.slot? id = some ⟨thread, true, lastDeath calls⟩ := by
  obtain ⟨table, allowed, rfl⟩ := receive_eq_ok_iff.mp through
  obtain ⟨slot, found, own, idle, rfl⟩ := ScanTable.enter_eq_ok_iff.mp allowed
  rw [running.slot_eq, Option.some.injEq] at found
  subst found
  refine ⟨running.thread_eq, ?_⟩
  rw [ScanTable.slot?_update, if_pos rfl, running.slot_eq]
  rfl

theorem Running.handle {id : ScanId} {thread arrived : ThreadId} {tally : Tally}
    {h entered : Host} {ledger : Ledger} (running : Running id thread ledger.calls tally h)
    (through : h.receive arrived id = .ok entered) (handler : Handler σ) (event : Event) (own : σ)
    {call : Call} (calling : call = handler.callOn event.toRule (entered, own))
    (kept : Keeps id call.found call.left) :
    ∃ after own', handle handler.recorded id event tally entered (own, ledger) =
        (ScanTable.answer call.reply, tally.count call.reply, after, own', ledger.add call) ∧
      Running id thread (ledger.calls ++ [call]) (tally.count call.reply) after := by
  subst calling
  obtain ⟨onThread, busy⟩ := running.entered through
  rcases answered : handler event.toRule (entered, own) with ⟨reply, left, own'⟩
  simp only [Handler.callOn, answered] at kept ⊢
  have found : left.scans.slot? id = some ⟨thread, true, lastDeath ledger.calls⟩ :=
    kept.2.trans busy
  have settled := ScanTable.settle_of_slot found reply
  let table := left.scans.update id fun slot => ScanTable.settled slot reply
  refine ⟨{ left with scans := table }, own', ?_, ?_⟩
  · simp only [Scan.handle, Handler.recorded, Handler.callOn, answered, settled]
    rfl
  · constructor
    case thread_eq => exact kept.1.trans onThread
    case slot_eq =>
      rw [ScanTable.slot?_update, if_pos rfl, found, lastDeath_append]
      cases reply with
      | verdict _ => rfl
      | panic _ => rfl
    case tally_eq => rw [counted_append, running.tally_eq]
    case busy =>
      intro made member
      rcases List.mem_append.mp member with old | new
      · exact running.busy made old
      · rw [List.mem_singleton.mp new]
        exact ⟨onThread, _, busy⟩

/-! ## The whole run -/

theorem drive_extends (handler : Handler σ) (id : ScanId) {loop : EngineLoop (Host × σ × Ledger)}
    {bare : EngineLoop (Host × σ)} (mirrors : Mirrors loop bare) (tally : Tally)
    (state : Host × σ × Ledger) :
    state.2.2.calls <+: (drive handler.recorded id loop tally state).2.2.2.calls ∧
      state.2.2.acts <+: (drive handler.recorded id loop tally state).2.2.2.acts := by
  induction mirrors generalizing tally state with
  | finish code => exact ⟨List.prefix_refl _, List.prefix_refl _⟩
  | report channel event _ ih =>
      obtain ⟨h, own, ledger⟩ := state
      rcases dispatch_cases id channel h with
        ⟨_, entered, _, through⟩ | ⟨after, _, _, refused⟩
      · simp only [drive, through]
        let answered := Scan.handle handler.recorded id event tally entered (own, ledger)
        obtain ⟨calls, acts⟩ := ih answered.1 answered.2.1 answered.2.2
        exact ⟨(List.prefix_append _ _).trans calls, acts⟩
      · simp only [drive, refused]
        exact ih .fail tally (after, own, ledger)
  | act change _ ih =>
      let changed := recordedAct change state
      obtain ⟨calls, acts⟩ := ih changed tally changed
      exact ⟨calls, (List.prefix_append _ _).trans acts⟩
  | ending code _ ih =>
      let ended := recordedEnd code state
      exact ih ended tally ended

theorem call_mem (handler : Handler σ) (id : ScanId)
    {next : Verdict → EngineLoop (Host × σ × Ledger)} {bare : Verdict → EngineLoop (Host × σ)}
    (rest : ∀ v, Mirrors (next v) (bare v)) (event : Event) (tally : Tally) (entered : Host)
    (own : σ) (ledger : Ledger) :
    let answered := handle handler.recorded id event tally entered (own, ledger)
    handler.callOn event.toRule (entered, own) ∈
      (drive handler.recorded id (next answered.1) answered.2.1 answered.2.2).2.2.2.calls := by
  intro answered
  have recorded := (drive_extends handler id (rest answered.1) answered.2.1 answered.2.2).1
  apply recorded.subset
  exact List.mem_append_right _ (List.mem_singleton.mpr rfl)

theorem act_mem (handler : Handler σ) (id : ScanId) (change : Host × σ → Host × σ)
    {next : Host × σ × Ledger → EngineLoop (Host × σ × Ledger)}
    {bare : Host × σ → EngineLoop (Host × σ)}
    (rest : ∀ state, Mirrors (next state) (bare (unrecorded state))) (tally : Tally)
    (state : Host × σ × Ledger) :
    let changed := recordedAct change state
    (state.1, changed.1) ∈
      (drive handler.recorded id (next changed) tally changed).2.2.2.acts := by
  intro changed
  have recorded := (drive_extends handler id (rest changed) tally changed).2
  apply recorded.subset
  exact List.mem_append_right _ (List.mem_singleton.mpr rfl)

theorem Running.of_keeps {id : ScanId} {thread : ThreadId} {calls : List Call} {tally : Tally}
    {h after : Host} (running : Running id thread calls tally h) (kept : Keeps id h after) :
    Running id thread calls tally after where
  thread_eq := kept.1.trans running.thread_eq
  slot_eq := kept.2.trans running.slot_eq
  tally_eq := running.tally_eq
  busy := running.busy

theorem Running.drive (handler : Handler σ) {id : ScanId} {thread : ThreadId}
    {loop : EngineLoop (Host × σ × Ledger)} {bare : EngineLoop (Host × σ)}
    (mirrors : Mirrors loop bare) {tally : Tally} (state : Host × σ × Ledger)
    (running : Running id thread state.2.2.calls tally state.1)
    (kept : (drive handler.recorded id loop tally state).2.2.2.Keeps id) :
    Running id thread (drive handler.recorded id loop tally state).2.2.2.calls
      (drive handler.recorded id loop tally state).1.tally
      (drive handler.recorded id loop tally state).2.1 := by
  induction mirrors generalizing tally state with
  | finish code => exact running
  | report channel event rest ih =>
      obtain ⟨h, own, ledger⟩ := state
      rcases dispatch_cases id channel h with
        ⟨arrived, entered, received, through⟩ | ⟨after, scans, onThread, refused⟩
      · simp only [Scan.drive, through] at kept ⊢
        have called := kept.1 _ (call_mem handler id rest event tally entered own ledger)
        obtain ⟨after, own', handled, next⟩ := running.handle received handler event own rfl called
        rw [handled] at kept ⊢
        exact ih _ _ next kept
      · simp only [Scan.drive, refused] at kept ⊢
        refine ih .fail _ ?_ kept
        exact running.of_keeps ⟨onThread, congrArg (·.slot? id) scans⟩
  | act change rest ih =>
      have acted := kept.2 _ (act_mem handler id change rest tally state)
      exact ih (recordedAct change state) _ (running.of_keeps acted) kept
  | ending code _ ih =>
      exact ih (recordedEnd code state) _ running kept

theorem drive_code (handler : Handler σ) (id : ScanId) (loop : EngineLoop (Host × σ))
    (tally : Tally) (state : Host × σ × Ledger) :
    (drive handler.recorded id loop.recorded tally state).2.2.2.code =
      some (drive handler.recorded id loop.recorded tally state).1.code := by
  induction loop generalizing tally state with
  | finish code => rfl
  | report channel event next ih =>
      let reported := dispatch handler.recorded id channel event tally state
      exact ih reported.1 reported.2.1 reported.2.2
  | act change next ih =>
      let changed := recordedAct change state
      exact ih (unrecorded changed) tally changed

theorem running_openScan (h : Host) : Running h.scans.next h.thread [] {} h.openScan.2 where
  thread_eq := rfl
  slot_eq := by
    have opened := h.scans.issue.2.slot?_insert h.thread h.scans.next h.scans.next
    rw [if_pos rfl] at opened
    exact opened
  tally_eq := rfl
  busy := by simp

/-- The end of a scan: its entry is gone, and its calls tell whether it comes back. -/
theorem Running.close {id : ScanId} {thread : ThreadId} {calls : List Call} {run : ScanRun}
    {h : Host} (running : Running id thread calls run.tally h) :
    (close id run h).2.scans.slot? id = none ∧
      (close id run h).1 = match lastDeath calls with
        | some text => .panicked text
        | none => .ran run := by
  have gone : (h.scans.finish id).2.slot? id = none := by
    rw [ScanTable.slot?_finish, if_pos rfl]
  have death : (h.scans.finish id).1 = lastDeath calls := by
    unfold ScanTable.finish
    rw [running.slot_eq]
    rfl
  unfold Scan.close
  dsimp only
  rw [death]
  cases lastDeath calls with
  | none => exact ⟨gone, rfl⟩
  | some text => exact ⟨gone, rfl⟩

theorem run_recorded (handler : Handler σ) {loop : ScanId → EngineLoop (Host × σ × Ledger)}
    {bare : ScanId → EngineLoop (Host × σ)} (mirrors : ∀ id, Mirrors (loop id) (bare id))
    (h : Host) (own : σ) {ending : Ending} {after : Host} {left : σ} {ledger : Ledger}
    (ran : run handler.recorded loop (h, own, {}) = (ending, after, left, ledger))
    (kept : ledger.Keeps h.scans.next) :
    ∃ finished last, drive handler.recorded h.scans.next (loop h.scans.next) {}
        (h.openScan.2, own, {}) = (finished, last, left, ledger) ∧
      Running h.scans.next h.thread ledger.calls finished.tally last ∧
      after.scans.slot? h.scans.next = none ∧
      ending = match lastDeath ledger.calls with
        | some text => .panicked text
        | none => .ran finished := by
  rcases driven : drive handler.recorded h.scans.next (loop h.scans.next) {}
    (h.openScan.2, own, {}) with ⟨finished, last, own', ledger'⟩
  have closing : run handler.recorded loop (h, own, {}) =
      ((close h.scans.next finished last).1, (close h.scans.next finished last).2, own', ledger') := by
    unfold run
    dsimp only
    rw [show h.openScan.1 = h.scans.next from rfl, driven]
  rw [ran] at closing
  simp only [Prod.mk.injEq] at closing
  obtain ⟨rfl, rfl, rfl, rfl⟩ := closing
  have running := Running.drive handler (mirrors h.scans.next) (h.openScan.2, own, {})
    (running_openScan h)
  rw [driven] at running
  obtain ⟨gone, told⟩ := (running kept).close
  exact ⟨finished, last, rfl, running kept, gone, told⟩

/-! ## What the caller gets -/

theorem Call.death?_eq_none_iff {call : Call} : call.death? = none ↔ call.Returned := by
  obtain ⟨rule, reply, found, left⟩ := call
  cases reply <;> simp [Call.death?, Call.Returned]

theorem Call.death?_eq_some_iff {call : Call} {text : String} :
    call.death? = some text ↔ call.reply = .panic text := by
  obtain ⟨rule, reply, found, left⟩ := call
  cases reply <;> simp [Call.death?]

theorem lastDeath_eq_none_iff {calls : List Call} :
    lastDeath calls = none ↔ ∀ call ∈ calls, call.Returned := by
  rw [lastDeath, List.getLast?_eq_none_iff, List.filterMap_eq_nil_iff]
  simp only [Call.death?_eq_none_iff]

theorem lastDeath_eq_some_iff {calls : List Call} {text : String} :
    lastDeath calls = some text ↔
      ∃ before last later, calls = before ++ last :: later ∧ last.reply = .panic text ∧
        ∀ call ∈ later, call.Returned := by
  constructor
  · intro died
    obtain ⟨deaths, split⟩ := List.getLast?_eq_some_iff.mp died
    obtain ⟨before, rest, rfl, _, ending⟩ := List.filterMap_eq_append_iff.mp split
    obtain ⟨quiet, last, later, rfl, _, death, none⟩ := List.filterMap_eq_cons_iff.mp ending
    refine ⟨before ++ quiet, last, later, by simp, Call.death?_eq_some_iff.mp death, ?_⟩
    intro call member
    exact Call.death?_eq_none_iff.mp (List.filterMap_eq_nil_iff.mp none call member)
  · rintro ⟨before, last, later, rfl, panicked, returned⟩
    have quiet : later.filterMap Call.death? = [] := by
      rw [List.filterMap_eq_nil_iff]
      exact fun call member => Call.death?_eq_none_iff.mpr (returned call member)
    have death : last.death? = some text := Call.death?_eq_some_iff.mpr panicked
    simp [lastDeath, List.filterMap_append, death, quiet]

theorem map_reply_of_returned {calls : List Call} (returned : ∀ call ∈ calls, call.Returned) :
    calls.map Call.reply = (calls.filterMap Call.verdict?).map .verdict := by
  induction calls with
  | nil => rfl
  | cons call rest ih =>
      obtain ⟨v, answered⟩ := returned call List.mem_cons_self
      have verdict : call.verdict? = some v := by rw [Call.verdict?, answered]
      rw [List.map_cons, answered, List.filterMap_cons, verdict, List.map_cons,
        ih fun later member => returned later (List.mem_cons_of_mem _ member)]

theorem conclude_proceed (code : Code) (calls : Nat) (path : Option Path) :
    conclude ⟨code, calls, .proceed⟩ path =
      if code = 0 then .ok ⟨calls, false⟩
      else if code = 26 then .error .scanTimeout
      else match path with
        | some place =>
          if code = 3 ∨ code = 4 then .error (.fileRead place (Code.fileTrouble code))
          else .error (.engine code)
        | none => .error (.engine code) := by
  unfold conclude Code.checkScan
  simp only [Code.success, Code.callbackError, Code.scanTimeout, Code.couldNotOpenFile,
    Code.couldNotMapFile]
  by_cases callback : code = 28
  · subst callback
    cases path <;> simp
  · simp only [callback, if_false]
    by_cases success : code = 0
    · simp [success, Except.map]
    · by_cases timeout : code = 26
      · simp [timeout, Except.map]
      · cases path with
        | none => simp [success, timeout, Except.map]
        | some place =>
            by_cases trouble : code = 3 ∨ code = 4
            · simp [success, timeout, trouble, Except.map]
            · simp [success, timeout, trouble, Except.map]

/-- The last verdict goes before the status of the engine. -/
theorem conclude_iff (code : Code) (calls : Nat) (last : Verdict) (path : Option Path) :
    (conclude ⟨code, calls, last⟩ path = .error .callbackFailed ↔ last = .fail) ∧
    (conclude ⟨code, calls, last⟩ path = .ok ⟨calls, true⟩ ↔ last = .abort) ∧
    (last = .proceed →
      (conclude ⟨code, calls, last⟩ path = .ok ⟨calls, false⟩ ↔ code = 0) ∧
      (code = 28 → conclude ⟨code, calls, last⟩ path = .error (.engine 28)) ∧
      (code = 26 → conclude ⟨code, calls, last⟩ path = .error .scanTimeout) ∧
      (∀ place, path = some place → code = 3 ∨ code = 4 →
        conclude ⟨code, calls, last⟩ path = .error (.fileRead place (Code.fileTrouble code))) ∧
      (code ≠ 0 → code ≠ 26 → (path = none ∨ code ≠ 3 ∧ code ≠ 4) →
        conclude ⟨code, calls, last⟩ path = .error (.engine code))) := by
  cases last with
  | fail => simp [conclude]
  | abort => simp [conclude]
  | proceed =>
      rw [conclude_proceed]
      refine ⟨?_, ?_, fun _ => ⟨?_, ?_, ?_, ?_, ?_⟩⟩
      · cases path <;> grind
      · cases path <;> grind
      · cases path <;> grind
      · rintro rfl
        cases path <;> simp
      · rintro rfl
        rfl
      · rintro place rfl trouble
        rcases trouble with rfl | rfl <;> rfl
      · intro failed slow elsewhere
        rw [if_neg failed, if_neg slow]
        cases path with
        | none => rfl
        | some place =>
            have other : ¬(code = 3 ∨ code = 4) := by simpa using elsewhere
            exact if_neg other

/-- A scan for an arbitrary loop. It comes back exactly when every call of the handler returned,
and otherwise with what the last call that died has died of; its entry is gone either way. Where it
comes back, the last verdict, the number of calls and the status of the engine tell the result. -/
theorem run_outcome (handler : Handler σ) (loop : ScanId → EngineLoop (Host × σ))
    (path : Option Path) (h : Host) (own : σ) {ending : Ending} {after : Host} {left : σ}
    {ledger : Ledger}
    (ran : run handler.recorded (fun id => (loop id).recorded) (h, own, {}) =
      (ending, after, left, ledger))
    (kept : ledger.Keeps h.scans.next) :
    run handler loop (h, own) = (ending, after, left) ∧
    after.scans.slot? h.scans.next = none ∧
    (∀ call ∈ ledger.calls, ∀ thread, ∃ noted,
      call.found.receive thread h.scans.next = .error noted) ∧
    ((∃ result, ending.outcome path = .returned result) ↔
      ∀ call ∈ ledger.calls, call.Returned) ∧
    (∀ text, ending.outcome path = .panicked text ↔
      ∃ before last later, ledger.calls = before ++ last :: later ∧ last.reply = .panic text ∧
        ∀ call ∈ later, call.Returned) ∧
    ∀ result, ending.outcome path = .returned result →
      ∃ (code : Code) (verdicts : List Verdict), ledger.code = some code ∧
        ledger.calls.map Call.reply = verdicts.map .verdict ∧
        let last := verdicts.getLast?.getD .proceed
        (result = .error .callbackFailed ↔ last = .fail) ∧
        (result = .ok ⟨verdicts.length, true⟩ ↔ last = .abort) ∧
        (last = .proceed →
          (result = .ok ⟨verdicts.length, false⟩ ↔ code = 0) ∧
          (code = 28 → result = .error (.engine 28)) ∧
          (code = 26 → result = .error .scanTimeout) ∧
          (∀ place, path = some place → code = 3 ∨ code = 4 →
            result = .error (.fileRead place (Code.fileTrouble code))) ∧
          (code ≠ 0 → code ≠ 26 → (path = none ∨ code ≠ 3 ∧ code ≠ 4) →
            result = .error (.engine code))) := by
  have mirrors (id : ScanId) := mirrors_recorded (loop id)
  have erased := run_unrecorded handler mirrors (h, own, {})
  rw [ran] at erased
  obtain ⟨finished, last, driven, running, gone, told⟩ := run_recorded handler mirrors h own ran kept
  have coded := drive_code handler h.scans.next (loop h.scans.next) {} (h.openScan.2, own, {})
  rw [driven] at coded
  -- How the run ended is told by the last death in the ledger, and without one by the verdicts.
  refine ⟨erased, gone, ?busy, ?returns, ?dies, ?result⟩
  case busy =>
    intro call member thread
    obtain ⟨_, death, busy⟩ := running.busy call member
    exact receive_of_busy busy thread
  case returns =>
    rw [← lastDeath_eq_none_iff, told]
    cases lastDeath ledger.calls <;> simp [Ending.outcome]
  case dies =>
    intro text
    rw [← lastDeath_eq_some_iff, told]
    cases lastDeath ledger.calls <;> simp [Ending.outcome]
  case result =>
    intro result returned
    cases died : lastDeath ledger.calls with
    | some text =>
        rw [told, died] at returned
        contradiction
    | none =>
        rw [told, died] at returned
        obtain ⟨code, tally⟩ := finished
        obtain rfl : tally = counted ledger.calls := running.tally_eq
        obtain rfl : conclude ⟨code, counted ledger.calls⟩ path = result := by
          simpa [Ending.outcome] using returned
        exact ⟨code, _, coded, map_reply_of_returned (lastDeath_eq_none_iff.mp died),
          conclude_iff code _ _ path⟩

def scripted : Handler (List Reply) :=
  fun _ (h, replies) => (replies.headD (.verdict .proceed), h, replies.tail)

/-- A loop that goes on whatever it is answered, and reports where it should not. -/
def unruly (event : Event) (code : Code) (id : ScanId) : EngineLoop (Host × List Reply) :=
  .report .sink event fun _ => .report (.raw (id + 7)) event fun _ => .report .foreign event fun _ =>
    .report .sink event fun _ => .report (.raw id) event fun _ => .finish code

theorem run_outcome_unruly :
    let h : Host := { files := ⟨[], []⟩, tempDir := .ofText "" }
    let loop := unruly ⟨"rule", "ns", [], []⟩ 26
    let outcome (replies : List Reply) := (run scripted loop (h, replies)).1.outcome none
    outcome [.panic "first", .panic "second", .verdict .abort] = .panicked "second" ∧
      outcome [.verdict .fail, .verdict .abort, .verdict .proceed] =
        .returned (.error .scanTimeout) := by
  intro h loop outcome
  have recorded (replies : List Reply) : ∃ ran, ran =
      run scripted.recorded (fun id => (loop id).recorded) (h, replies, {}) := ⟨_, rfl⟩
  constructor
  · obtain ⟨⟨ending, after, left, ledger⟩, ran⟩ :=
      recorded [.panic "first", .panic "second", .verdict .abort]
    obtain rfl : ledger = _ := congrArg (·.2.2.2) ran
    obtain ⟨same, _, _, _, dies, _⟩ :=
      run_outcome scripted loop none h _ ran.symm (by decide +kernel)
    have died := (dies "second").mpr (lastDeath_eq_some_iff.mp (by decide +kernel))
    exact (congrArg (·.1.outcome none) same).trans died
  · obtain ⟨⟨ending, after, left, ledger⟩, ran⟩ :=
      recorded [.verdict .fail, .verdict .abort, .verdict .proceed]
    obtain rfl : ledger = _ := congrArg (·.2.2.2) ran
    obtain ⟨same, _, _, returns, _, results⟩ :=
      run_outcome scripted loop none h _ ran.symm (by decide +kernel)
    obtain ⟨result, returned⟩ := returns.mpr (lastDeath_eq_none_iff.mp (by decide +kernel))
    obtain ⟨code, verdicts, coded, replies, _, _, proceeds⟩ := results result returned
    obtain rfl : code = 26 := by
      refine Option.some.inj (coded.symm.trans ?_)
      decide +kernel
    obtain rfl : verdicts = [.fail, .abort, .proceed] := by
      refine (List.map_inj_right (fun _ _ => Reply.verdict.inj)).mp (replies.symm.trans ?_)
      decide +kernel
    obtain rfl : result = .error .scanTimeout := (proceeds rfl).2.2.1 rfl
    exact (congrArg (·.1.outcome none) same).trans returned

end Needle.Scan
