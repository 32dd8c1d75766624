import Needle.Proofs.Pattern.Match
import Needle.Proofs.Scan.Outcome

/-!
# The protocol of a scan

The engine reports the rules that a buffer satisfies in their order, and stops at the first verdict
that does not let it proceed. The verdict it stops at is the last one, so it is the result; where
there is none, the status of the engine is.
-/
set_option autoImplicit false

namespace Needle

namespace Scan

variable {σ : Type}

def Call.answered (call : Call) : Rule × Reply := (call.rule, call.reply)

def Through (rules : List Rule) (calls : List Call) : Prop :=
  calls.map Call.answered = rules.map fun rule => (rule, .verdict .proceed)

def StopsAt (rules : List Rule) (calls : List Call) (v : Verdict) : Prop :=
  ∃ before rule rest, rules = before ++ rule :: rest ∧
    calls.map Call.answered =
      before.map (fun rule => (rule, .verdict .proceed)) ++ [(rule, .verdict v)]

/-- The calls go through the rules up to one that is answered like this. -/
def EndsAt (rules : List Rule) (calls : List Call) (reply : Reply) : Prop :=
  ∃ before rule rest, rules = before ++ rule :: rest ∧
    calls.map Call.answered = before.map (fun rule => (rule, .verdict .proceed)) ++ [(rule, reply)]

theorem Through.cons {rules : List Rule} {calls : List Call} (through : Through rules calls)
    {call : Call} (proceeds : call.reply = .verdict .proceed) :
    Through (call.rule :: rules) (call :: calls) := by
  unfold Through at through ⊢
  rw [List.map_cons, List.map_cons, through, Call.answered, proceeds]

theorem EndsAt.cons {rules : List Rule} {calls : List Call} {reply : Reply}
    (ends : EndsAt rules calls reply) {call : Call} (proceeds : call.reply = .verdict .proceed) :
    EndsAt (call.rule :: rules) (call :: calls) reply := by
  obtain ⟨before, rule, rest, rfl, made⟩ := ends
  refine ⟨call.rule :: before, rule, rest, rfl, ?_⟩
  rw [List.map_cons, made, Call.answered, proceeds, List.map_cons, List.cons_append]

theorem endsAt_here (call : Call) (rest : List Rule) : EndsAt (call.rule :: rest) [call] call.reply :=
  ⟨[], call.rule, rest, rfl, rfl⟩

theorem Running.receive {id : ScanId} {thread : ThreadId} {calls : List Call} {tally : Tally}
    {h : Host} (running : Running id thread calls tally h) :
    ∃ entered, h.receive h.thread id = .ok entered := by
  let table := h.scans.update id fun slot => { slot with busy := true }
  have allowed : h.scans.enter h.thread id = .ok table :=
    ScanTable.enter_eq_ok_iff.mpr ⟨_, running.slot_eq, running.thread_eq.symm, rfl, rfl⟩
  exact ⟨{ h with scans := table }, receive_eq_ok_iff.mpr ⟨table, allowed, rfl⟩⟩

theorem drive_sink {id : ScanId} {h entered : Host}
    (received : h.receive h.thread id = .ok entered) (handler : Handler σ) (event : Event)
    (next : Verdict → EngineLoop (Host × σ)) (tally : Tally) (own : σ) :
    drive handler id (.report .sink event next) tally (h, own) =
      drive handler id (next (handle handler id event tally entered own).1)
        (handle handler id event tally entered own).2.1
        (handle handler id event tally entered own).2.2 := by
  simp only [drive, dispatch, Channel.address, received, if_true]

theorem heed_of_stop {S : Type} (loop : EngineLoop S) {reply : Reply}
    (other : reply ≠ .verdict .proceed) :
    ∃ code, EngineLoop.heed false loop (ScanTable.answer reply) = .finish code := by
  cases reply with
  | panic text => exact ⟨_, rfl⟩
  | verdict v =>
      cases v with
      | proceed => exact absurd rfl other
      | abort => exact ⟨_, rfl⟩
      | fail => exact ⟨_, rfl⟩

/-- A loop over events calls the handler with one rule after the other until one of the answers does
not let it proceed. -/
theorem Running.drive_heeds (handler : Handler σ) {id : ScanId} {thread : ThreadId} (code : Code)
    (events : List Event) {tally : Tally} (state : Host × σ × Ledger)
    (running : Running id thread state.2.2.calls tally state.1) {finished : ScanRun}
    {last : Host × σ × Ledger}
    (driven : Scan.drive handler.recorded id (.ofEvents false code events) tally state =
      (finished, last))
    (kept : last.2.2.Keeps id) :
    ∃ calls, last.2.2.calls = state.2.2.calls ++ calls ∧
      (Through (events.map Event.toRule) calls ∧ finished.code = code ∨
        ∃ rule state, let reply := (handler rule state).1
          reply ≠ .verdict .proceed ∧ EndsAt (events.map Event.toRule) calls reply) := by
  -- On the events that are left; the calls before them are what the tally counts.
  induction events generalizing tally state with
  | nil =>
      obtain ⟨rfl, rfl⟩ := Prod.mk.inj driven
      exact ⟨[], (List.append_nil _).symm, .inl ⟨rfl, rfl⟩⟩
  | cons event rest ih =>
      obtain ⟨h, own, ledger⟩ := state
      obtain ⟨entered, received⟩ := running.receive
      let call := handler.callOn event.toRule (entered, own)
      rw [EngineLoop.ofEvents, drive_sink received] at driven
      have called : call ∈ last.2.2.calls := by
        have member := call_mem handler id (mirrors_heed (mirrors_ofEvents false code rest) false)
          event tally entered own ledger
        dsimp only at member
        rw [driven] at member
        exact member
      obtain ⟨after, own', handled, next⟩ :=
        running.handle received handler event own rfl (kept.1 call called)
      rw [handled] at driven
      by_cases proceeds : call.reply = .verdict .proceed
      · rw [proceeds] at driven next
        obtain ⟨calls, extended, played⟩ := ih _ next driven
        refine ⟨call :: calls, by simpa [Ledger.add] using extended, ?_⟩
        rcases played with ⟨all, status⟩ | ⟨rule, state, other, part⟩
        · exact .inl ⟨all.cons proceeds, status⟩
        · exact .inr ⟨rule, state, other, part.cons proceeds⟩
      · obtain ⟨stop, stops⟩ := heed_of_stop (.ofEvents false code rest) proceeds
        rw [stops] at driven
        obtain ⟨rfl, rfl⟩ := Prod.mk.inj driven
        exact ⟨[call], rfl, .inr ⟨event.toRule, (entered, own), proceeds, endsAt_here call _⟩⟩

theorem Running.drive_ofEvents (handler : Handler σ)
    (returns : ∀ rule state, ∃ v, (handler rule state).1 = .verdict v)
    {id : ScanId} {thread : ThreadId} (code : Code) (events : List Event) {tally : Tally}
    (state : Host × σ × Ledger) (running : Running id thread state.2.2.calls tally state.1)
    {finished : ScanRun} {last : Host × σ × Ledger}
    (driven : Scan.drive handler.recorded id (.ofEvents false code events) tally state =
      (finished, last))
    (kept : last.2.2.Keeps id) :
    ∃ calls, last.2.2.calls = state.2.2.calls ++ calls ∧
      (Through (events.map Event.toRule) calls ∧ finished.code = code ∨
        ∃ v, v ≠ .proceed ∧ StopsAt (events.map Event.toRule) calls v) := by
  obtain ⟨calls, extended, played⟩ :=
    Running.drive_heeds handler code events state running driven kept
  refine ⟨calls, extended, played.imp_right ?_⟩
  rintro ⟨rule, state, other, ends⟩
  obtain ⟨v, answer⟩ := returns rule state
  rw [answer] at other ends
  exact ⟨v, fun same => other (congrArg Reply.verdict same), ends⟩

/-! ## What such calls count -/

theorem counted_of_verdicts {calls : List Call} {verdicts : List Verdict}
    (replies : calls.map Call.reply = verdicts.map .verdict) :
    lastDeath calls = none ∧
      counted calls = ⟨calls.length, verdicts.getLast?.getD .proceed⟩ := by
  have returned : ∀ call ∈ calls, call.Returned := by
    intro call member
    have among : call.reply ∈ verdicts.map Reply.verdict :=
      replies ▸ List.mem_map.mpr ⟨call, member, rfl⟩
    obtain ⟨v, _, answer⟩ := List.mem_map.mp among
    exact ⟨v, answer.symm⟩
  have same : verdicts = calls.filterMap Call.verdict? := by
    apply (List.map_inj_right fun _ _ => Reply.verdict.inj).mp
    rw [← replies, map_reply_of_returned returned]
  have many : verdicts.length = calls.length := by
    rw [← List.length_map Reply.verdict, ← replies, List.length_map]
  refine ⟨lastDeath_eq_none_iff.mpr returned, ?_⟩
  rw [counted, ← same, many]

theorem Through.counted {rules : List Rule} {calls : List Call} (through : Through rules calls) :
    lastDeath calls = none ∧ counted calls = ⟨rules.length, .proceed⟩ := by
  have replies : calls.map Call.reply = (rules.map fun _ => Verdict.proceed).map .verdict := by
    have second := congrArg (List.map Prod.snd) through
    rw [List.map_map, List.map_map] at second
    rw [List.map_map]
    exact second
  have many : calls.length = rules.length := by simpa using congrArg List.length replies
  obtain ⟨quiet, count⟩ := counted_of_verdicts replies
  refine ⟨quiet, ?_⟩
  rw [count, many, List.getLast?_map]
  cases rules.getLast? <;> rfl

theorem StopsAt.counted {rules : List Rule} {calls : List Call} {v : Verdict}
    (stops : StopsAt rules calls v) :
    lastDeath calls = none ∧ counted calls = ⟨calls.length, v⟩ := by
  obtain ⟨before, rule, rest, rfl, made⟩ := stops
  have replies : calls.map Call.reply =
      (before.map (fun _ => Verdict.proceed) ++ [v]).map .verdict := by
    have second := congrArg (List.map Prod.snd) made
    rw [List.map_append, List.map_map, List.map_map] at second
    rw [List.map_append, List.map_map]
    exact second
  obtain ⟨quiet, count⟩ := counted_of_verdicts replies
  refine ⟨quiet, ?_⟩
  rw [count, List.getLast?_concat]
  rfl

theorem EndsAt.rules_prefix {rules : List Rule} {calls : List Call} {reply : Reply}
    (ends : EndsAt rules calls reply) : calls.map Call.rule <+: rules := by
  obtain ⟨before, rule, rest, rfl, made⟩ := ends
  have heard : calls.map Call.rule = before ++ [rule] := by
    have first := congrArg (List.map Prod.fst) made
    rw [List.map_append, List.map_map, List.map_map] at first
    exact first.trans (congrArg (· ++ [rule]) (List.map_id before))
  rw [heard]
  exact ⟨rest, by rw [List.append_assoc, List.singleton_append]⟩

theorem Through.rules_eq {rules : List Rule} {calls : List Call} (through : Through rules calls) :
    calls.map Call.rule = rules := by
  have first := congrArg (List.map Prod.fst) through
  rw [List.map_map, List.map_map] at first
  exact first.trans (List.map_id rules)

end Scan

namespace RuleSet

open Scan

variable {σ : Type}

/-- A scan of a buffer with the engine's own answer runs a loop over the events of the buffer. -/
theorem scanBuffer_eq_run (s : RuleSet) {h : Host} {patterns : List Pattern}
    (live : (h.engine s.slot).ruleSet? s.handle = some patterns)
    (literal : (h.engine s.slot).faults.scan = none) {data : Bytes} (filled : data ≠ [])
    (options : ScanOptions) :
    ∃ begun : Host, begun.scans = h.scans ∧
      ∀ {τ : Type} (handler : Handler τ) (own : τ),
        s.scanBuffer data options handler (h, own) =
          let loop : EngineLoop (Host × τ) :=
            .ofEvents false (h.engine s.slot).faults.scans (Pattern.events data patterns)
          let ended := run handler (fun _ => loop) (begun, own)
          (ended.1.outcome none, ended.2) := by
  let begun := h.note (.scanningBuffer data.length)
  let call := EngineCall.scanBuffer s.handle data.length options.flags options.timeoutSecs.toOption
  let engine := { (begun.engine s.slot).trace call with
    stats.scans := (begun.engine s.slot).stats.scans + 1 }
  refine ⟨begun.setSlot s.slot fun slot => { slot with engine := engine }, rfl, ?_⟩
  intro τ handler own
  have some : data.isEmpty = false := by simpa using filled
  have asked : (begun.engine s.slot).scanBuffer (S := Host × τ) s.handle data options =
      (.ofEvents false (h.engine s.slot).faults.scans (Pattern.events data patterns), engine) := by
    have same : begun.engine s.slot = h.engine s.slot := rfl
    unfold Engine.scanBuffer Engine.scan Engine.trace Engine.ruleSet?
    unfold Engine.ruleSet? at live
    simp only [same, literal, live]
    rfl
  unfold scanBuffer Host.call
  simp only [some, Bool.false_eq_true, if_false]
  rw [asked]

/-- A scan of a buffer, for a handler that may remember what it has seen but does not die. It is
called with the records of the patterns whose literals the buffer holds, in their order, up to the
first one that it does not let the scan go on after; `faults.scans` is the status of a scan that got
through them all. -/
theorem scanBuffer_protocol (s : RuleSet) (h : Host) (own : σ) (data : Bytes)
    (options : ScanOptions) (handler : Handler σ) {patterns : List Pattern}
    (live : (h.engine s.slot).ruleSet? s.handle = some patterns)
    (literal : (h.engine s.slot).faults.scan = none)
    (returns : ∀ rule state, ∃ v, (handler rule state).1 = .verdict v)
    {outcome : ScanOutcome} {after : Host} {left : σ} {ledger : Ledger}
    (scanned : s.scanBuffer data options handler.recorded (h, own, {}) =
      (outcome, after, left, ledger))
    (kept : ledger.Keeps h.scans.next) :
    s.scanBuffer data options handler (h, own) = (outcome, after, left) ∧
    (data = [] → outcome = .returned (.error .emptyBuffer) ∧ after = h ∧ left = own ∧
      ledger.calls = []) ∧
    (data ≠ [] → ∃ rules,
      Pattern.Recorded (patterns.filter fun p => Utf8.encode p.literal <:+: data) rules ∧
      let status := (h.engine s.slot).faults.scans
      (Through rules ledger.calls ∧
        outcome = .returned
          (if status = 0 then .ok ⟨rules.length, false⟩
          else if status = 26 then .error .scanTimeout
          else .error (.engine status))) ∨
      (StopsAt rules ledger.calls .abort ∧
        outcome = .returned (.ok ⟨ledger.calls.length, true⟩)) ∨
      (StopsAt rules ledger.calls .fail ∧ outcome = .returned (.error .callbackFailed))) := by
  by_cases empty : data = []
  · subst empty
    obtain ⟨rfl, rfl, rfl, rfl⟩ : .returned (.error .emptyBuffer) = outcome ∧ h = after ∧
        own = left ∧ ({} : Ledger) = ledger := by
      simpa [scanBuffer] using scanned
    exact ⟨rfl, fun _ => ⟨rfl, rfl, rfl, rfl⟩, fun filled => absurd rfl filled⟩
  · obtain ⟨begun, table, runs⟩ := s.scanBuffer_eq_run live literal empty options
    generalize (h.engine s.slot).faults.scans = status at runs ⊢
    have mirrors (_ : ScanId) :=
      mirrors_ofEvents (σ := σ) false status (Pattern.events data patterns)
    rw [runs] at scanned
    rcases ran : run handler.recorded
      (fun _ => .ofEvents false status (Pattern.events data patterns)) (begun, own, {})
      with ⟨ending, after', left', ledger'⟩
    simp only [ran, Prod.mk.injEq] at scanned
    obtain ⟨rfl, rfl, rfl, rfl⟩ := scanned
    have erased := run_unrecorded handler mirrors (begun, own, {})
    rw [ran] at erased
    rw [← table] at kept
    -- The ledger holds one call for each event that the loop has got to.
    obtain ⟨finished, last, driven, running, _, told⟩ :=
      run_recorded handler mirrors begun own ran kept
    obtain ⟨calls, all, played⟩ := Running.drive_ofEvents handler returns status
      (Pattern.events data patterns) (begun.openScan.2, own, {}) (running_openScan begun) driven
      kept
    obtain rfl : ledger'.calls = calls := all
    rw [Pattern.map_toRule_events] at played
    refine ⟨?_, fun filled => absurd filled empty, fun _ => ?_⟩
    · rw [runs]
      exact congrArg (fun ended => (ended.1.outcome none, ended.2)) erased
    · refine ⟨_, Pattern.recorded_rulesIn data patterns, ?_⟩
      rcases played with ⟨through, passed⟩ | ⟨v, stopping, stops⟩
      · obtain ⟨quiet, count⟩ := through.counted
        obtain rfl : finished = ⟨status, (Pattern.rulesIn data patterns).length, .proceed⟩ := by
          rw [← passed, ← count, ← running.tally_eq]
        rw [quiet] at told
        subst told
        exact .inl ⟨through, congrArg ScanOutcome.returned (conclude_proceed status _ none)⟩
      · obtain ⟨quiet, count⟩ := stops.counted
        obtain ⟨code, tally⟩ := finished
        obtain rfl : tally = ⟨ledger'.calls.length, v⟩ := running.tally_eq.trans count
        rw [quiet] at told
        subst told
        cases v with
        | proceed => contradiction
        | abort => exact .inr (.inl ⟨stops, rfl⟩)
        | fail => exact .inr (.inr ⟨stops, rfl⟩)

/-- The handler scans the buffer again at each call, and stops at the second one. -/
theorem scanBuffer_protocol_nested :
    let first : Pattern := ⟨"ns", "first", "a", ["one", "two"],
      [("level", .integer 1), ("note", .text "x"), ("level", .integer 2)]⟩
    let second : Pattern := ⟨"ns", "second", "bc", [], [("sure", .boolean true)]⟩
    let third : Pattern := ⟨"ns", "third", "", [], []⟩
    let patterns := [first, ⟨"ns", "absent", "zz", ["one"], []⟩, second, third]
    let h : Host := {
      files := ⟨[], []⟩
      tempDir := .ofText ""
      engines := [{ engine := (Engine.addRuleSet {} patterns).2, holders := 1 }] }
    let s : RuleSet := ⟨0, 1, {}⟩
    let data := Utf8.encode "abc"
    let handler : Handler (List Rule) := fun rule (h, seen) =>
      let (_, h, _) := s.scanBuffer data {} collect (h, [])
      (.verdict (if seen.isEmpty then .proceed else .abort), h, seen ++ [rule])
    let ended := s.scanBuffer data {} handler (h, [])
    ended.1 = .returned (.ok ⟨2, true⟩) ∧
      ended.2.2 = [⟨"first", "ns", ["one", "two"], [("level", .integer 2), ("note", .text "x")]⟩,
        ⟨"second", "ns", [], [("sure", .boolean true)]⟩] ∧
      ∃ rules, Pattern.Recorded [first, second, third] rules ∧ ended.2.2 <+: rules := by
  intro first second third patterns h s data handler ended
  obtain ⟨⟨outcome, after, left, ledger⟩, scanned⟩ :
      ∃ scanned, scanned = s.scanBuffer data {} handler.recorded (h, [], {}) := ⟨_, rfl⟩
  have written : ledger = (s.scanBuffer data {} handler.recorded (h, [], {})).2.2.2 :=
    congrArg (fun ended => ended.2.2.2) scanned
  have kept : ledger.Keeps 1 := by
    rw [written]
    decide +kernel
  have count : counted ledger.calls = ⟨2, .abort⟩ := by
    rw [written]
    decide +kernel
  have heard : ended.2.2 = ledger.calls.map Call.rule := by
    rw [written]
    decide +kernel
  have found : patterns.filter (fun p => Utf8.encode p.literal <:+: data) =
      [first, second, third] := by decide +kernel
  obtain ⟨same, _, protocol⟩ := scanBuffer_protocol s h [] data {} handler
    (rfl : _ = some patterns) rfl (fun _ _ => ⟨_, rfl⟩) scanned.symm kept
  obtain ⟨rules, recorded, course⟩ := protocol (by decide +kernel)
  rw [found] at recorded
  rcases course with ⟨through, _⟩ | ⟨stops, told⟩ | ⟨stops, _⟩
  · have other : Verdict.proceed = .abort := congrArg Tally.last (through.counted.2.symm.trans count)
    exact absurd other (by decide)
  · have calls := congrArg Tally.calls (stops.counted.2.symm.trans count)
    refine ⟨?_, by decide +kernel, rules, recorded, ?_⟩
    · refine (congrArg Prod.fst same).trans (told.trans ?_)
      exact congrArg (fun n => ScanOutcome.returned (.ok ⟨n, true⟩)) calls
    · rw [heard]
      exact EndsAt.rules_prefix stops
  · have other : Verdict.fail = .abort := congrArg Tally.last (stops.counted.2.symm.trans count)
    exact absurd other (by decide)

end RuleSet

end Needle
