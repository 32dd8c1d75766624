import Needle.Proofs.Scan.Call
import Needle.Proofs.Scan.Quiet

/-!
# A scan on its own

A scan whose handler has its answers from a list. What the handler is called with and how the scan
ends depend on the loop of the engine and on the answers.
-/
set_option autoImplicit false

namespace Needle

namespace Scan

def replay : Handler (List Rule × List Reply) :=
  fun rule (h, seen, replies) =>
    (replies.headD (.verdict .proceed), h, seen ++ [rule], replies.tail)

def tallyOf (replies : List Reply) : Tally := replies.foldl Tally.count {}

/-- What the last of the answers that was none has died of, where one has died already. -/
def deathAfter (death : Option String) (replies : List Reply) : Option String :=
  replies.foldl (fun death reply => reply.death?.or death) death

def outcomeOf (code : Code) (replies : List Reply) (path : Option Path) : ScanOutcome :=
  match deathAfter none replies with
  | some text => .panicked text
  | none => .returned (conclude ⟨code, tallyOf replies⟩ path)

/-- A loop reports rules that are answered one after the other, and comes to another loop. -/
inductive Plays : EngineLoop Unit → List Rule → List Reply → EngineLoop Unit → Prop
  | nothing (loop : EngineLoop Unit) : Plays loop [] [] loop
  | report {event : Event} {next : Verdict → EngineLoop Unit} {reply : Reply} {seen : List Rule}
      {replies : List Reply} {last : EngineLoop Unit}
      (later : Plays (next (ScanTable.answer reply)) seen replies last) :
      Plays (.report .sink event next) (event.toRule :: seen) (reply :: replies) last

theorem Plays.concat {loop : EngineLoop Unit} {seen : List Rule} {replies : List Reply}
    {event : Event} {next : Verdict → EngineLoop Unit}
    (plays : Plays loop seen replies (.report .sink event next)) (reply : Reply) :
    Plays loop (seen ++ [event.toRule]) (replies ++ [reply]) (next (ScanTable.answer reply)) := by
  generalize reached : EngineLoop.report .sink event next = last at plays
  induction plays with
  | nothing loop =>
      subst reached
      exact .report (.nothing _)
  | report _ ih => exact .report (ih reached)

theorem tallyOf_concat (replies : List Reply) (reply : Reply) :
    tallyOf (replies ++ [reply]) = (tallyOf replies).count reply := List.foldl_concat ..

theorem deathAfter_concat (death : Option String) (replies : List Reply) (reply : Reply) :
    deathAfter death (replies ++ [reply]) = reply.death?.or (deathAfter death replies) :=
  List.foldl_concat ..

theorem Plays.alike {T : Type} {loop last : EngineLoop Unit} {seen : List Rule}
    {replies : List Reply} (plays : Plays loop seen replies last) {other : EngineLoop T}
    (alike : Alike loop other) : ∃ reached : EngineLoop T, Alike last reached := by
  induction plays generalizing other with
  | nothing loop => exact ⟨other, alike⟩
  | report _ ih =>
      cases alike with
      | report _ rest => exact ih (rest _)

/-! ## Driving a loop -/

variable {id : ScanId} {h : Host} {death : Option String}

/-- Rules that are answered from the list bring a scan to where the loop comes to. -/
theorem drive_replay {loop last : EngineLoop Unit} {seen : List Rule} {replies : List Reply}
    (plays : Plays loop seen replies last) {other : EngineLoop (Host × List Rule × List Reply)}
    (alike : Alike loop other) (idle : h.scans.slot? id = some ⟨h.thread, false, death⟩)
    (tally : Tally) (before : List Rule) (more : List Reply) :
    ∃ (after : Host) (reached : EngineLoop (Host × List Rule × List Reply)), Alike last reached ∧
      after.scans.slot? id = some ⟨after.thread, false, deathAfter death replies⟩ ∧
      drive replay id other tally (h, before, replies ++ more) =
        drive replay id reached (replies.foldl Tally.count tally)
          (after, before ++ seen, more) := by
  induction plays generalizing other h death tally before with
  | nothing loop =>
      refine ⟨h, other, alike, idle, ?_⟩
      rw [List.append_nil]
      rfl
  | @report event next reply seen replies last _ ih =>
      cases alike with
      | report _ rest =>
          have quiet (h : Host) : replay event.toRule (h, before, reply :: (replies ++ more)) =
              (reply, h, before ++ [event.toRule], replies ++ more) := rfl
          obtain ⟨table, idle, driven⟩ := drive_quiet idle quiet _ tally
          obtain ⟨final, reached, alike, idle, later⟩ := ih (h := { h with scans := table })
            (rest (ScanTable.answer reply)) idle (tally.count reply) (before ++ [event.toRule])
          refine ⟨final, reached, alike, idle, driven.trans ?_⟩
          rw [List.append_cons before event.toRule seen]
          exact later

theorem drive_seen (id : ScanId) {loop : EngineLoop Unit}
    {other : EngineLoop (Host × List Rule × List Reply)} (alike : Alike loop other) (tally : Tally)
    (h : Host) (before : List Rule) (replies : List Reply) :
    before <+: (drive replay id other tally (h, before, replies)).2.2.1 := by
  induction alike generalizing tally h before replies with
  | finish code => exact List.prefix_refl _
  | report event rest ih =>
      rcases dispatch_cases id .sink h with ⟨_, entered, _, through⟩ | ⟨after, _, _, refused⟩
      · simp only [drive, through]
        exact (List.prefix_append _ _).trans (ih _ _ _ _ _)
      · simp only [drive, refused]
        exact ih _ _ _ _ _

theorem close_of_slot {thread : ThreadId} {replies : List Reply}
    (idle : h.scans.slot? id = some ⟨thread, false, deathAfter none replies⟩) (code : Code)
    (path : Option Path) :
    (close id ⟨code, tallyOf replies⟩ h).1.outcome path = outcomeOf code replies path ∧
      (close id ⟨code, tallyOf replies⟩ h).2 = { h with scans := (h.scans.finish id).2 } := by
  have death : (h.scans.finish id).1 = deathAfter none replies := by
    unfold ScanTable.finish
    rw [idle]
    rfl
  unfold close outcomeOf
  dsimp only
  rw [death]
  cases deathAfter none replies with
  | some text => exact ⟨rfl, rfl⟩
  | none => exact ⟨rfl, rfl⟩

theorem run_replay {loop : EngineLoop Unit} {seen : List Rule} {replies : List Reply} {code : Code}
    (plays : Plays loop seen replies (.finish code))
    {other : EngineLoop (Host × List Rule × List Reply)} (alike : Alike loop other) (h : Host)
    (path : Option Path) :
    let ran := run replay (fun _ => other) (h, [], replies)
    ran.1.outcome path = outcomeOf code replies path ∧ ran.2.2 = (seen, []) := by
  have opened := (running_openScan h).slot_eq
  have onThread : h.openScan.2.thread = h.thread := rfl
  rw [← onThread] at opened
  obtain ⟨after, reached, finished, idle, driven⟩ := drive_replay plays alike opened {} [] []
  cases finished
  rw [List.append_nil, List.nil_append] at driven
  have ran : run replay (fun _ => other) (h, [], replies) =
      ((close h.scans.next ⟨code, tallyOf replies⟩ after).1,
        (close h.scans.next ⟨code, tallyOf replies⟩ after).2, seen, []) := by
    unfold run
    dsimp only
    rw [show h.openScan.1 = h.scans.next from rfl, driven]
    rfl
  rw [ran]
  exact ⟨(close_of_slot idle code path).1, rfl⟩

/-- A run that may go on sees at least what its loop has come to. -/
theorem run_replay_seen {loop last : EngineLoop Unit} {seen : List Rule} {replies : List Reply}
    (plays : Plays loop seen replies last)
    {other : EngineLoop (Host × List Rule × List Reply)} (alike : Alike loop other) (h : Host)
    (more : List Reply) :
    seen <+: (run replay (fun _ => other) (h, [], replies ++ more)).2.2.1 := by
  have opened := (running_openScan h).slot_eq
  have onThread : h.openScan.2.thread = h.thread := rfl
  rw [← onThread] at opened
  obtain ⟨after, reached, goes, _, driven⟩ := drive_replay plays alike opened {} [] more
  have grows := drive_seen h.scans.next goes (tallyOf replies) after seen more
  unfold run
  dsimp only
  rw [show h.openScan.1 = h.scans.next from rfl, driven]
  exact grows

end Scan

end Needle
