import Needle.Scan.Parallel
import Needle.Proofs.Scan.Replay

/-!
# Scans that run beside each other

However the steps of the threads fall, a scan goes as it would on its own with the same answers: its
handler is called with the same rules in the same order, and it comes back with the same result.

Every scan on a stack keeps to its own course (`Frame.Keeps`), which says where its loop has come to
and what is under its number. A step of another scan changes nothing under that number, as long as
no number is handed out to two scans that are both under way.
-/
set_option autoImplicit false

namespace Needle

def ScanCall.Converts (call : ScanCall) : Prop :=
  ∃ seconds, call.options.timeoutSecs = .ok seconds

namespace Parallel

open Scan

def loopOf (call : ScanCall) (h : Host) : EngineLoop Unit := (call.ask h).1

/-- How far a scan has come, by its phase: `place` and `slot` are what is kept under its number. -/
inductive Frame.Follows (first : Host) (thread : ThreadId) (depth place : Nat)
    (slot : Option ScanSlot) (f : Frame) : Phase → Prop
  | entering (unseen : f.seen = []) (unanswered : f.replies = []) :
      Follows first thread depth place slot f .entering
  | entered (unseen : f.seen = []) (unanswered : f.replies = []) (placed : place = depth)
      (idle : slot = some ⟨thread, false, none⟩) : Follows first thread depth place slot f .entered
  | looping {loop : EngineLoop Unit} (converts : f.call.Converts)
      (plays : Plays (loopOf f.call first) f.seen f.replies loop) (placed : place = depth) (idle : slot = some ⟨thread, false, deathAfter none f.replies⟩) :
      Follows first thread depth place slot f (.looping loop)
  | waiting {event : Event} {next : Verdict → EngineLoop Unit} {before : List Rule}
      (converts : f.call.Converts)
      (plays : Plays (loopOf f.call first) before f.replies (.report .sink event next))
      (saw : f.seen = before ++ [event.toRule]) (placed : place = depth)
      (busy : slot = some ⟨thread, true, deathAfter none f.replies⟩) :
      Follows first thread depth place slot f (.waiting depth next)
  | leaving {code : Code} (converts : f.call.Converts)
      (plays : Plays (loopOf f.call first) f.seen f.replies (.finish code)) :
      Follows first thread depth place slot f
        (.leaving (outcomeOf code f.replies f.call.target.path?))
  | lapsing {text : String} (unseen : f.seen = []) (unanswered : f.replies = [])
      (lost : f.call.options.timeoutSecs = .error text) :
      Follows first thread depth place slot f (.leaving (.panicked text))

structure Frame.Keeps (first : Host) (thread : ThreadId) (depth place : Nat)
    (slot : Option ScanSlot) (f : Frame) : Prop where
  begins : f.call.target.refusal? first.files = none
  tally : f.tally = tallyOf f.replies
  follows : f.Follows first thread depth place slot f.phase

def AllKeep (first : Host) (place : ScanId → Nat) (table : ScanTable) (thread : ThreadId) :
    List Frame → Prop
  | [] => True
  | f :: rest => f.Keeps first thread rest.length (place f.id) (table.slot? f.id) ∧
      AllKeep first place table thread rest

/-- A scan that has come back went as its loop says, if it began. -/
inductive Finished.Follows (first : Host) (r : Finished) : Prop
  | refused {e : Error} (refused : r.call.target.refusal? first.files = some e)
      (unseen : r.seen = []) (unanswered : r.replies = [])
      (outcome : r.outcome = .returned (.error e))
  | lapsed {text : String} (begins : r.call.target.refusal? first.files = none)
      (lost : r.call.options.timeoutSecs = .error text) (unseen : r.seen = [])
      (unanswered : r.replies = []) (outcome : r.outcome = .panicked text)
  | ran {code : Code} (begins : r.call.target.refusal? first.files = none)
      (converts : r.call.Converts) (plays : Plays (loopOf r.call first) r.seen r.replies (.finish code))
      (outcome : r.outcome = outcomeOf code r.replies r.call.target.path?)

def ids (frames : List Frame) : List ScanId := frames.map Frame.id

structure Sound (first : Host) (s : Parallel) : Prop where
  rules : first.SameRules s.host
  once : ∀ t, (ids (s.stack t)).Nodup
  apart : ∀ t u id, id ∈ ids (s.stack t) → id ∈ ids (s.stack u) → t = u
  keeps : ∀ t, AllKeep first s.place s.host.scans t (s.stack t)
  finished : ∀ r ∈ s.finished, r.Follows first

variable {first : Host} {s after : Parallel} {thread : ThreadId} {f : Frame}
  {frames rest : List Frame}

/-! ## Changes of one stack -/

theorem AllKeep.congr {place other : ScanId → Nat} {table changed : ScanTable}
    (keep : AllKeep first place table thread frames)
    (same : ∀ id ∈ ids frames, other id = place id ∧ changed.slot? id = table.slot? id) :
    AllKeep first other changed thread frames := by
  induction frames with
  | nil => exact keep
  | cons f rest ih =>
      obtain ⟨here, below⟩ := keep
      obtain ⟨placed, found⟩ := same f.id List.mem_cons_self
      refine ⟨?_, ih below fun id member => same id (List.mem_cons_of_mem _ member)⟩
      rw [placed, found]
      exact here

theorem AllKeep.of_mem {place : ScanId → Nat} {table : ScanTable}
    (keep : AllKeep first place table thread frames) (member : f ∈ frames) :
    ∃ depth, f.Keeps first thread depth (place f.id) (table.slot? f.id) := by
  induction frames with
  | nil => cases member
  | cons top rest ih =>
      rcases List.mem_cons.mp member with rfl | below
      · exact ⟨rest.length, keep.1⟩
      · exact ih keep.2 below

/-- The scan on top of a stack moves on, or goes away, and what is under the other numbers stays. -/
theorem Sound.change (sound : Sound first s) (top : s.stack thread = f :: rest)
    (stack : after.stack = Function.update s.stack thread frames)
    (fewer : (ids frames).Sublist (ids (f :: rest)))
    (others : ∀ id, id ≠ f.id →
      after.place id = s.place id ∧ after.host.scans.slot? id = s.host.scans.slot? id)
    (rules : first.SameRules after.host) (finished : ∀ r ∈ after.finished, r.Follows first)
    (keeps : AllKeep first after.place after.host.scans thread rest →
      AllKeep first after.place after.host.scans thread frames) : Sound first after := by
  have among : ∀ t, (ids (after.stack t)).Sublist (ids (s.stack t)) := by
    rw [stack]
    apply (Function.forall_update_iff s.stack fun t new => (ids new).Sublist (ids (s.stack t))).mpr
    exact ⟨top ▸ fewer, fun _ _ => List.Sublist.refl _⟩
  have here : f.id ∈ ids (s.stack thread) := top ▸ List.mem_cons_self
  have once := sound.once thread
  have kept := sound.keeps thread
  rw [top] at once kept
  constructor
  case rules => exact rules
  case once => exact fun t => (sound.once t).sublist (among t)
  case apart =>
    intro t u id member other
    exact sound.apart t u id ((among t).subset member) ((among u).subset other)
  case keeps =>
    rw [stack]
    apply (Function.forall_update_iff s.stack (AllKeep first after.place after.host.scans)).mpr
    constructor
    · apply keeps
      apply kept.2.congr
      rintro id below
      apply others
      rintro rfl
      exact (List.nodup_cons.mp once).1 below
    · intro t different
      apply (sound.keeps t).congr
      rintro id elsewhere
      apply others
      rintro rfl
      exact different (sound.apart t thread f.id elsewhere here)
  case finished => exact finished

theorem Sound.push (sound : Sound first s) (fresh : ∀ t, f.id ∉ ids (s.stack t))
    (stack : after.stack = Function.update s.stack thread (f :: s.stack thread))
    (place : after.place = s.place) (scans : after.host.scans.slot? = s.host.scans.slot?)
    (rules : first.SameRules after.host) (finished : after.finished = s.finished)
    (keeps : f.Keeps first thread (s.stack thread).length (after.place f.id)
      (after.host.scans.slot? f.id)) : Sound first after := by
  -- Every number on the stacks is the new one, or was there before.
  have among : ∀ t id, id ∈ ids (after.stack t) →
      id = f.id ∧ t = thread ∨ id ∈ ids (s.stack t) := by
    rw [stack]
    apply (Function.forall_update_iff s.stack fun t new => ∀ id, id ∈ ids new →
      id = f.id ∧ t = thread ∨ id ∈ ids (s.stack t)).mpr
    constructor
    · intro id member
      rcases List.mem_cons.mp member with new | old
      · exact .inl ⟨new, rfl⟩
      · exact .inr old
    · exact fun t _ id member => .inr member
  have kept (t : ThreadId) : AllKeep first after.place after.host.scans t (s.stack t) := by
    apply (sound.keeps t).congr
    exact fun id _ => ⟨congrFun place id, congrFun scans id⟩
  constructor
  case rules => exact rules
  case once =>
    rw [stack]
    apply (Function.forall_update_iff s.stack fun _ new => (ids new).Nodup).mpr
    exact ⟨List.nodup_cons.mpr ⟨fresh thread, sound.once thread⟩, fun t _ => sound.once t⟩
  case apart =>
    intro t u id member other
    rcases among t id member with ⟨rfl, rfl⟩ | old
    · rcases among u _ other with ⟨_, rfl⟩ | older
      · rfl
      · exact absurd older (fresh u)
    · rcases among u id other with ⟨rfl, rfl⟩ | older
      · exact absurd old (fresh t)
      · exact sound.apart t u id old older
  case keeps =>
    rw [stack]
    apply (Function.forall_update_iff s.stack (AllKeep first after.place after.host.scans)).mpr
    exact ⟨⟨keeps, kept thread⟩, fun t _ => kept t⟩
  case finished => exact finished ▸ sound.finished

/-! ## The places of a stack -/

theorem atPlace_below (change : Frame → Frame) {place : Nat} (below : frames.length ≤ place) :
    atPlace place change frames = frames := by
  induction frames with
  | nil => rfl
  | cons f rest ih =>
      have under : rest.length < place := below
      rw [atPlace, if_neg (Nat.ne_of_lt under), ih (Nat.le_of_lt under)]

theorem atPlace_top (change : Frame → Frame) (f : Frame) (rest : List Frame) :
    atPlace rest.length change (f :: rest) = change f :: rest := by
  rw [atPlace, if_pos rfl, atPlace_below change (Nat.le_refl _)]

/-! ## Each move -/

theorem Sound.top (sound : Sound first s) (top : s.stack thread = f :: rest) :
    f.Keeps first thread rest.length (s.place f.id) (s.host.scans.slot? f.id) := by
  have kept := sound.keeps thread
  rw [top] at kept
  exact kept.1

theorem Sound.start (sound : Sound first s) (thread : ThreadId) (call : ScanCall)
    (fresh : ∀ t, s.host.scans.next ∉ ids (s.stack t)) : Sound first (s.start thread call) := by
  unfold Parallel.start
  have begins : call.target.refusal? s.host.files = call.target.refusal? first.files := by
    rw [sound.rules.files]
  cases refused : call.target.refusal? s.host.files with
  | some e =>
      refine ⟨sound.rules, sound.once, sound.apart, sound.keeps, ?_⟩
      intro r member
      rcases List.mem_append.mp member with old | new
      · exact sound.finished r old
      · rw [List.mem_singleton.mp new]
        exact .refused (begins.symm.trans refused) rfl rfl rfl
  | none =>
      refine sound.push fresh rfl rfl rfl ?rules rfl ?keeps
      case rules => exact ⟨sound.rules.files, sound.rules.engines⟩
      case keeps => exact ⟨begins.symm.trans refused, rfl, .entering rfl rfl⟩

theorem Sound.insert (sound : Sound first s) (top : s.stack thread = f :: rest)
    (phase : f.phase = .entering) : Sound first (s.insert thread f rest) := by
  obtain ⟨begins, tally, follows⟩ := sound.top top
  rw [phase] at follows
  obtain ⟨unseen, unanswered⟩ := follows
  have found : (s.host.scans.insert thread f.id).slot? f.id = some ⟨thread, false, none⟩ := by
    rw [ScanTable.slot?_insert, if_pos rfl]
  refine sound.change top rfl ?fewer ?others ?rules ?finished ?keeps
  case fewer => exact List.Sublist.refl _
  case others =>
    intro id different
    refine ⟨if_neg different, ?_⟩
    exact (s.host.scans.slot?_insert thread f.id id).trans (if_neg different)
  case rules => exact ⟨sound.rules.files, sound.rules.engines⟩
  case finished => exact sound.finished
  case keeps =>
    exact fun below => ⟨⟨begins, tally, .entered unseen unanswered (if_pos rfl) found⟩, below⟩

theorem Sound.ask (sound : Sound first s) (top : s.stack thread = f :: rest)
    (phase : f.phase = .entered) : Sound first (s.ask thread f rest) := by
  obtain ⟨begins, tally, follows⟩ := sound.top top
  rw [phase] at follows
  obtain _ | ⟨unseen, unanswered, placed, idle⟩ := follows
  unfold Parallel.ask
  cases converted : f.call.options.timeoutSecs with
  | error text =>
      refine sound.change top rfl ?fewer ?others ?rules ?finished ?keeps
      case fewer => exact List.Sublist.refl _
      case others => exact fun _ _ => ⟨rfl, rfl⟩
      case rules => exact sound.rules
      case finished => exact sound.finished
      case keeps => exact fun below => ⟨⟨begins, tally, .lapsing unseen unanswered converted⟩, below⟩
  | ok seconds =>
      obtain ⟨asked, scans⟩ := f.call.sameRules_ask (S := Unit) s.host
      have loop : loopOf f.call first = (f.call.ask s.host).1 :=
        (f.call.alike_ask sound.rules).eq
      have plays : Plays (loopOf f.call first) f.seen f.replies (f.call.ask s.host).1 := by
        rw [unseen, unanswered, ← loop]
        exact .nothing _
      refine sound.change top rfl ?fewer ?others ?rules ?finished ?keeps
      case fewer => exact List.Sublist.refl _
      case others => exact fun id _ => ⟨rfl, congrArg (·.slot? id) scans⟩
      case rules => exact sound.rules.trans asked
      case finished => exact sound.finished
      case keeps =>
        intro below
        refine ⟨⟨begins, tally, .looping ⟨seconds, converted⟩ plays placed ?_⟩, below⟩
        show (f.call.ask (S := Unit) s.host).2.scans.slot? f.id = _
        rw [scans, idle, unanswered]
        rfl

theorem Sound.report (sound : Sound first s) (top : s.stack thread = f :: rest) {event : Event}
    {next : Verdict → EngineLoop Unit} (phase : f.phase = .looping (.report .sink event next)) :
    Sound first (s.report thread f rest event next) := by
  obtain ⟨begins, tally, follows⟩ := sound.top top
  rw [phase] at follows
  obtain _ | _ | ⟨converts, plays, placed, idle⟩ := follows
  let busy := s.host.scans.update f.id fun slot => { slot with busy := true }
  have received : s.host.receive thread f.id = .ok { s.host with scans := busy } :=
    receive_eq_ok_iff.mpr ⟨busy, ScanTable.enter_eq_ok_iff.mpr ⟨_, idle, rfl, rfl, rfl⟩, rfl⟩
  have found : busy.slot? f.id = some ⟨thread, true, deathAfter none f.replies⟩ := by
    rw [ScanTable.slot?_update, if_pos rfl, idle]
    rfl
  unfold Parallel.report
  rw [received]
  dsimp only
  rw [placed, atPlace_top]
  refine sound.change top rfl ?fewer ?others ?rules ?finished ?keeps
  case fewer => exact List.Sublist.refl _
  case others =>
    intro id different
    refine ⟨rfl, ?_⟩
    exact (s.host.scans.slot?_update f.id _ id).trans (if_neg different)
  case rules => exact ⟨sound.rules.files, sound.rules.engines⟩
  case finished => exact sound.finished
  case keeps => exact fun below => ⟨⟨begins, tally, .waiting converts plays rfl placed found⟩, below⟩

theorem Sound.reply (sound : Sound first s) (top : s.stack thread = f :: rest) {place : Nat}
    {next : Verdict → EngineLoop Unit} (phase : f.phase = .waiting place next) (reply : Reply) :
    Sound first (s.reply thread f rest place next reply) := by
  obtain ⟨begins, tally, follows⟩ := sound.top top
  rw [phase] at follows
  obtain _ | _ | _ | @⟨event, _, before, converts, plays, saw, placed, busy⟩ := follows
  have settled := ScanTable.settle_of_slot busy reply
  let table := s.host.scans.update f.id fun slot => ScanTable.settled slot reply
  have found : table.slot? f.id =
      some ⟨thread, false, deathAfter none (f.replies ++ [reply])⟩ := by
    rw [ScanTable.slot?_update, if_pos rfl, busy, Option.map_some, settled_eq, deathAfter_concat]
  have count : f.tally.count reply = tallyOf (f.replies ++ [reply]) := by
    rw [tallyOf_concat, tally]
  have played : Plays (loopOf f.call first) f.seen (f.replies ++ [reply])
      (next (ScanTable.answer reply)) := saw ▸ plays.concat reply
  unfold Parallel.reply
  rw [settled]
  dsimp only
  rw [atPlace_top]
  refine sound.change top rfl ?fewer ?others ?rules ?finished ?keeps
  case fewer => exact List.Sublist.refl _
  case others =>
    intro id different
    refine ⟨rfl, ?_⟩
    exact (s.host.scans.slot?_update f.id _ id).trans (if_neg different)
  case rules => exact ⟨sound.rules.files, sound.rules.engines⟩
  case finished => exact sound.finished
  case keeps => exact fun below => ⟨⟨begins, count, .looping converts played placed found⟩, below⟩

theorem Sound.finish (sound : Sound first s) (top : s.stack thread = f :: rest) {code : Code}
    (phase : f.phase = .looping (.finish code)) : Sound first (s.finish thread f rest code) := by
  obtain ⟨begins, tally, follows⟩ := sound.top top
  rw [phase] at follows
  obtain _ | _ | ⟨converts, plays, placed, idle⟩ := follows
  obtain ⟨outcome, left⟩ := close_of_slot idle code f.call.target.path?
  unfold Parallel.finish
  rw [tally]
  dsimp only
  rw [outcome, left]
  refine sound.change top rfl ?fewer ?others ?rules ?finished ?keeps
  case fewer => exact List.Sublist.refl _
  case others =>
    intro id different
    refine ⟨rfl, ?_⟩
    exact (s.host.scans.slot?_finish f.id id).trans (if_neg different)
  case rules => exact ⟨sound.rules.files, sound.rules.engines⟩
  case finished => exact sound.finished
  case keeps => exact fun below => ⟨⟨begins, rfl, .leaving converts plays⟩, below⟩

theorem Sound.drop (sound : Sound first s) (top : s.stack thread = f :: rest)
    {outcome : ScanOutcome} (phase : f.phase = .leaving outcome) :
    Sound first (s.drop thread f rest outcome) := by
  obtain ⟨begins, tally, follows⟩ := sound.top top
  rw [phase] at follows
  have went : Finished.Follows first ⟨f.call, f.seen, f.replies, outcome⟩ := by
    cases follows with
    | leaving converts plays => exact .ran begins converts plays rfl
    | lapsing unseen unanswered lost => exact .lapsed begins lost unseen unanswered rfl
  refine sound.change top rfl ?fewer ?others ?rules ?finished ?keeps
  case fewer => exact List.sublist_cons_self _ _
  case others =>
    intro id different
    refine ⟨rfl, ?_⟩
    exact (s.host.scans.slot?_finish f.id id).trans (if_neg different)
  case rules => exact ⟨sound.rules.files, sound.rules.engines⟩
  case finished =>
    intro r member
    rcases List.mem_append.mp member with old | new
    · exact sound.finished r old
    · rw [List.mem_singleton.mp new]
      exact went
  case keeps => exact id

/-! ## All moves -/

inductive Takes (s : Parallel) (thread : ThreadId) : Move → Parallel → Prop
  | start (call : ScanCall) : Takes s thread (.start call) (s.start thread call)
  | insert {f : Frame} {rest : List Frame} (top : s.stack thread = f :: rest)
      (phase : f.phase = .entering) : Takes s thread .insert (s.insert thread f rest)
  | ask {f : Frame} {rest : List Frame} (top : s.stack thread = f :: rest)
      (phase : f.phase = .entered) : Takes s thread .ask (s.ask thread f rest)
  | report {f : Frame} {rest : List Frame} {event : Event} {next : Verdict → EngineLoop Unit}
      (top : s.stack thread = f :: rest) (phase : f.phase = .looping (.report .sink event next)) :
      Takes s thread .report (s.report thread f rest event next)
  | reply {f : Frame} {rest : List Frame} {place : Nat} {next : Verdict → EngineLoop Unit}
      {reply : Reply} (top : s.stack thread = f :: rest) (phase : f.phase = .waiting place next) :
      Takes s thread (.reply reply) (s.reply thread f rest place next reply)
  | finish {f : Frame} {rest : List Frame} {code : Code} (top : s.stack thread = f :: rest)
      (phase : f.phase = .looping (.finish code)) :
      Takes s thread .finish (s.finish thread f rest code)
  | drop {f : Frame} {rest : List Frame} {outcome : ScanOutcome} (top : s.stack thread = f :: rest)
      (phase : f.phase = .leaving outcome) : Takes s thread .drop (s.drop thread f rest outcome)

theorem takes_of_step {move : Move} (stepped : s.step thread move = some after) :
    Takes s thread move after := by
  unfold step at stepped
  split at stepped
  case h_1 call =>
    split at stepped
    · cases stepped
      exact .start call
    · contradiction
  case h_2 => contradiction
  case h_3 f rest _ top =>
    unfold advance at stepped
    split at stepped
    case h_1 phase _ =>
      cases stepped
      exact .insert top phase
    case h_2 phase _ =>
      cases stepped
      exact .ask top phase
    case h_3 phase _ =>
      cases stepped
      exact .report top phase
    case h_4 phase _ =>
      cases stepped
      exact .reply top phase
    case h_5 phase _ =>
      cases stepped
      exact .finish top phase
    case h_6 phase _ =>
      cases stepped
      exact .drop top phase
    case h_7 => contradiction

/-- The number that a move hands out, if it hands out one, is not that of a scan under way. -/
def Fresh (s : Parallel) : Move → Prop
  | .start _ => ∀ t, s.host.scans.next ∉ ids (s.stack t)
  | _ => True

theorem Sound.step (sound : Sound first s) {move : Move} (takes : Takes s thread move after)
    (fresh : s.Fresh move) : Sound first after := by
  cases takes with
  | start call => exact sound.start thread call fresh
  | insert top phase => exact sound.insert top phase
  | ask top phase => exact sound.ask top phase
  | report top phase => exact sound.report top phase
  | reply top phase => exact sound.reply top phase _
  | finish top phase => exact sound.finish top phase
  | drop top phase => exact sound.drop top phase

/-- No number comes round to a scan that is still under way. -/
def Distinct (s : Parallel) : List (ThreadId × Move) → Prop
  | [] => True
  | (thread, move) :: rest =>
    s.Fresh move ∧ ∀ after, s.step thread move = some after → after.Distinct rest

theorem Sound.exec (moves : List (ThreadId × Move)) (sound : Sound first s)
    (ran : s.exec moves = some after) (distinct : s.Distinct moves) : Sound first after := by
  induction moves generalizing s with
  | nil =>
      cases ran
      exact sound
  | cons taken rest ih =>
      obtain ⟨fresh, later⟩ := distinct
      rw [Parallel.exec] at ran
      split at ran
      case h_1 next stepped =>
        exact ih (sound.step (takes_of_step stepped) fresh) ran (later next stepped)
      case h_2 => contradiction

theorem sound_start (h : Host) : Sound h { host := h } where
  rules := ⟨rfl, fun _ => ⟨rfl, rfl⟩⟩
  once _ := List.nodup_nil
  apart _ _ _ member := absurd member List.not_mem_nil
  keeps _ := trivial
  finished _ member := absurd member List.not_mem_nil

/-! ## Numbers -/

def Move.isStart : Move → Bool
  | .start _ => true
  | _ => false

/-- The numbers handed out so far are those from `n` on. -/
structure Counted (n count : Nat) (s : Parallel) : Prop where
  next : s.host.scans.next = (n + count) % idLimit
  known : ∀ t, ∀ id ∈ ids (s.stack t), ∃ k < count, id = (n + k) % idLimit

theorem ids_atPlace (place : Nat) (change : Frame → Frame) (same : ∀ f, (change f).id = f.id)
    (frames : List Frame) : ids (atPlace place change frames) = ids frames := by
  induction frames with
  | nil => rfl
  | cons f rest ih =>
      rw [atPlace, ids, List.map_cons, ← ids, ih]
      split
      · rw [same]
        rfl
      · rfl

theorem next_settle (t : ScanTable) (id : ScanId) (reply : Reply) :
    (t.settle id reply).2.next = t.next := by
  unfold ScanTable.settle
  split
  · rfl
  · rfl
  · rfl
  · rfl

theorem scans_close (id : ScanId) (run : ScanRun) (h : Host) :
    (close id run h).2.scans = (h.scans.finish id).2 := by
  unfold close
  dsimp only
  split
  · rfl
  · rfl

theorem next_receive {h received : Host} {id : ScanId}
    (through : h.receive thread id = .ok received) :
    received.scans.next = h.scans.next := by
  obtain ⟨table, allowed, rfl⟩ := receive_eq_ok_iff.mp through
  obtain ⟨_, _, _, _, rfl⟩ := ScanTable.enter_eq_ok_iff.mp allowed
  rfl

/-- Only a move that starts a scan hands out a number. -/
theorem Takes.numbers {move : Move} (takes : Takes s thread move after) :
    (after.host.scans.next = s.host.scans.next ∧ ∀ t, ids (after.stack t) ⊆ ids (s.stack t)) ∨
      (move.isStart = true ∧ after.host.scans.next = (s.host.scans.next + 1) % idLimit ∧
        ∀ t, ids (after.stack t) ⊆ s.host.scans.next :: ids (s.stack t)) := by
  have on_top {f : Frame} {rest frames : List Frame} (top : s.stack thread = f :: rest)
      (among : ids frames ⊆ ids (f :: rest)) :
      ∀ t, ids (Function.update s.stack thread frames t) ⊆ ids (s.stack t) := by
    apply (Function.forall_update_iff s.stack fun t new => ids new ⊆ ids (s.stack t)).mpr
    exact ⟨top ▸ among, fun _ _ => List.Subset.refl _⟩
  cases takes with
  | start call =>
      unfold Parallel.start
      split
      · exact .inl ⟨rfl, fun _ => List.Subset.refl _⟩
      · refine .inr ⟨rfl, rfl, ?_⟩
        apply (Function.forall_update_iff s.stack fun t new =>
          ids new ⊆ s.host.scans.next :: ids (s.stack t)).mpr
        exact ⟨List.Subset.refl _, fun _ _ => List.subset_cons_self _ _⟩
  | insert top _ => exact .inl ⟨rfl, on_top top (List.Subset.refl _)⟩
  | @ask f rest top _ =>
      unfold Parallel.ask
      split
      · exact .inl ⟨rfl, on_top top (List.Subset.refl _)⟩
      · refine .inl ⟨?_, on_top top (List.Subset.refl _)⟩
        exact congrArg ScanTable.next (f.call.sameRules_ask s.host).2
  | @report f rest event next top _ =>
      unfold Parallel.report
      split
      case h_1 refused =>
        refine .inl ⟨congrArg ScanTable.next (receive_refused refused).1, ?_⟩
        exact on_top top (List.Subset.refl _)
      case h_2 through =>
        refine .inl ⟨next_receive through, on_top top ?_⟩
        rw [ids_atPlace _ (Frame.hear event.toRule) fun _ => rfl]
        exact List.Subset.refl _
  | @reply f rest place next reply top _ =>
      refine .inl ⟨next_settle s.host.scans f.id reply, on_top top ?_⟩
      rw [ids_atPlace _ (Frame.answer reply) fun _ => rfl]
      exact List.Subset.refl _
  | @finish f rest code top _ =>
      refine .inl ⟨?_, on_top top (List.Subset.refl _)⟩
      show (close f.id ⟨code, f.tally⟩ s.host).2.scans.next = _
      rw [scans_close]
      rfl
  | drop top _ => exact .inl ⟨rfl, on_top top (List.subset_cons_self _ _)⟩

theorem Counted.fresh {n count : Nat} (counted : Counted n count s) {move : Move}
    (few : move.isStart = true → count < idLimit) : s.Fresh move := by
  cases move with
  | start call =>
      intro t member
      obtain ⟨k, earlier, same⟩ := counted.known t _ member
      have less : count < idLimit := few rfl
      have around : (n + count) % 18446744073709551616 = (n + k) % 18446744073709551616 :=
        counted.next.symm.trans same
      unfold idLimit at less
      omega
  | _ => trivial

theorem Counted.step {n count : Nat} (counted : Counted n count s) {move : Move}
    (takes : Takes s thread move after) :
    Counted n count after ∨ move.isStart = true ∧ Counted n (count + 1) after := by
  rcases takes.numbers with ⟨next, among⟩ | ⟨start, next, among⟩
  · exact .inl ⟨next.trans counted.next, fun t id member => counted.known t id (among t member)⟩
  · refine .inr ⟨start, ?_, ?_⟩
    · rw [next, counted.next, Nat.mod_add_mod, Nat.add_assoc]
    · intro t id member
      rcases List.mem_cons.mp (among t member) with rfl | old
      · exact ⟨count, Nat.lt_succ_self count, counted.next⟩
      · obtain ⟨k, earlier, same⟩ := counted.known t id old
        exact ⟨k, Nat.lt_succ_of_lt earlier, same⟩

/-- As long as there are numbers left, none comes round. -/
theorem distinct_of_counted (moves : List (ThreadId × Move)) {n count : Nat}
    (counted : Counted n count s)
    (few : count + moves.countP (·.2.isStart) ≤ idLimit) : s.Distinct moves := by
  induction moves generalizing s count with
  | nil => trivial
  | cons taken rest ih =>
      obtain ⟨thread, move⟩ := taken
      rw [List.countP_cons] at few
      refine ⟨counted.fresh ?_, ?_⟩
      · intro start
        rw [start, if_pos rfl] at few
        omega
      · intro after stepped
        rcases counted.step (takes_of_step stepped) with same | ⟨start, more⟩
        · exact ih same (by omega)
        · rw [start, if_pos rfl] at few
          exact ih more (by omega)

theorem distinct_of_few (h : Host) (moves : List (ThreadId × Move))
    (small : h.scans.next < idLimit) (few : moves.countP (·.2.isStart) ≤ idLimit) :
    Distinct { host := h } moves := by
  have counted : Counted h.scans.next 0 { host := h } :=
    ⟨(Nat.mod_eq_of_lt small).symm, fun _ _ member => absurd member List.not_mem_nil⟩
  exact distinct_of_counted moves counted (by omega)

/-! ## Scans of their own -/

theorem Finished.Follows.run {r : Finished} (follows : r.Follows first) {alone : Host}
    (same : first.SameRules alone) :
    let solo := r.call.run replay (alone, [], r.replies)
    solo.1 = r.outcome ∧ solo.2.2 = (r.seen, []) := by
  cases follows with
  | refused refused unseen unanswered outcome =>
      rw [← same.files] at refused
      rw [ScanCall.run_of_refused refused, outcome, unseen, unanswered]
      exact ⟨rfl, rfl⟩
  | lapsed begins lost unseen unanswered outcome =>
      rw [← same.files] at begins
      rw [ScanCall.run_of_lost begins lost, outcome, unseen, unanswered]
      exact ⟨rfl, rfl⟩
  | ran begins converts plays outcome =>
      obtain ⟨_, converted⟩ := converts
      rw [← same.files] at begins
      have noted : first.SameRules (alone.note r.call.target.note) := ⟨same.files, same.engines⟩
      rw [ScanCall.run_eq_scan converted, ScanCall.scan_of_begun begins, outcome]
      exact run_replay plays (r.call.alike_ask noted) _ r.call.target.path?

/-- What a scan under way has seen is seen by the scan on its own, whatever more it is answered. -/
theorem Frame.Keeps.seen {depth place : Nat} {slot : Option ScanSlot}
    (keeps : f.Keeps first thread depth place slot) {alone : Host} (same : first.SameRules alone)
    (reply : Reply) (more : List Reply) :
    f.seen <+: (f.call.run replay (alone, [], f.replies ++ reply :: more)).2.2.1 := by
  have begins := keeps.begins
  rw [← same.files] at begins
  have noted : first.SameRules (alone.note f.call.target.note) := ⟨same.files, same.engines⟩
  have alike := f.call.alike_ask (S := Unit) (T := Host × List Rule × List Reply) noted
  have runs (converts : f.call.Converts) (replies : List Reply) :
      f.call.run replay (alone, [], replies) = f.call.scan replay (alone, [], replies) :=
    converts.elim fun _ converted => ScanCall.run_eq_scan converted _ _
  have follows := keeps.follows
  generalize f.phase = phase at follows
  cases follows with
  | entering unseen => rw [unseen]; exact List.nil_prefix
  | entered unseen => rw [unseen]; exact List.nil_prefix
  | looping converts plays =>
      rw [runs converts, ScanCall.scan_of_begun begins]
      exact run_replay_seen plays alike _ (reply :: more)
  | waiting converts plays saw =>
      rw [saw, List.append_cons f.replies reply more, runs converts, ScanCall.scan_of_begun begins]
      exact run_replay_seen (plays.concat reply) alike _ more
  | leaving converts plays =>
      rw [runs converts, ScanCall.scan_of_begun begins]
      exact run_replay_seen plays alike _ (reply :: more)
  | lapsing unseen => rw [unseen]; exact List.nil_prefix

theorem step_on_top (top : s.stack thread = f :: rest) {move : Move} (goes : move.isStart = false) :
    s.step thread move = s.advance thread f rest f.phase move := by
  unfold step
  rw [top]
  cases move with
  | start call => contradiction
  | _ => rfl

/-- The scan on top of a stack can always go on. -/
theorem Frame.Keeps.moves {depth place : Nat} {slot : Option ScanSlot}
    (keeps : f.Keeps first thread depth place slot) (top : s.stack thread = f :: rest) :
    ∃ move after, s.step thread move = some after := by
  have goes (move : Move) (goes : move.isStart = false) := step_on_top top goes
  have follows := keeps.follows
  generalize f.phase = phase at follows goes
  cases follows with
  | entering => exact ⟨.insert, _, goes .insert rfl⟩
  | entered => exact ⟨.ask, _, goes .ask rfl⟩
  | looping _ plays =>
      have same : first.SameRules first := ⟨rfl, fun _ => ⟨rfl, rfl⟩⟩
      -- The loop that is left has the shape of the one that the engine gave.
      obtain ⟨_, alike⟩ := plays.alike (f.call.alike_ask (S := Unit) (T := Unit) same)
      cases alike with
      | finish code => exact ⟨.finish, _, goes .finish rfl⟩
      | report event rest => exact ⟨.report, _, goes .report rfl⟩
  | waiting => exact ⟨.reply (.verdict .proceed), _, goes (.reply (.verdict .proceed)) rfl⟩
  | leaving => exact ⟨.drop, _, goes .drop rfl⟩
  | lapsing => exact ⟨.drop, _, goes .drop rfl⟩

/-- Scans on any threads and within handlers. One that has come back has called its handler and has
ended as it would on its own, on a host with the same files and rule sets, where its handler gives
the same answers; one that is under way is on the way there, and is never held up by another one. -/
theorem isolation (first : Host) (moves : List (ThreadId × Move)) {s : Parallel}
    (ran : ({ host := first } : Parallel).exec moves = some s)
    (distinct : ({ host := first } : Parallel).Distinct moves) {alone : Host}
    (same : first.SameRules alone) :
    (∀ r ∈ s.finished,
      let solo := r.call.run replay (alone, [], r.replies)
      solo.1 = r.outcome ∧ solo.2.2 = (r.seen, [])) ∧
    (∀ thread, ∀ f ∈ s.stack thread, ∀ reply more,
      f.seen <+: (f.call.run replay (alone, [], f.replies ++ reply :: more)).2.2.1) ∧
    ∀ thread, s.stack thread ≠ [] → ∃ move after, s.step thread move = some after := by
  have sound := (sound_start first).exec moves ran distinct
  refine ⟨?_, ?_, ?_⟩
  · intro r member
    exact (sound.finished r member).run same
  · intro thread f member reply more
    obtain ⟨_, keeps⟩ := (sound.keeps thread).of_mem member
    exact keeps.seen same reply more
  · intro thread busy
    obtain ⟨f, rest, top⟩ := List.exists_cons_of_ne_nil busy
    exact (sound.top top).moves top

theorem isolation_of_nested_scans :
    let patterns : List Pattern := [⟨"ns", "first", "a", [], []⟩, ⟨"ns", "second", "", [], []⟩]
    let first : Host := {
      files := ⟨[], []⟩
      tempDir := .ofText ""
      engines := [{ engine := (Engine.addRuleSet {} patterns).2, holders := 1 }] }
    let scan : ScanCall := ⟨⟨0, 1, {}⟩, .buffer (Utf8.encode "ab"), {}⟩
    let inner : List (ThreadId × Move) := [(1, .start scan), (1, .insert), (1, .ask),
      (2, .start scan), (1, .report), (2, .insert), (1, .start scan), (2, .ask), (1, .insert),
      (1, .ask), (1, .report), (2, .report), (1, .reply (.panic "inner")), (1, .finish), (1, .drop)]
    let outer : List (ThreadId × Move) := [(2, .reply (.verdict .abort)),
      (1, .reply (.verdict .proceed)), (2, .finish), (2, .drop), (1, .report),
      (1, .reply (.verdict .proceed)), (1, .finish), (1, .drop)]
    ∃ s, ({ host := first } : Parallel).exec (inner ++ outer) = some s ∧ s.finished.length = 3 ∧
      ∀ r ∈ s.finished,
        let solo := r.call.run replay (first, [], r.replies)
        solo.1 = r.outcome ∧ solo.2.2 = (r.seen, []) := by
  intro patterns first scan inner outer
  have counted : (({ host := first } : Parallel).exec (inner ++ outer)).map
      (fun s => s.finished.length) = some 3 := by decide +kernel
  obtain ⟨s, ran, three⟩ := Option.map_eq_some_iff.mp counted
  have distinct := distinct_of_few first (inner ++ outer) (by decide) (by decide)
  refine ⟨s, ran, three, ?_⟩
  exact (isolation first (inner ++ outer) ran distinct ⟨rfl, fun _ => ⟨rfl, rfl⟩⟩).1

end Parallel

end Needle
