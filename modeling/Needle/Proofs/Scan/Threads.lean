import Needle.Proofs.Scan.Table
import Needle.Scan.Threads

/-!
# The table of running scans under many threads

However the steps of the threads fall, the table says what the threads are doing: its keys are the
scans that run, each under the thread on whose stack it runs, and a scan is busy while a call of its
handler is on that stack. So no handler is entered twice at once or from another thread, a handler
that ends finds its scan in the table, and the table is empty when nothing runs.

A call of a handler always stands above its own scan (`Nested`), whatever was started in between;
this is what keeps a scan in the table until its handler has ended.
-/
set_option autoImplicit false

namespace Needle

namespace Threads

/-- The scan that a frame stands for, unless it is a call of a handler. -/
def Frame.scan? : Frame → Option ScanId
  | .entering id | .running id | .leaving id => some id
  | .handling _ => none

def Frame.call? : Frame → Option ScanId
  | .handling id => some id
  | _ => none

abbrev Stacks := ThreadId → List Frame

def scans (frames : List Frame) : List ScanId := frames.filterMap Frame.scan?

def calls (frames : List Frame) : List ScanId := frames.filterMap Frame.call?

/-- Every call of a handler stands above its scan. -/
def Nested : List Frame → Prop
  | [] => True
  | .handling id :: rest => .running id ∈ rest ∧ Nested rest
  | _ :: rest => Nested rest

/-- The stacks hold scans with numbers that have been handed out, each of them once, and calls of
handlers, at most one for each scan. -/
structure Stacked (issued : List ScanId) (stack : Stacks) : Prop where
  known : ∀ t, ∀ id ∈ scans (stack t), id ∈ issued
  apart : ∀ t u id, id ∈ scans (stack t) → id ∈ scans (stack u) → t = u
  once : ∀ t, (scans (stack t)).Nodup
  single : ∀ t, (calls (stack t)).Nodup
  nested : ∀ t, Nested (stack t)

/-- What the table has under a number, as the stacks tell it. -/
def Tracks (stack : Stacks) (id : ScanId) : Option ScanSlot → Prop
  | none => ∀ t, .running id ∉ stack t
  | some slot => (∀ t, .running id ∈ stack t ↔ t = slot.thread) ∧
      (slot.busy = true ↔ .handling id ∈ stack slot.thread)

/-- The numbers that have been handed out are the first ones. -/
structure Numbered (next : Nat) (issued : List Nat) : Prop where
  next_eq : next = (issued.length + 1) % idLimit
  mem_iff : ∀ id, id ∈ issued ↔ 1 ≤ id ∧ id ≤ issued.length
  nodup : issued.Nodup

structure Sound (s : Threads) : Prop where
  numbered : Numbered s.table.next s.issued
  stacked : Stacked s.issued s.stack
  tracked : ∀ id, Tracks s.stack id (s.table.slot? id)
  distinct : s.table.ids.Nodup

/-! ## Frames -/

variable {id other : ScanId} {thread : ThreadId} {frames rest : List Frame} {stack : Stacks}
  {issued : List ScanId}

theorem mem_scans_of_running (member : .running id ∈ frames) : id ∈ scans frames :=
  List.mem_filterMap.mpr ⟨_, member, rfl⟩

theorem mem_calls_iff : id ∈ calls frames ↔ .handling id ∈ frames := by
  rw [calls, List.mem_filterMap]
  constructor
  · rintro ⟨frame, member, call⟩
    cases frame <;> simp [Frame.call?] at call
    rw [← call]
    exact member
  · intro member
    exact ⟨_, member, rfl⟩

theorem Nested.tail {frame : Frame} (nested : Nested (frame :: rest)) : Nested rest := by
  cases frame with
  | handling _ => exact nested.2
  | entering _ => exact nested
  | running _ => exact nested
  | leaving _ => exact nested

theorem Nested.running_of_handling (nested : Nested frames) (member : .handling id ∈ frames) :
    .running id ∈ frames := by
  induction frames with
  | nil => cases member
  | cons frame rest ih =>
      rcases List.mem_cons.mp member with here | below
      · subst here
        exact List.mem_cons_of_mem _ nested.1
      · exact List.mem_cons_of_mem _ (ih nested.tail below)

/-! ## Stacks -/

theorem put_self : put stack thread frames thread = frames := if_pos rfl

theorem put_of_ne {t : ThreadId} (different : t ≠ thread) : put stack thread frames t = stack t :=
  if_neg different

/-- What holds of the other stacks and of the new one holds of every stack. -/
theorem put_cases (P : ThreadId → List Frame → Prop) (new : P thread frames)
    (others : ∀ t, t ≠ thread → P t (stack t)) (t : ThreadId) :
    P t (put stack thread frames t) := by
  by_cases here : t = thread
  · subst here
    rw [put_self]
    exact new
  · rw [put_of_ne here]
    exact others t here

/-- Scans go away from one stack, or stay, and nothing else of it gets out of order. -/
theorem Stacked.of_fewer (stacked : Stacked issued stack)
    (fewer : (scans frames).Sublist (scans (stack thread)))
    (single : (calls frames).Nodup) (nested : Nested frames) :
    Stacked issued (put stack thread frames) := by
  have among : ∀ t, (scans (put stack thread frames t)).Sublist (scans (stack t)) :=
    put_cases (fun t new => (scans new).Sublist (scans (stack t))) fewer
      fun _ _ => List.Sublist.refl _
  constructor
  case known => exact fun t id member => stacked.known t id ((among t).subset member)
  case apart =>
    intro t u id first second
    exact stacked.apart t u id ((among t).subset first) ((among u).subset second)
  case once => exact fun t => (stacked.once t).sublist (among t)
  case single => exact put_cases (fun _ new => (calls new).Nodup) single fun t _ => stacked.single t
  case nested => exact put_cases (fun _ new => Nested new) nested fun t _ => stacked.nested t

theorem Stacked.enter (stacked : Stacked issued stack) (fresh : id ∉ issued) :
    Stacked (id :: issued) (put stack thread (.entering id :: stack thread)) := by
  have unknown (t : ThreadId) : id ∉ scans (stack t) := fun member =>
    fresh (stacked.known t id member)
  have among {t : ThreadId} {other : ScanId}
      (member : other ∈ scans (put stack thread (.entering id :: stack thread) t)) :
      other = id ∧ t = thread ∨ other ∈ scans (stack t) := by
    by_cases here : t = thread
    · subst here
      rw [put_self] at member
      rcases List.mem_cons.mp member with new | old
      · exact .inl ⟨new, rfl⟩
      · exact .inr old
    · rw [put_of_ne here] at member
      exact .inr member
  constructor
  case known =>
    intro t other member
    rcases among member with ⟨rfl, _⟩ | old
    · exact List.mem_cons_self
    · exact List.mem_cons_of_mem _ (stacked.known t other old)
  case apart =>
    intro t u other first second
    rcases among first with ⟨rfl, rfl⟩ | old
    · rcases among second with ⟨_, rfl⟩ | old
      · rfl
      · exact absurd old (unknown u)
    · rcases among second with ⟨rfl, _⟩ | older
      · exact absurd old (unknown t)
      · exact stacked.apart t u other old older
  case once =>
    apply put_cases fun _ new => (scans new).Nodup
    · exact List.nodup_cons.mpr ⟨unknown thread, stacked.once thread⟩
    · exact fun t _ => stacked.once t
  case single =>
    exact put_cases (fun _ new => (calls new).Nodup) (stacked.single thread)
      fun t _ => stacked.single t
  case nested =>
    exact put_cases (fun _ new => Nested new) (stacked.nested thread) fun t _ => stacked.nested t

theorem Stacked.not_running (stacked : Stacked issued stack) {frame : Frame}
    (top : stack thread = frame :: rest) (scan : frame.scan? = some id) :
    ∀ t, .running id ∉ put stack thread rest t := by
  have split : scans (stack thread) = id :: scans rest := by
    rw [top, scans, List.filterMap_cons, scan]
    rfl
  have once := stacked.once thread
  rw [split, List.nodup_cons] at once
  apply put_cases fun _ new => .running id ∉ new
  · exact fun below => once.1 (mem_scans_of_running below)
  · intro t different elsewhere
    have here : id ∈ scans (stack thread) := split ▸ List.mem_cons_self
    exact different (stacked.apart t thread id (mem_scans_of_running elsewhere) here)

theorem Stacked.not_handling (stacked : Stacked issued stack) {frame : Frame}
    (top : stack thread = frame :: rest) (scan : frame.scan? = some id) :
    .handling id ∉ rest := by
  intro below
  have nested := stacked.nested thread
  rw [top] at nested
  have gone := stacked.not_running top scan thread
  rw [put_self] at gone
  exact gone (nested.tail.running_of_handling below)

/-! ## The table -/

theorem Tracks.of_same {slot : Option ScanSlot} (tracks : Tracks stack id slot)
    (running : .running id ∈ frames ↔ .running id ∈ stack thread)
    (handling : .handling id ∈ frames ↔ .handling id ∈ stack thread) :
    Tracks (put stack thread frames) id slot := by
  have same : ∀ t, (.running id ∈ put stack thread frames t ↔ .running id ∈ stack t) ∧
      (.handling id ∈ put stack thread frames t ↔ .handling id ∈ stack t) :=
    put_cases (fun t new => (.running id ∈ new ↔ .running id ∈ stack t) ∧
      (.handling id ∈ new ↔ .handling id ∈ stack t)) ⟨running, handling⟩
      fun _ _ => ⟨Iff.rfl, Iff.rfl⟩
  cases slot with
  | none => exact fun t => mt (same t).1.mp (tracks t)
  | some slot =>
      exact ⟨fun t => (same t).1.trans (tracks.1 t), tracks.2.trans (same slot.thread).2.symm⟩

theorem Tracks.of_call {slot changed : ScanSlot} (tracks : Tracks stack id (some slot))
    (own : slot.thread = thread) (same : changed.thread = slot.thread)
    (running : .running id ∈ frames ↔ .running id ∈ stack thread)
    (busy : changed.busy = true ↔ .handling id ∈ frames) :
    Tracks (put stack thread frames) id (some changed) := by
  constructor
  · intro t
    rw [same, ← tracks.1 t]
    revert t
    apply put_cases fun t new => .running id ∈ new ↔ .running id ∈ stack t
    · exact running
    · exact fun _ _ => Iff.rfl
  · rw [same, own, put_self]
    exact busy

/-! ## One step -/

variable {s : Threads}

theorem Numbered.fresh {next : Nat} {issued : List Nat} (numbered : Numbered next issued)
    (few : issued.length + 1 < idLimit) : next = issued.length + 1 ∧ next ∉ issued := by
  have small : next = issued.length + 1 := by rw [numbered.next_eq, Nat.mod_eq_of_lt few]
  refine ⟨small, ?_⟩
  rw [numbered.mem_iff, small]
  omega

theorem Numbered.issue {next : Nat} {issued : List Nat} (numbered : Numbered next issued)
    (few : issued.length + 1 < idLimit) : Numbered ((next + 1) % idLimit) (next :: issued) := by
  obtain ⟨small, fresh⟩ := numbered.fresh few
  constructor
  case next_eq => rw [small, List.length_cons]
  case mem_iff =>
    intro id
    rw [List.mem_cons, numbered.mem_iff, small, List.length_cons]
    omega
  case nodup => exact List.nodup_cons.mpr ⟨fresh, numbered.nodup⟩

theorem Sound.issue (sound : Sound s) (few : s.issued.length + 1 < idLimit) (thread : ThreadId) :
    Sound ({ s with
      table := s.table.issue.2
      issued := s.table.next :: s.issued }.setStack thread
        (.entering s.table.next :: s.stack thread)) := by
  constructor
  case numbered => exact sound.numbered.issue few
  case stacked => exact sound.stacked.enter (sound.numbered.fresh few).2
  case tracked =>
    intro id
    exact (sound.tracked id).of_same (by simp) (by simp)
  case distinct => exact sound.distinct

theorem Sound.insert (sound : Sound s) (top : s.stack thread = .entering id :: rest) :
    Sound ({ s with table := s.table.insert thread id }.setStack thread (.running id :: rest)) := by
  have gone := sound.stacked.not_running top rfl
  have quiet := sound.stacked.not_handling top rfl
  have single := sound.stacked.single thread
  have nested := sound.stacked.nested thread
  rw [top] at single nested
  constructor
  case numbered => exact sound.numbered
  case stacked => exact sound.stacked.of_fewer (top ▸ List.Sublist.refl _) single nested
  case tracked =>
    intro other
    show Tracks (put s.stack thread (.running id :: rest)) other
      ((s.table.insert thread id).slot? other)
    rw [ScanTable.slot?_insert]
    split
    case isTrue same =>
      subst same
      constructor
      · apply put_cases fun t new => .running other ∈ new ↔ t = thread
        · exact ⟨fun _ => rfl, fun _ => List.mem_cons_self⟩
        · intro t different
          have elsewhere := gone t
          rw [put_of_ne different] at elsewhere
          exact ⟨fun member => absurd member elsewhere, fun same => absurd same different⟩
      · rw [put_self]
        simp [quiet]
    case isFalse different =>
      refine (sound.tracked other).of_same ?_ ?_
      · rw [top]; simp [different]
      · rw [top]; simp
  case distinct => exact ScanTable.nodup_ids_insert sound.distinct thread id

theorem Sound.report (sound : Sound s) {table : ScanTable}
    (allowed : s.table.enter thread id = .ok table) :
    Sound ({ s with table := table }.setStack thread (.handling id :: s.stack thread)) := by
  obtain ⟨slot, found, own, idle, rfl⟩ := ScanTable.enter_eq_ok_iff.mp allowed
  have tracks := sound.tracked id
  rw [found] at tracks
  have busy := tracks.2
  rw [idle, own] at busy
  have uncalled : .handling id ∉ s.stack thread := fun member => by simpa using busy.mpr member
  constructor
  case numbered => exact sound.numbered
  case stacked =>
    have fewer : (scans (.handling id :: s.stack thread)).Sublist (scans (s.stack thread)) :=
      List.Sublist.refl _
    apply sound.stacked.of_fewer fewer
    · exact List.nodup_cons.mpr ⟨mt mem_calls_iff.mp uncalled, sound.stacked.single thread⟩
    · exact ⟨(tracks.1 thread).mpr own.symm, sound.stacked.nested thread⟩
  case tracked =>
    intro other
    show Tracks (put s.stack thread (.handling id :: s.stack thread)) other
      ((s.table.update id fun slot => { slot with busy := true }).slot? other)
    rw [ScanTable.slot?_update]
    split
    case isTrue same =>
      subst same
      rw [found]
      exact tracks.of_call own rfl (by simp) (by simp)
    case isFalse different =>
      exact (sound.tracked other).of_same (by simp) (by simp [different])
  case distinct => exact ScanTable.nodup_ids_update sound.distinct id _

theorem Sound.slot_of_handling (sound : Sound s) (member : .handling id ∈ s.stack thread) :
    ∃ slot, s.table.slot? id = some slot ∧ slot.thread = thread ∧ slot.busy = true := by
  have running := (sound.stacked.nested thread).running_of_handling member
  have tracks := sound.tracked id
  cases found : s.table.slot? id with
  | none =>
      rw [found] at tracks
      exact absurd running (tracks thread)
  | some slot =>
      rw [found] at tracks
      have own : thread = slot.thread := (tracks.1 thread).mp running
      subst own
      exact ⟨slot, rfl, rfl, tracks.2.mpr member⟩

theorem Sound.settle (sound : Sound s) (top : s.stack thread = .handling id :: rest)
    (reply : Reply) :
    Sound ({ s with table := (s.table.settle id reply).2 }.setStack thread rest) := by
  obtain ⟨slot, found, own, _⟩ := sound.slot_of_handling (top ▸ List.mem_cons_self)
  have settled := ScanTable.settle_of_slot found reply
  have single := sound.stacked.single thread
  have nested := sound.stacked.nested thread
  rw [top] at single nested
  obtain ⟨last, single⟩ := List.nodup_cons.mp single
  have uncalled : .handling id ∉ rest := mt mem_calls_iff.mpr last
  have tracks := sound.tracked id
  rw [found] at tracks
  rw [settled]
  constructor
  case numbered => exact sound.numbered
  case stacked => exact sound.stacked.of_fewer (top ▸ List.Sublist.refl _) single nested.2
  case tracked =>
    intro other
    show Tracks (put s.stack thread rest) other
      ((s.table.update id fun slot => ScanTable.settled slot reply).slot? other)
    rw [ScanTable.slot?_update]
    split
    case isTrue same =>
      subst same
      rw [found]
      refine tracks.of_call own (ScanTable.settled_thread slot reply) ?_ ?_
      · rw [top]
        simp
      · simp [uncalled]
    case isFalse different =>
      refine (sound.tracked other).of_same ?_ ?_
      · rw [top]
        simp
      · rw [top]
        simp [different]
  case distinct => exact ScanTable.nodup_ids_update sound.distinct id _

/-- A scan is taken out of the table; its frame goes away, or only waits to be dropped. -/
theorem Sound.remove (sound : Sound s) {frame : Frame} (top : s.stack thread = frame :: rest)
    (scan : frame.scan? = some id) (left : frames = rest ∨ frames = .leaving id :: rest) :
    Sound ({ s with table := (s.table.finish id).2 }.setStack thread frames) := by
  have gone := sound.stacked.not_running top scan
  have quiet := sound.stacked.not_handling top scan
  have single := sound.stacked.single thread
  have nested := sound.stacked.nested thread
  have whole : scans (s.stack thread) = id :: scans rest := by
    rw [top, scans, List.filterMap_cons, scan]
    rfl
  have running (other : ScanId) : .running other ∈ frames ↔ .running other ∈ rest := by
    rcases left with rfl | rfl <;> simp
  have handling (other : ScanId) : .handling other ∈ frames ↔ .handling other ∈ rest := by
    rcases left with rfl | rfl <;> simp
  rw [top] at single nested
  have below := single.sublist ((List.sublist_cons_self frame rest).filterMap _)
  constructor
  case numbered => exact sound.numbered
  case stacked =>
    rcases left with rfl | rfl
    · exact sound.stacked.of_fewer (whole ▸ List.sublist_cons_self _ _) below nested.tail
    · exact sound.stacked.of_fewer (whole ▸ List.Sublist.refl _) below nested.tail
  case tracked =>
    intro other
    show Tracks (put s.stack thread frames) other ((s.table.finish id).2.slot? other)
    rw [ScanTable.slot?_finish]
    split
    case isTrue same =>
      subst same
      apply put_cases fun _ new => .running other ∉ new
      · rw [running]
        have here := gone thread
        rwa [put_self] at here
      · intro t different
        have elsewhere := gone t
        rwa [put_of_ne different] at elsewhere
    case isFalse different =>
      have another : frame ≠ .running other ∧ frame ≠ .handling other := by
        constructor
        · rintro rfl
          exact different (Option.some.inj scan)
        · rintro rfl
          cases scan
      refine (sound.tracked other).of_same ?_ ?_
      · rw [top, running]
        simp [Ne.symm another.1]
      · rw [top, handling]
        simp [Ne.symm another.2]
  case distinct => exact ScanTable.nodup_ids_finish sound.distinct id

inductive Takes (s : Threads) : Action → Threads → Outcome → Prop where
  | issue {thread : ThreadId} :
      Takes s (.issue thread)
        ({ s with
          table := s.table.issue.2
          issued := s.table.next :: s.issued }.setStack thread
            (.entering s.table.next :: s.stack thread)) .done
  | insert {thread : ThreadId} {id : ScanId} {rest : List Frame}
      (top : s.stack thread = .entering id :: rest) :
      Takes s (.insert thread)
        ({ s with table := s.table.insert thread id }.setStack thread (.running id :: rest)) .done
  | refuse {thread : ThreadId} {id : ScanId} : Takes s (.report thread id) s (.refused .fail)
  | call {thread : ThreadId} {id : ScanId} {table : ScanTable}
      (allowed : s.table.enter thread id = .ok table) :
      Takes s (.report thread id)
        ({ s with table := table }.setStack thread (.handling id :: s.stack thread)) .called
  | settle {thread : ThreadId} {id : ScanId} {rest : List Frame} {reply : Reply}
      (top : s.stack thread = .handling id :: rest) :
      Takes s (.settle thread reply)
        ({ s with table := (s.table.settle id reply).2 }.setStack thread rest)
        (.settled (s.table.settle id reply).1)
  | finish {thread : ThreadId} {id : ScanId} {rest : List Frame}
      (top : s.stack thread = .running id :: rest) :
      Takes s (.finish thread)
        ({ s with table := (s.table.finish id).2 }.setStack thread (.leaving id :: rest)) .done
  | drop {thread : ThreadId} {id : ScanId} {frame : Frame} {rest : List Frame}
      (top : s.stack thread = frame :: rest) (scan : frame.scan? = some id) :
      Takes s (.drop thread)
        ({ s with table := (s.table.finish id).2 }.setStack thread rest) .done

theorem takes_of_step {action : Action} {after : Threads} {outcome : Outcome}
    (stepped : s.step action = some (after, outcome)) : Takes s action after outcome := by
  cases action with
  | issue thread =>
      simp only [step] at stepped
      split at stepped
      · cases stepped
      · cases stepped
        exact .issue
  | insert thread =>
      simp only [step] at stepped
      split at stepped
      case h_1 top =>
        cases stepped
        exact .insert top
      case h_2 => cases stepped
  | report thread id =>
      simp only [step] at stepped
      split at stepped
      · cases stepped
      · split at stepped
        case h_1 =>
          cases stepped
          exact .refuse
        case h_2 allowed =>
          cases stepped
          exact .call allowed
  | settle thread reply =>
      simp only [step] at stepped
      split at stepped
      case h_1 top =>
        cases stepped
        exact .settle top
      case h_2 => cases stepped
  | finish thread =>
      simp only [step] at stepped
      split at stepped
      case h_1 top =>
        cases stepped
        exact .finish top
      case h_2 => cases stepped
  | drop thread =>
      simp only [step] at stepped
      split at stepped
      case h_1 top =>
        cases stepped
        exact .drop top rfl
      case h_2 top =>
        cases stepped
        exact .drop top rfl
      case h_3 => cases stepped

theorem Takes.issued_le {action : Action} {after : Threads} {outcome : Outcome}
    (takes : Takes s action after outcome) : s.issued.length ≤ after.issued.length := by
  cases takes with
  | issue => exact Nat.le_succ _
  | insert => exact Nat.le_refl _
  | refuse => exact Nat.le_refl _
  | call => exact Nat.le_refl _
  | settle => exact Nat.le_refl _
  | finish => exact Nat.le_refl _
  | drop => exact Nat.le_refl _

theorem Sound.step (sound : Sound s) {action : Action} {after : Threads} {outcome : Outcome}
    (takes : Takes s action after outcome) (few : after.issued.length < idLimit) : Sound after := by
  cases takes with
  | issue => exact sound.issue few _
  | insert top => exact sound.insert top
  | refuse => exact sound
  | call allowed => exact sound.report allowed
  | settle top => exact sound.settle top _
  | finish top => exact sound.remove top rfl (.inr rfl)
  | drop top scan => exact sound.remove top scan (.inl rfl)

/-! ## All steps -/

theorem sound_start : Sound {} where
  numbered := by
    constructor
    case next_eq => rfl
    case mem_iff =>
      intro id
      constructor
      · exact fun member => absurd member List.not_mem_nil
      · exact fun ⟨low, high⟩ => absurd (Nat.le_trans low high) (by decide)
    case nodup => exact List.nodup_nil
  stacked := by
    constructor
    case known => exact fun _ _ member => absurd member List.not_mem_nil
    case apart => exact fun _ _ _ member => absurd member List.not_mem_nil
    case once => exact fun _ => List.nodup_nil
    case single => exact fun _ => List.nodup_nil
    case nested => exact fun _ => trivial
  tracked _ := fun _ => List.not_mem_nil
  distinct := List.nodup_nil

theorem exec_issued_le (actions : List Action) {s after : Threads}
    (ran : s.exec actions = some after) : s.issued.length ≤ after.issued.length := by
  induction actions generalizing s with
  | nil =>
      cases ran
      exact Nat.le_refl _
  | cons action rest ih =>
      rw [exec] at ran
      split at ran
      case h_1 next outcome stepped =>
        exact Nat.le_trans (takes_of_step stepped).issued_le (ih ran)
      case h_2 => cases ran

theorem Sound.exec (actions : List Action) {s after : Threads} (sound : Sound s)
    (ran : s.exec actions = some after) (few : after.issued.length < idLimit) : Sound after := by
  induction actions generalizing s with
  | nil =>
      cases ran
      exact sound
  | cons action rest ih =>
      rw [Threads.exec] at ran
      split at ran
      case h_1 next outcome stepped =>
        have fewer := Nat.lt_of_le_of_lt (exec_issued_le rest ran) few
        exact ih (sound.step (takes_of_step stepped) fewer) ran
      case h_2 => cases ran

/-! ## What the table says -/

theorem Sound.running_iff (sound : Sound s) :
    .running id ∈ s.stack thread ↔
      ∃ slot, s.table.slot? id = some slot ∧ slot.thread = thread := by
  have tracks := sound.tracked id
  cases found : s.table.slot? id with
  | none =>
      rw [found] at tracks
      simp [tracks thread]
  | some slot =>
      rw [found] at tracks
      rw [tracks.1 thread]
      simp [eq_comm]

theorem Sound.busy_iff (sound : Sound s) {slot : ScanSlot}
    (found : s.table.slot? id = some slot) :
    slot.busy = true ↔ .handling id ∈ s.stack slot.thread := by
  have tracks := sound.tracked id
  rw [found] at tracks
  exact tracks.2

/-- A report gets through exactly to an idle scan of its thread. -/
theorem Sound.enter_iff (sound : Sound s) :
    (∃ table, s.table.enter thread id = .ok table) ↔
      .running id ∈ s.stack thread ∧ .handling id ∉ s.stack thread := by
  rw [sound.running_iff]
  constructor
  · rintro ⟨table, allowed⟩
    obtain ⟨slot, found, rfl, idle, _⟩ := ScanTable.enter_eq_ok_iff.mp allowed
    refine ⟨⟨slot, found, rfl⟩, ?_⟩
    rw [← sound.busy_iff found, idle]
    decide
  · rintro ⟨⟨slot, found, rfl⟩, uncalled⟩
    rw [← sound.busy_iff found, Bool.not_eq_true] at uncalled
    exact ⟨_, ScanTable.enter_eq_ok_iff.mpr ⟨slot, found, rfl, uncalled, rfl⟩⟩

/-- The state of the threads after any steps in any order, while there are numbers to hand out. -/
theorem table_of_threads (actions : List Action) {s : Threads}
    (reached : ({} : Threads).exec actions = some s) (few : s.issued.length < idLimit) :
    (∀ id, id ∈ s.table.ids ↔ ∃ thread, .running id ∈ s.stack thread) ∧
    s.table.ids.Nodup ∧ s.issued.Nodup ∧
    (∀ id slot, s.table.slot? id = some slot →
      (slot.busy = true ↔ ∃ thread, .handling id ∈ s.stack thread)) ∧
    (∀ id thread, .handling id ∈ s.stack thread →
      .running id ∈ s.stack thread ∧
      ∃ slot, s.table.slot? id = some slot ∧ slot.thread = thread) ∧
    (∀ thread, (calls (s.stack thread)).Nodup) ∧
    (∀ id thread, midway (s.stack thread) = false →
      (.running id ∉ s.stack thread ∨ .handling id ∈ s.stack thread →
        s.step (.report thread id) = some (s, .refused .fail)) ∧
      (.running id ∈ s.stack thread → .handling id ∉ s.stack thread →
        ∃ after, s.step (.report thread id) = some (after, .called) ∧
          after.stack thread = .handling id :: s.stack thread)) ∧
    (∀ id thread rest reply, s.stack thread = .handling id :: rest →
      (∃ slot, s.table.slot? id = some slot) ∧
      ∃ after, s.step (.settle thread reply) =
        some (after, .settled (.status (ScanTable.answer reply)))) ∧
    ((∀ id thread, .running id ∉ s.stack thread) → s.table.slots = []) := by
  -- The invariant of all runs: the parts are what it says about the state that was reached.
  have sound := sound_start.exec actions reached few
  refine ⟨?keys, sound.distinct, sound.numbered.nodup, ?busy, ?own, sound.stacked.single,
    ?reports, ?ends, ?empty⟩
  case keys =>
    intro id
    rw [ScanTable.mem_ids_iff, Option.isSome_iff_exists]
    constructor
    · rintro ⟨slot, found⟩
      exact ⟨slot.thread, sound.running_iff.mpr ⟨slot, found, rfl⟩⟩
    · rintro ⟨thread, running⟩
      obtain ⟨slot, found, _⟩ := sound.running_iff.mp running
      exact ⟨slot, found⟩
  case busy =>
    intro id slot found
    rw [sound.busy_iff found]
    constructor
    · exact fun handling => ⟨slot.thread, handling⟩
    · rintro ⟨thread, handling⟩
      obtain ⟨other, there, own, _⟩ := sound.slot_of_handling handling
      rw [found, Option.some.injEq] at there
      rw [there, own]
      exact handling
  case own =>
    intro id thread handling
    have running := (sound.stacked.nested thread).running_of_handling handling
    exact ⟨running, sound.running_iff.mp running⟩
  case reports =>
    intro id thread free
    constructor
    · intro closed
      have refused : ¬∃ table, s.table.enter thread id = .ok table := by
        rw [sound.enter_iff]
        rintro ⟨running, uncalled⟩
        rcases closed with absent | called
        · exact absent running
        · exact uncalled called
      cases entered : s.table.enter thread id with
      | ok table => exact absurd ⟨table, entered⟩ refused
      | error refusal => simp only [step, free, entered, Bool.false_eq_true, if_false]
    · intro running uncalled
      obtain ⟨table, entered⟩ := sound.enter_iff.mpr ⟨running, uncalled⟩
      refine ⟨{ s with table := table }.setStack thread (.handling id :: s.stack thread), ?_,
        put_self⟩
      simp only [step, free, entered, Bool.false_eq_true, if_false]
  case ends =>
    intro id thread rest reply top
    obtain ⟨slot, found, _⟩ := sound.slot_of_handling (top ▸ List.mem_cons_self)
    let table := s.table.update id fun slot => ScanTable.settled slot reply
    refine ⟨⟨slot, found⟩, { s with table := table }.setStack thread rest, ?_⟩
    simp only [step, top, ScanTable.settle_of_slot found, table]
  case empty =>
    intro idle
    cases slots : s.table.slots with
    | nil => rfl
    | cons entry others =>
        have key : entry.1 ∈ s.table.ids := by simp [ScanTable.ids, slots]
        rw [ScanTable.mem_ids_iff, Option.isSome_iff_exists] at key
        obtain ⟨slot, found⟩ := key
        exact absurd (sound.running_iff.mpr ⟨slot, found, rfl⟩) (idle entry.1 slot.thread)

theorem table_of_threads_nested :
    let inner : List Action := [.issue 1, .insert 1, .issue 2, .insert 2, .report 1 1, .issue 1,
      .insert 1, .report 1 3, .report 2 3]
    let outer : List Action := [.settle 1 (.panic "inner"), .finish 1, .drop 1,
      .settle 1 (.panic "outer"), .report 2 2, .settle 2 (.verdict .abort), .drop 2, .finish 1,
      .drop 1]
    (∃ s, ({} : Threads).exec inner = some s ∧
      s.step (.report 1 1) = some (s, .refused .fail) ∧
      s.step (.report 2 3) = some (s, .refused .fail) ∧
      ∃ after, s.step (.settle 1 (.panic "inner")) = some (after, .settled (.status .fail))) ∧
    ∃ s, ({} : Threads).exec (inner ++ outer) = some s ∧ s.table.slots = [] := by
  intro inner outer
  constructor
  · obtain ⟨_, _, _, _, _, _, reports, ends, _⟩ :=
      table_of_threads inner (rfl : _ = some _) (by decide)
    refine ⟨_, rfl, (reports 1 1 (by decide)).1 (.inr (by decide)),
      (reports 3 2 (by decide)).1 (.inl (by decide)), ?_⟩
    exact (ends 3 1 [.running 3, .handling 1, .running 1] (.panic "inner") rfl).2
  · obtain ⟨_, _, _, _, _, _, _, _, empty⟩ :=
      table_of_threads (inner ++ outer) (rfl : _ = some _) (by decide)
    refine ⟨_, rfl, empty ?_⟩
    intro id thread
    by_cases first : thread = 1
    · subst first
      exact List.not_mem_nil
    · by_cases second : thread = 2
      · subst second
        exact List.not_mem_nil
      · simp [setStack, put, first, second]

end Threads

end Needle
