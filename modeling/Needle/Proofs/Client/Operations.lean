import Needle.Proofs.Engine.Holders
import Needle.Proofs.Scan.Call

/-!
# Operations and the holders of engines

Each function of the library keeps account of who holds an engine: what it hands out holds the
engine it came from, and what it takes back no longer does, whether it succeeds or fails.
-/
set_option autoImplicit false

namespace Needle

open Host

variable {h : Host} {owners : List Nat} {keys left : List (Nat × Resource)}

/-! ## Owners -/

namespace Owner

def began (faults : Faults) (holders : Nat) : EngineSlot :=
  { engine := (Engine.fresh faults).start.2, holders := holders }

theorem start_eq (faults : Faults) (h : Host) : ∃ after,
    if faults.start = Code.success then
      Owner.start faults h = (.ok ⟨h.engines.length⟩, after) ∧
        after.engines = h.engines ++ [began faults 1]
    else
      Owner.start faults h = (.error (.startup faults.start), after) ∧
        after.engines = h.engines ++ [began faults 0] := by
  let fresh : EngineSlot := { engine := .fresh faults }
  have here : (h.engines ++ [fresh])[h.engines.length]? = some fresh := List.getElem?_concat_length
  have last (first second : EngineSlot) :
      (h.engines ++ [first]).set h.engines.length second = h.engines ++ [second] := by
    rw [List.set_append_right _ _ (Nat.le_refl _), Nat.sub_self]
    rfl
  obtain ⟨answer, started⟩ := changes_call
    (h := { h with engines := h.engines ++ [({ engine := .fresh faults } : EngineSlot)] })
    here Engine.start
  have code := answer.trans (show _ = faults.start from rfl)
  unfold Owner.start
  dsimp only
  rw [code]
  split
  case isTrue =>
    have held := changes_setSlot started.found fun s => { s with holders := s.holders + 1 }
    refine ⟨_, rfl, ?_⟩
    exact (started.trans held).2.trans (last _ _)
  case isFalse =>
    refine ⟨_, rfl, ?_⟩
    exact started.2.trans (last _ _)

theorem attended_start (attended : h.Attended owners keys) (start stop scans : Code) :
    let answer := Owner.start { start := start, stop := stop, scans := scans } h
    (∃ r after, answer = (.ok r, after) ∧ after.Attended (r.slot :: owners) keys) ∨
      ∃ e after, answer = (.error e, after) ∧ after.Attended owners keys := by
  have keeps := Engine.keeps_started start stop scans
  have unheld := attended.unheld
  obtain ⟨after, begun⟩ := start_eq { start := start, stop := stop, scans := scans } h
  split at begun
  case isTrue started =>
    refine .inl ⟨_, after, begun.1, ?_⟩
    refine attended.append begun.2 ⟨start, ?_⟩ fun j other => List.count_cons_of_ne (Ne.symm other)
    rw [List.count_cons_self, unheld]
    constructor
    case engine => exact keeps
    case holders => rfl
    case single => exact Nat.le_refl _
    case stopped => simp [began]
    case unstarted => exact fun failed => absurd started failed
  case isFalse failed =>
    refine .inr ⟨_, after, begun.1, ?_⟩
    refine attended.append begun.2 ⟨start, ?_⟩ fun _ _ => rfl
    rw [unheld]
    constructor
    case engine => exact keeps
    case holders => rfl
    case single => exact Nat.zero_le _
    case stopped => exact iff_of_false Bool.false_ne_true fun both => failed both.1
    case unstarted => exact fun _ => rfl

theorem attended_drop (r : Owner) (attended : h.Attended (r.slot :: owners) keys) :
    (r.drop h).Attended owners keys := by
  obtain ⟨slot, start, busy⟩ := attended.of_owner List.mem_cons_self
  exact attended.leave busy (changes_release busy.found)

theorem changes_finalize {slot : EngineSlot} (r : Owner) (found : h.engines[r.slot]? = some slot) :
    h.Changes r.slot slot slot.letGo (r.finalize h).2 := by
  unfold Owner.finalize
  rw [slot_of_found found]
  split
  case isTrue last =>
    have stopped := changes_stop found
    have gone := stopped.trans (changes_setSlot stopped.found fun s => { s with holders := 0 })
    have same : ({ slot.halt with holders := 0 } : EngineSlot) = slot.letGo := by
      unfold EngineSlot.letGo EngineSlot.halt
      rw [last]
      dsimp only
      split <;> rfl
    exact same ▸ gone
  case isFalse => exact changes_release found

theorem attended_finalize (r : Owner) (attended : h.Attended (r.slot :: owners) keys) :
    (r.finalize h).2.Attended owners keys := by
  obtain ⟨slot, start, busy⟩ := attended.of_owner List.mem_cons_self
  exact attended.leave busy (r.changes_finalize busy.found)

theorem stop_result (h : Host) (i : Nat) :
    (h.stop i).1 = .ok () ∨ ∃ code, (h.stop i).1 = .error (.engine code) := by
  unfold Host.stop
  split
  case isTrue => exact .inl rfl
  case isFalse =>
    dsimp only
    unfold Code.check
    split
    case h_1 => exact .inl rfl
    case h_2 cause refused =>
      split at refused
      · cases refused
      · cases refused
        exact .inr ⟨_, rfl⟩

/-- An owner counts what else holds the engine; to finalize is refused where there is anything. -/
theorem live_of_attended (r : Owner) (attended : h.Attended owners keys)
    (member : r.slot ∈ owners) :
    r.liveResources h = (heldOf r.slot keys).length ∧
      ∀ live, (r.finalize h).1 = .error (.resourcesOutstanding live) ↔
        live = (heldOf r.slot keys).length ∧ 0 < live := by
  obtain ⟨slot, start, busy⟩ := attended.of_owner member
  have holders := busy.tended.holders
  have single := busy.tended.single
  have counted := List.count_pos_iff.mpr member
  have count : r.liveResources h = (heldOf r.slot keys).length := by
    unfold liveResources
    rw [slot_of_found busy.found]
    omega
  refine ⟨count, fun live => ?_⟩
  unfold finalize
  rw [slot_of_found busy.found]
  split
  case isTrue last =>
    apply iff_of_false
    · rcases stop_result h r.slot with ended | ⟨code, ended⟩
      · simp [ended]
      · simp [ended]
    · omega
  case isFalse more =>
    simp only [count, Except.error.injEq, Error.resourcesOutstanding.injEq]
    omega

end Owner

/-! ## Compilers -/

namespace Compiler

theorem attended_create (r : Owner) (attended : h.Attended owners keys) (member : r.slot ∈ owners) :
    ∃ c after, create r h = (.ok c, after) ∧ after.Attended owners (c.key :: keys) := by
  obtain ⟨slot, start, busy⟩ := attended.of_owner member
  obtain ⟨answer, changes⟩ := changes_call busy.found Engine.createCompiler
  obtain ⟨handle, made, keeps⟩ := busy.keeps.createCompiler
  rw [made] at answer
  unfold create
  generalize h.call r.slot Engine.createCompiler = called at answer changes
  obtain ⟨_, after⟩ := called
  dsimp only at answer changes
  subst answer
  let c : Compiler := { slot := r.slot, handle := handle }
  let noted := after.note .compilerCreated
  refine ⟨c, noted.hold r.slot, rfl, ?_⟩
  have found : noted.engines[r.slot]? = _ := changes.found
  have held := changes_setSlot found fun s => { s with holders := s.holders + 1 }
  exact attended.make c.key busy keeps (Changes.trans changes held)

theorem absorb_kept (c : Compiler) (ns : String) (errors : Nat) (ds : List Diagnostic) (h : Host) :
    (c.absorb ns errors ds h).2.1.key = c.key ∧
      (c.absorb ns errors ds h).2.2.engines = h.engines := by
  have noted (ds : List Diagnostic) (h : Host) :
      (ds.foldl (fun h d => h.note (.compileWarning d)) h).engines = h.engines := by
    induction ds generalizing h with
    | nil => rfl
    | cons d rest ih => exact ih (h.note (.compileWarning d))
  unfold absorb
  dsimp only
  split
  · exact ⟨rfl, noted _ h⟩
  · exact ⟨rfl, noted _ h⟩

/-- An addition leaves the compiler with its engine. -/
def Stays (c : Compiler) (owners : List Nat) (keys : List (Nat × Resource))
    (answer : Except Error Unit × Compiler × Host) : Prop :=
  answer.2.1.key = c.key ∧ answer.2.2.Attended owners keys

theorem stays_absorb (c : Compiler) (attended : h.Attended owners keys) {slot : EngineSlot}
    {start : Code} (busy : Attended.Busy h owners keys c.slot slot start) (n : Note) (ns : String)
    (ask : Engine → (Nat × List Diagnostic) × Engine)
    (keeps : (ask slot.engine).2.Keeps start (heldOf c.slot keys) false) :
    let asked := (h.note n).call c.slot ask
    c.Stays owners keys (c.absorb ns asked.1.1 asked.1.2 asked.2) := by
  intro asked
  obtain ⟨_, changes⟩ := changes_call (h := h.note n) busy.found ask
  obtain ⟨key, engines⟩ := c.absorb_kept ns asked.1.1 asked.1.2 asked.2
  exact ⟨key, (attended.use busy keeps changes).congr engines⟩

theorem attended_addText (c : Compiler) (attended : h.Attended owners keys) (member : c.key ∈ keys)
    (ns text : String) : c.Stays owners keys (c.addText ns text h) := by
  obtain ⟨slot, start, busy⟩ := attended.of_key member
  unfold addText
  split
  case h_1 => exact ⟨rfl, attended⟩
  case h_2 => exact ⟨rfl, attended⟩
  case h_3 =>
    have keeps := busy.keeps.addText (mem_heldOf member) ns text
    exact c.stays_absorb attended busy _ ns (fun e => e.addText c.handle ns text) keeps

theorem attended_addFile (c : Compiler) (attended : h.Attended owners keys) (member : c.key ∈ keys)
    (ns : String) (path : Path) : c.Stays owners keys (c.addFile ns path h) := by
  obtain ⟨slot, start, busy⟩ := attended.of_key member
  unfold addFile
  split
  case h_1 => exact ⟨rfl, attended⟩
  case h_2 => exact ⟨rfl, attended⟩
  case h_3 => exact ⟨rfl, attended⟩
  case h_4 content _ _ _ =>
    have keeps := busy.keeps.addFile (mem_heldOf member) ns path (FileTree.textOf content)
    exact c.stays_absorb attended busy _ ns (fun e => e.addFile c.handle ns path _) keeps

theorem attended_addFiles (c : Compiler) (attended : h.Attended owners keys) (member : c.key ∈ keys)
    (ns : String) (paths : List Path) : c.Stays owners keys (c.addFiles ns h paths) := by
  induction paths generalizing c h with
  | nil => exact ⟨rfl, attended⟩
  | cons path rest ih =>
      have first := c.attended_addFile attended member ns path
      unfold addFiles
      generalize c.addFile ns path h = answer at first
      obtain ⟨_ | _, next, after⟩ := answer
      · exact first
      · obtain ⟨key, attended⟩ := first
        have later := ih next attended (key.symm ▸ member)
        exact ⟨later.1.trans key, later.2⟩

theorem attended_drop (c : Compiler) (attended : h.Attended owners (c.key :: keys)) :
    (c.drop h).Attended owners keys := by
  obtain ⟨slot, start, busy⟩ := attended.of_key List.mem_cons_self
  have keeps := busy.keeps.destroyCompiler (.of_eq (heldOf_cons_self c.key keys))
  obtain ⟨_, changes⟩ := changes_call busy.found fun e => ((), e.destroyCompiler c.handle)
  exact attended.unmake busy keeps (changes.trans (changes_release changes.found))

end Compiler

/-! ## Rule sets -/

/-- A rule set that was made holds its engine; where there is none, nothing has changed. -/
def Gains (owners : List Nat) (keys : List (Nat × Resource))
    (answer : Except Error RuleSet × Host) : Prop :=
  match answer with
  | (.ok s, after) => after.Attended owners (s.key :: keys)
  | (.error _, after) => after.Attended owners keys

theorem gains_call (attended : h.Attended owners keys) {i : Nat} {slot : EngineSlot} {start : Code}
    (busy : Attended.Busy h owners keys i slot start) (ask : Engine → Except Code Handle × Engine)
    (gives : Engine.Gives start (heldOf i keys) (ask slot.engine)) (error : Code → Error)
    (n : Note) :
    Gains owners keys (match h.call i ask with
      | (.error code, h) => (.error (error code), h)
      | (.ok handle, h) => (.ok ⟨i, handle, {}⟩, (h.note n).hold i)) := by
  obtain ⟨answer, changes⟩ := changes_call busy.found ask
  generalize h.call i ask = called at answer changes
  generalize ask slot.engine = given at answer changes gives
  obtain ⟨result, after⟩ := called
  obtain ⟨_, e⟩ := given
  dsimp only at answer changes
  subst answer
  cases result with
  | error code => exact attended.use busy gives changes
  | ok handle =>
      have noted : (after.note n).engines[i]? = _ := changes.found
      have held := changes_setSlot noted fun s => { s with holders := s.holders + 1 }
      exact attended.make (i, .rules handle) busy gives (Changes.trans changes held)

namespace Compiler

theorem gains_finish (c : Compiler) (attended : h.Attended owners keys) (member : c.key ∈ keys) :
    Gains owners keys (c.finish h) := by
  obtain ⟨slot, start, busy⟩ := attended.of_key member
  unfold finish
  split
  case h_1 => exact attended
  case h_2 =>
    split
    case isTrue => exact attended
    case isFalse =>
      exact gains_call attended busy (fun e => e.getRules c.handle)
        (busy.keeps.getRules (mem_heldOf member)) _ _

theorem gains_rules (c : Compiler) (attended : h.Attended owners (c.key :: keys)) :
    Gains owners keys (c.rules h) := by
  have finished := c.gains_finish attended List.mem_cons_self
  unfold rules
  generalize c.finish h = answer at finished
  obtain ⟨_ | s, after⟩ := answer
  · exact c.attended_drop finished
  · exact c.attended_drop (finished.perm (.refl _) (.swap _ _ _))

end Compiler

namespace RuleSet

theorem engines_makeTemp (h : Host) (content : Bytes) :
    (makeTemp h content).2.engines = h.engines := by
  unfold makeTemp
  dsimp only
  split
  · rfl
  · rfl

theorem engines_dropTemp (h : Host) (path : Path) : (dropTemp h path).engines = h.engines := by
  unfold dropTemp
  split
  · rfl
  · rfl

theorem gains_load (r : Owner) (attended : h.Attended owners keys) (member : r.slot ∈ owners)
    (path : Path) : Gains owners keys (load r path h) := by
  obtain ⟨slot, start, busy⟩ := attended.of_owner member
  unfold load
  split
  case h_1 => exact attended
  case h_2 =>
    split
    case h_1 => exact attended
    case h_2 =>
      exact gains_call attended busy (fun e => e.load h.files path)
        (busy.keeps.load h.files path) _ _

theorem gains_loadBytes (r : Owner) (attended : h.Attended owners keys) (member : r.slot ∈ owners)
    (content : Bytes) : Gains owners keys (loadBytes r content h) := by
  have made := engines_makeTemp h content
  unfold loadBytes
  generalize makeTemp h content = temp at made
  obtain ⟨_ | path, begun⟩ := temp
  · exact attended.congr made
  · have loaded := gains_load r (attended.congr made) member path
    dsimp only
    generalize load r path begun = answer at loaded
    obtain ⟨_ | s, after⟩ := answer
    · exact loaded.congr (engines_dropTemp after path)
    · exact loaded.congr (engines_dropTemp after path)

theorem attended_save (s : RuleSet) (attended : h.Attended owners keys) (member : s.key ∈ keys)
    (path : Path) : (s.save path h).2.Attended owners keys := by
  obtain ⟨slot, start, busy⟩ := attended.of_key member
  have keeps := busy.keeps.save (mem_heldOf member) h.files path
  unfold save
  split
  case h_1 => exact attended
  case h_2 =>
    rw [show h.engine s.slot = slot.engine from engine_of_found busy.found]
    generalize slot.engine.save h.files s.handle path = saved at keeps
    obtain ⟨code, files, e⟩ := saved
    have changes := changes_setSlot (h := { h with files := files }) busy.found fun slot =>
      { slot with engine := e }
    have kept := attended.use busy keeps changes
    dsimp only
    split
    · exact kept
    · exact kept

theorem attended_saveBytes (s : RuleSet) (attended : h.Attended owners keys)
    (member : s.key ∈ keys) : (s.saveBytes h).2.Attended owners keys := by
  have made := engines_makeTemp h []
  unfold saveBytes
  generalize makeTemp h [] = temp at made
  obtain ⟨_ | path, begun⟩ := temp
  · exact attended.congr made
  · have saved := s.attended_save (attended.congr made) member path
    dsimp only
    generalize s.save path begun = answer at saved
    obtain ⟨_ | _, after⟩ := answer
    · exact saved.congr (engines_dropTemp after path)
    · exact saved.congr (engines_dropTemp after path)

/-- The engine gives the rule set up, and lets go of it on a host that has noted something more. -/
theorem attended_call (s : RuleSet) (attended : h.Attended owners (s.key :: keys)) :
    let called := h.call s.slot fun e => e.destroyRules s.handle
    called.1 = Code.success ∧ ∀ after : Host, after.engines = called.2.engines →
      (after.release s.slot).Attended owners keys := by
  obtain ⟨slot, start, busy⟩ := attended.of_key List.mem_cons_self
  obtain ⟨success, keeps⟩ := busy.keeps.destroyRules (.of_eq (heldOf_cons_self s.key keys))
  obtain ⟨answer, changes⟩ := changes_call busy.found fun e => e.destroyRules s.handle
  refine ⟨answer.trans success, fun after same => ?_⟩
  have noted : h.Changes s.slot slot _ after := ⟨changes.1, same.trans changes.2⟩
  exact attended.unmake busy keeps (noted.trans (changes_release noted.found))

theorem attended_destroy (s : RuleSet) (attended : h.Attended owners (s.key :: keys)) :
    (s.destroy h).1 = .ok () ∧ (s.destroy h).2.Attended owners keys := by
  obtain ⟨success, released⟩ := s.attended_call attended
  refine ⟨?_, released _ rfl⟩
  unfold destroy
  dsimp only
  rw [success]
  rfl

theorem attended_drop (s : RuleSet) (attended : h.Attended owners (s.key :: keys)) :
    (s.drop h).Attended owners keys := by
  obtain ⟨_, released⟩ := s.attended_call attended
  unfold drop
  apply released
  dsimp only
  split
  · rfl
  · rfl

end RuleSet

/-! ## Scans -/

namespace ScanCall

theorem attended_ask {S : Type} (r : ScanCall) (attended : h.Attended owners keys)
    (member : r.rules.key ∈ keys) : (r.ask (S := S) h).2.Attended owners keys := by
  obtain ⟨slot, start, busy⟩ := attended.of_key member
  have held := mem_heldOf member
  obtain ⟨rules, target, options⟩ := r
  cases target with
  | buffer data =>
      obtain ⟨_, changes⟩ := changes_call busy.found
        fun e => e.scanBuffer (S := S) rules.handle data options
      exact attended.use busy (busy.keeps.scanBuffer held data options) changes
  | file path =>
      obtain ⟨_, changes⟩ := changes_call busy.found
        fun e => e.scanFile (S := S) h.files rules.handle path options
      exact attended.use busy (busy.keeps.scanFile held h.files path options) changes

end ScanCall

end Needle
