import Needle.Proofs.Client.Operations
import Needle.Proofs.Client.Run
import Needle.Proofs.Engine.History

/-!
# The history of a client's engines

Whatever a client does, an engine that was there before is there later on, after some more calls.
This holds of each function of the library, whether it succeeds or fails, and so of every two
moments of a client.
-/
set_option autoImplicit false

namespace Needle

/-- A later state of a host: each of its engines has taken some calls since. -/
structure Host.Precedes (h later : Host) : Prop where
  count : h.engines.length ≤ later.engines.length
  passes : ∀ i < h.engines.length, ∃ calls, (h.engine i).Passes calls (later.engine i)

namespace Host

variable {h later last : Host} {i : Nat}

theorem precedes_same (same : later.engines = h.engines) : h.Precedes later where
  count := Nat.le_of_eq (congrArg List.length same.symm)
  passes i _ := by
    refine ⟨[], ?_⟩
    unfold Host.engine Host.slot
    rw [same]
    exact .refl _

theorem Precedes.trans (first : h.Precedes later) (second : later.Precedes last) :
    h.Precedes last where
  count := Nat.le_trans first.count second.count
  passes i inside := by
    obtain ⟨calls, before⟩ := first.passes i inside
    obtain ⟨more, after⟩ := second.passes i (Nat.lt_of_lt_of_le inside first.count)
    exact ⟨calls ++ more, before.trans after⟩

theorem Precedes.congr (precedes : h.Precedes later) (same : last.engines = later.engines) :
    h.Precedes last :=
  precedes.trans (precedes_same same)

theorem precedes_setSlot (h : Host) (i : Nat) (change : EngineSlot → EngineSlot)
    (passes : ∃ calls, (h.engine i).Passes calls (change (h.slot i)).engine) :
    h.Precedes (h.setSlot i change) where
  count := Nat.le_of_eq (h.length_setSlot i change).symm
  passes j _ := by
    rw [engine_setSlot]
    split
    case isTrue here => exact here.1 ▸ passes
    case isFalse => exact ⟨[], .refl _⟩

/-- The number of holders and the mark of a stopped engine are not part of its history. -/
theorem precedes_mark (h : Host) (i : Nat) (change : EngineSlot → EngineSlot)
    (same : (change (h.slot i)).engine = h.engine i) : h.Precedes (h.setSlot i change) :=
  h.precedes_setSlot i change ⟨[], same ▸ .refl _⟩

theorem precedes_note (h : Host) (n : Note) : h.Precedes (h.note n) := precedes_same rfl

theorem precedes_call {α : Type} (h : Host) (i : Nat) (f : Engine → α × Engine)
    (passes : ∀ e, ∃ calls, Engine.Passes e calls (f e).2) : h.Precedes (h.call i f).2 :=
  h.precedes_setSlot i _ (passes (h.engine i))

theorem precedes_hold (h : Host) (i : Nat) : h.Precedes (h.hold i) := h.precedes_mark i _ rfl

theorem precedes_stop (h : Host) (i : Nat) : h.Precedes (h.stop i).2 := by
  have called := h.precedes_call i Engine.stop fun e => ⟨_, e.passes_stop⟩
  have marked := called.trans
    ((h.call i Engine.stop).2.precedes_mark i (fun s => { s with stopped := true }) rfl)
  unfold Host.stop
  split
  · exact precedes_same rfl
  · dsimp only
    split
    · exact marked.congr rfl
    · exact marked

theorem precedes_release (h : Host) (i : Nat) : h.Precedes (h.release i) := by
  have fewer := h.precedes_mark i (fun s => { s with holders := s.holders - 1 }) rfl
  have stopped := fewer.trans (precedes_stop _ i)
  unfold Host.release
  dsimp only
  split
  · split
    case h_1 ended => rw [ended] at stopped; exact stopped
    case h_2 ended => rw [ended] at stopped; exact stopped.congr rfl
  · exact fewer

theorem precedes_append (slots : List EngineSlot) (same : later.engines = h.engines ++ slots) :
    h.Precedes later where
  count := by
    rw [same, List.length_append]
    exact Nat.le_add_right _ _
  passes i inside := by
    refine ⟨[], ?_⟩
    unfold Host.engine Host.slot
    rw [same, List.getD_eq_getElem?_getD, List.getD_eq_getElem?_getD,
      List.getElem?_append_left inside]
    exact .refl _

end Host

open Host

/-! ## Each function of the library -/

namespace Owner

theorem precedes_start (faults : Faults) (h : Host) : h.Precedes (Owner.start faults h).2 := by
  obtain ⟨after, begun⟩ := start_eq faults h
  split at begun
  · rw [begun.1]
    exact precedes_append _ begun.2
  · rw [begun.1]
    exact precedes_append _ begun.2

theorem precedes_finalize (r : Owner) (h : Host) : h.Precedes (r.finalize h).2 := by
  unfold finalize
  split
  · exact (h.precedes_stop r.slot).trans (precedes_mark _ r.slot _ rfl)
  · exact h.precedes_release r.slot

end Owner

namespace Compiler

theorem precedes_create (r : Owner) (h : Host) : h.Precedes (create r h).2 := by
  have called := h.precedes_call r.slot Engine.createCompiler fun e =>
    let ⟨_, passes⟩ := e.passes_createCompiler
    ⟨_, passes⟩
  unfold create
  generalize h.call r.slot Engine.createCompiler = made at called
  obtain ⟨_ | handle, after⟩ := made
  · exact called
  · exact (called.trans (after.precedes_note _)).trans (precedes_hold _ r.slot)

theorem precedes_addText (c : Compiler) (ns text : String) (h : Host) :
    h.Precedes (c.addText ns text h).2.2 := by
  unfold addText
  split
  · exact precedes_same rfl
  · exact precedes_same rfl
  · have noted : h.Precedes (h.note (.compilingText ns)) := precedes_same rfl
    have called := noted.trans
      (precedes_call _ c.slot (fun e => e.addText c.handle ns text) fun e =>
        ⟨_, e.passes_addText c.handle ns text⟩)
    exact called.congr (c.absorb_kept ns _ _ _).2

theorem precedes_addFile (c : Compiler) (ns : String) (path : Path) (h : Host) :
    h.Precedes (c.addFile ns path h).2.2 := by
  unfold addFile
  split
  · exact precedes_same rfl
  · exact precedes_same rfl
  · exact precedes_same rfl
  · next content _ _ _ =>
    have called := (h.precedes_note (.compilingFile path ns)).trans
      (precedes_call _ c.slot
        (fun e => e.addFile c.handle ns path (FileTree.textOf content)) fun e =>
          ⟨_, e.passes_addFile c.handle ns path _⟩)
    exact called.congr (c.absorb_kept ns _ _ _).2

theorem precedes_addFiles (c : Compiler) (ns : String) (h : Host) (paths : List Path) :
    h.Precedes (c.addFiles ns h paths).2.2 := by
  induction paths generalizing c h with
  | nil => exact precedes_same rfl
  | cons path rest ih =>
      have first := c.precedes_addFile ns path h
      unfold addFiles
      generalize c.addFile ns path h = answer at first
      obtain ⟨_ | _, next, after⟩ := answer
      · exact first
      · exact first.trans (ih next after)

theorem precedes_drop (c : Compiler) (h : Host) : h.Precedes (c.drop h) := by
  have called := h.precedes_call c.slot (fun e => ((), e.destroyCompiler c.handle)) fun e =>
    ⟨_, e.passes_destroyCompiler c.handle⟩
  exact called.trans (precedes_release _ c.slot)

end Compiler

/-- The engine is asked for a rule set, which holds it. -/
theorem Host.precedes_gain (h : Host) (i : Nat) (ask : Engine → Except Code Handle × Engine)
    (passes : ∀ e, ∃ calls, Engine.Passes e calls (ask e).2) (error : Code → Error) (n : Note) :
    h.Precedes (Prod.snd (match h.call i ask with
      | (.error code, h) => (.error (error code), h)
      | (.ok handle, h) => (.ok (⟨i, handle, {}⟩ : RuleSet), (h.note n).hold i) :
        Except Error RuleSet × Host)) := by
  have called := h.precedes_call i ask passes
  generalize h.call i ask = answer at called
  obtain ⟨_ | handle, after⟩ := answer
  · exact called
  · exact (called.trans (after.precedes_note n)).trans (precedes_hold _ i)

theorem Compiler.precedes_rules (c : Compiler) (h : Host) : h.Precedes (c.rules h).2 := by
  have finished : h.Precedes (c.finish h).2 := by
    unfold finish
    split
    · exact precedes_same rfl
    · split
      · exact precedes_same rfl
      · exact h.precedes_gain c.slot (fun e => e.getRules c.handle)
          (fun e => ⟨_, e.passes_getRules c.handle⟩) _ _
  exact finished.trans (c.precedes_drop _)

namespace RuleSet

theorem precedes_load (r : Owner) (path : Path) (h : Host) : h.Precedes (load r path h).2 := by
  unfold load
  split
  · exact precedes_same rfl
  · split
    · exact precedes_same rfl
    · exact h.precedes_gain r.slot (fun e => e.load h.files path)
        (fun e => ⟨_, e.passes_load h.files path⟩) _ _

theorem precedes_loadBytes (r : Owner) (content : Bytes) (h : Host) :
    h.Precedes (loadBytes r content h).2 := by
  have made : h.Precedes (makeTemp h content).2 := precedes_same (engines_makeTemp h content)
  unfold loadBytes
  generalize makeTemp h content = temp at made
  obtain ⟨_ | path, begun⟩ := temp
  · exact made
  · exact (made.trans (precedes_load r path begun)).congr (engines_dropTemp _ path)

theorem precedes_save (s : RuleSet) (path : Path) (h : Host) : h.Precedes (s.save path h).2 := by
  unfold save
  split
  · exact precedes_same rfl
  · have saved := (h.engine s.slot).passes_save h.files s.handle path
    generalize (h.engine s.slot).save h.files s.handle path = answer at saved
    obtain ⟨code, files, e⟩ := answer
    have filed : h.Precedes { h with files := files } := precedes_same rfl
    have called := filed.trans
      (precedes_setSlot _ s.slot (fun slot => { slot with engine := e }) ⟨_, saved⟩)
    dsimp only
    split
    · exact called
    · exact called.congr rfl

theorem precedes_saveBytes (s : RuleSet) (h : Host) : h.Precedes (s.saveBytes h).2 := by
  have made : h.Precedes (makeTemp h []).2 := precedes_same (engines_makeTemp h [])
  unfold saveBytes
  generalize makeTemp h [] = temp at made
  obtain ⟨_ | path, begun⟩ := temp
  · exact made
  · have saved := made.trans (s.precedes_save path begun)
    dsimp only
    generalize s.save path begun = answer at saved
    obtain ⟨_ | _, after⟩ := answer
    · exact saved.congr (engines_dropTemp after path)
    · exact saved.congr (engines_dropTemp after path)

theorem precedes_destroyRules (s : RuleSet) (h : Host) :
    h.Precedes (h.call s.slot fun e => e.destroyRules s.handle).2 :=
  h.precedes_call s.slot _ fun e => ⟨_, e.passes_destroyRules s.handle⟩

theorem precedes_destroy (s : RuleSet) (h : Host) : h.Precedes (s.destroy h).2 :=
  (s.precedes_destroyRules h).trans (precedes_release _ s.slot)

theorem precedes_drop (s : RuleSet) (h : Host) : h.Precedes (s.drop h) := by
  have called := s.precedes_destroyRules h
  unfold drop
  dsimp only
  split
  · exact called.trans (precedes_release _ s.slot)
  · exact (called.trans (precedes_note _ _)).trans (precedes_release _ s.slot)

end RuleSet

theorem ScanCall.precedes_ask {S : Type} (r : ScanCall) (h : Host) :
    h.Precedes (r.ask (S := S) h).2 := by
  obtain ⟨rules, target, options⟩ := r
  cases target with
  | buffer data =>
      exact h.precedes_call rules.slot _ fun e => ⟨_, e.passes_scanBuffer rules.handle data options⟩
  | file path =>
      exact h.precedes_call rules.slot _ fun e =>
        ⟨_, e.passes_scanFile h.files rules.handle path options⟩

/-! ## Each operation of a client -/

namespace Moment

theorem precedes_withValue {α : Type} {m : Moment} {values : List α} {place : Nat}
    {use : α → Moment} (used : ∀ value, m.host.Precedes (use value).host) :
    m.host.Precedes (m.withValue values place use).host := by
  unfold withValue
  split
  · exact precedes_same rfl
  · exact used _

theorem precedes_produced {m : Moment} (v : Values) {answer : Except Error RuleSet × Host}
    (gains : m.host.Precedes answer.2) :
    m.host.Precedes (produced { v with host := m.host } answer).host := by
  obtain ⟨_ | s, after⟩ := answer
  · exact gains
  · exact gains

theorem precedes_perform (m : Moment) (operation : Operation) :
    m.host.Precedes (m.perform operation).host := by
  cases operation with
  | start start stop scans =>
      have begun := Owner.precedes_start { start := start, stop := stop, scans := scans } m.host
      unfold perform
      dsimp only
      generalize Owner.start _ m.host = answer at begun
      obtain ⟨_ | r, after⟩ := answer
      · exact begun
      · exact begun
  | createCompiler owner strict =>
      refine precedes_withValue fun r => ?_
      have made := Compiler.precedes_create r m.host
      generalize Compiler.create r m.host = answer at made
      obtain ⟨_ | c, after⟩ := answer
      · exact made
      · exact made
  | addText place ns text => exact precedes_withValue fun c => c.precedes_addText ns text m.host
  | addFile place ns path => exact precedes_withValue fun c => c.precedes_addFile ns path m.host
  | addFiles place ns paths => exact precedes_withValue fun c => c.precedes_addFiles ns m.host paths
  | rules place => exact precedes_withValue fun c => precedes_produced _ (c.precedes_rules m.host)
  | dropCompiler place => exact precedes_withValue fun c => c.precedes_drop m.host
  | load owner path =>
      exact precedes_withValue fun r => precedes_produced _ (RuleSet.precedes_load r path m.host)
  | loadBytes owner content =>
      exact precedes_withValue fun r =>
        precedes_produced _ (RuleSet.precedes_loadBytes r content m.host)
  | withOptions place options => exact precedes_withValue fun s => precedes_same rfl
  | save place path => exact precedes_withValue fun s => s.precedes_save path m.host
  | saveBytes place => exact precedes_withValue fun s => s.precedes_saveBytes m.host
  | destroyRules place => exact precedes_withValue fun s => s.precedes_destroy m.host
  | dropRules place => exact precedes_withValue fun s => s.precedes_drop m.host
  | finalize place => exact precedes_withValue fun r => r.precedes_finalize m.host
  | dropOwner place => exact precedes_withValue fun r => m.host.precedes_release r.slot
  | elsewhere files thread => exact precedes_same rfl

end Moment

/-! ## A whole client -/

namespace Client

/-- Each moment is later than those before it, and the present one is later than all. -/
def Follows (state : Moment × List Moment) : Prop :=
  (∀ m ∈ state.2, m.host.Precedes state.1.host) ∧
    state.2.Pairwise fun m later => m.host.Precedes later.host

theorem Follows.later {m : Moment} {past : List Moment} (follows : Follows (m, past))
    {later : Moment} (precedes : m.host.Precedes later.host) : Follows (later, past) :=
  ⟨fun before member => (follows.1 before member).trans precedes, follows.2⟩

theorem follows_invariant : Invariant Follows where
  congr same follows := follows.later (precedes_same same)
  pass := by
    intro m past follows
    constructor
    · intro before member
      rcases List.mem_append.mp member with old | new
      · exact follows.1 before old
      · obtain rfl := List.mem_singleton.mp new
        exact precedes_same rfl
    · refine List.pairwise_append.mpr ⟨follows.2, List.pairwise_singleton _ _, ?_⟩
      intro before member last new
      obtain rfl := List.mem_singleton.mp new
      exact follows.1 before member
  perform operation follows := follows.later (Moment.precedes_perform _ operation)
  ask r _ follows := follows.later (r.precedes_ask _)

theorem moments_precede (client : Client) (h : Host) :
    (client.moments h).Pairwise fun m later => m.host.Precedes later.host := by
  have nothing : Follows ({ host := h }, []) := ⟨by simp, .nil⟩
  obtain ⟨_, follows⟩ := follows_invariant.moments client nothing
  exact follows.2

end Client

end Needle
