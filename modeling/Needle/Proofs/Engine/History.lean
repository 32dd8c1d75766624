import Needle.Proofs.Engine.Resources
import Needle.Proofs.RuleSet.RoundTrip

/-!
# The history of an engine

An engine counts its handles upwards, and its trace grows at the end. So what it makes later on has
a handle that nothing had before, and the patterns of a rule set stay until a call destroys it. Each
function of an engine adds one call to its history, whatever the engine is told to answer.
-/
set_option autoImplicit false

namespace Needle

namespace Engine

/-- A later state of an engine, after some more calls. -/
structure Passes (e : Engine) (calls : List EngineCall) (later : Engine) : Prop where
  trace : later.calls = e.calls ++ calls
  faults : later.faults = e.faults
  last : e.last ≤ later.last
  makes : ∀ call ∈ calls, ∀ r, call.makes? = some r → e.last < r.handle
  rules : ∀ handle patterns, e.ruleSet? handle = some patterns →
    (∀ call ∈ calls, call.destroys? ≠ some (.rules handle)) → later.ruleSet? handle = some patterns

variable {e later last : Engine} {call : EngineCall} {calls more : List EngineCall}

theorem Passes.refl (e : Engine) : e.Passes [] e where
  trace := (List.append_nil _).symm
  faults := rfl
  last := Nat.le_refl _
  makes := by simp
  rules _ _ live _ := live

theorem Passes.trans (first : e.Passes calls later) (second : later.Passes more last) :
    e.Passes (calls ++ more) last where
  trace := by rw [second.trace, first.trace, List.append_assoc]
  faults := second.faults.trans first.faults
  last := Nat.le_trans first.last second.last
  makes := by
    intro call member r makes
    rcases List.mem_append.mp member with old | new
    · exact first.makes call old r makes
    · exact Nat.lt_of_le_of_lt first.last (second.makes call new r makes)
  rules := by
    intro handle patterns live kept
    have between := first.rules handle patterns live
      fun call member => kept call (List.mem_append_left _ member)
    exact second.rules handle patterns between
      fun call member => kept call (List.mem_append_right _ member)

/-- A handle that stands for a rule set was given out before any that is made later. -/
theorem handle_le_last {handle : Handle} {patterns : List Pattern}
    (live : e.ruleSet? handle = some patterns) : handle ≤ e.last :=
  e.ruleSets_issued _ (mem_of_lookup live)

/-! ## One call -/

theorem Took.passes (took : e.Took call later) (grows : e.last ≤ later.last)
    (makes : ∀ r, call.makes? = some r → e.last < r.handle)
    (rules : ∀ handle patterns, e.ruleSet? handle = some patterns →
      call.destroys? ≠ some (.rules handle) → later.ruleSet? handle = some patterns) :
    e.Passes [call] later where
  trace := took.calls
  faults := took.faults
  last := grows
  makes other member := by
    obtain rfl := List.mem_singleton.mp member
    exact makes
  rules handle patterns live kept :=
    rules handle patterns live (kept call (List.mem_singleton.mpr rfl))

theorem Took.passes_same (took : e.Took call later) (makes : call.makes? = none)
    (grows : later.last = e.last) (same : later.ruleSets = e.ruleSets) :
    e.Passes [call] later := by
  refine took.passes (Nat.le_of_eq grows.symm) ?_ ?_
  · simp [makes]
  · intro handle patterns live _
    unfold ruleSet?
    rw [same]
    exact live

/-- A call that makes a rule set. -/
theorem passes_addRuleSet (e : Engine) (patterns : List Pattern)
    (makes : call.makes? = some (.rules (e.addRuleSet patterns).1)) :
    e.Passes [call] ((e.addRuleSet patterns).2.trace call) := by
  have took : e.Took call ((e.addRuleSet patterns).2.trace call) := ⟨rfl, rfl⟩
  refine took.passes (Nat.le_succ _) ?_ ?_
  · intro r same
    obtain rfl := Option.some.inj (makes.symm.trans same)
    exact Nat.lt_succ_self _
  · intro handle found live _
    exact e.ruleSet?_addRuleSet_old patterns live

/-! ## Each function -/

theorem passes_stop (e : Engine) : e.Passes [.stop] e.stop.2 := by
  have took : e.Took .stop e.stop.2 := ⟨rfl, rfl⟩
  exact took.passes_same rfl rfl rfl

theorem passes_createCompiler (e : Engine) :
    ∃ answer, e.Passes [.createCompiler answer] e.createCompiler.2 := by
  unfold createCompiler
  cases e.faults.createCompiler with
  | some code =>
      have took : e.Took (.createCompiler (.error code))
          (e.trace (.createCompiler (.error code))) := ⟨rfl, rfl⟩
      exact ⟨.error code, took.passes_same rfl rfl rfl⟩
  | none =>
      refine ⟨.ok (e.last + 1), Took.passes ⟨rfl, rfl⟩ (Nat.le_succ _) ?_ fun _ _ live _ => live⟩
      rintro _ ⟨⟩
      exact Nat.lt_succ_self _

theorem passes_destroyCompiler (e : Engine) (h : Handle) :
    e.Passes [.destroyCompiler h] (e.destroyCompiler h) := by
  unfold destroyCompiler
  dsimp only
  split
  · exact Took.passes_same ⟨rfl, rfl⟩ rfl rfl rfl
  · exact Took.passes_same ⟨rfl, rfl⟩ rfl rfl rfl

theorem ruleSets_addSource (e : Engine) (h : Handle) (ns : String) (file : Option String)
    (text : String) : (e.addSource h ns file text).2.ruleSets = e.ruleSets := by
  unfold addSource
  split
  · rfl
  · rfl

/-- A text is handed to a compiler by a call that makes nothing. -/
theorem passes_addSource (e : Engine) (makes : call.makes? = none) (h : Handle) (ns : String)
    (file : Option String) (text : String) :
    e.Passes [call] ((e.trace call).addSource h ns file text).2 := by
  obtain ⟨calls, faults, grows, _⟩ := (e.trace call).addSource_kept h ns file text
  have took : e.Took call ((e.trace call).addSource h ns file text).2 := ⟨calls, faults⟩
  exact took.passes_same makes grows ((e.trace call).ruleSets_addSource h ns file text)

theorem passes_addText (e : Engine) (h : Handle) (ns text : String) :
    e.Passes [.addText h ns (Utf8.encode text).length] (e.addText h ns text).2 := by
  unfold addText
  dsimp only
  split
  · exact Took.passes_same ⟨rfl, rfl⟩ rfl rfl rfl
  · exact e.passes_addSource rfl h ns none text

theorem passes_addFile (e : Engine) (h : Handle) (ns : String) (path : Path)
    (content : Except IoError String) :
    e.Passes [.addFile h ns path] (e.addFile h ns path content).2 := by
  unfold addFile
  dsimp only
  split
  · exact Took.passes_same ⟨rfl, rfl⟩ rfl rfl rfl
  · cases content with
    | ok text => exact e.passes_addSource rfl h ns (some path.display) text
    | error cause => exact Took.passes_same ⟨rfl, rfl⟩ rfl rfl rfl

theorem passes_getRules (e : Engine) (h : Handle) :
    e.Passes [.getRules h (e.getRules h).1] (e.getRules h).2 := by
  have refused (code : Code) :
      e.Passes [.getRules h (.error code)] (e.trace (.getRules h (.error code))) :=
    Took.passes_same ⟨rfl, rfl⟩ rfl rfl rfl
  unfold getRules
  cases e.faults.getRules with
  | some code => exact refused code
  | none =>
      cases e.compiler? h with
      | none => exact refused _
      | some session =>
          dsimp only
          split
          case isTrue => exact e.passes_addRuleSet session.patterns rfl
          case isFalse => exact refused _

theorem passes_load (e : Engine) (files : FileTree) (path : Path) :
    e.Passes [.load path (e.load files path).1] (e.load files path).2 := by
  have refused (code : Code) :
      e.Passes [.load path (.error code)] (e.trace (.load path (.error code))) :=
    Took.passes_same ⟨rfl, rfl⟩ rfl rfl rfl
  unfold load
  cases e.faults.load with
  | some code => exact refused code
  | none =>
      cases files.readFile (shownPath path) with
      | error cause => exact refused _
      | ok content =>
          dsimp only
          cases Pattern.load content with
          | error code => exact refused code
          | ok patterns => exact e.passes_addRuleSet patterns rfl

theorem passes_save (e : Engine) (files : FileTree) (h : Handle) (path : Path) :
    e.Passes [.save h path (e.save files h path).1] (e.save files h path).2.2 :=
  Took.passes_same ⟨rfl, rfl⟩ rfl rfl rfl

theorem passes_destroyRules (e : Engine) (h : Handle) :
    e.Passes [.destroyRules h (e.destroyRules h).1] (e.destroyRules h).2 := by
  unfold destroyRules
  cases e.faults.destroyRules with
  | some code => exact Took.passes_same ⟨rfl, rfl⟩ rfl rfl rfl
  | none =>
      dsimp only
      split
      case isFalse => exact Took.passes_same ⟨rfl, rfl⟩ rfl rfl rfl
      case isTrue =>
        refine Took.passes ⟨rfl, rfl⟩ (Nat.le_refl _) (by simp [EngineCall.makes?]) ?_
        intro handle patterns live apart
        have other : handle ≠ h := by
          rintro rfl
          exact apart rfl
        exact (lookup_filter_of_ne e.ruleSets other).trans live

theorem passes_scan {S : Type} (e : Engine) (makes : call.makes? = none) (h : Handle)
    (data : Bytes) : e.Passes [call] ((e.trace call).scan (S := S) h data).2 := by
  unfold scan
  split
  · exact Took.passes_same ⟨rfl, rfl⟩ makes rfl rfl
  · exact Took.passes_same ⟨rfl, rfl⟩ makes rfl rfl

theorem passes_scanBuffer {S : Type} (e : Engine) (h : Handle) (data : Bytes) (o : ScanOptions) :
    e.Passes [.scanBuffer h data.length o.flags o.timeoutSecs.toOption]
      (e.scanBuffer (S := S) h data o).2 := by
  unfold scanBuffer
  dsimp only
  split
  · exact Took.passes_same ⟨rfl, rfl⟩ rfl rfl rfl
  · exact e.passes_scan rfl h data

theorem passes_scanFile {S : Type} (e : Engine) (files : FileTree) (h : Handle) (path : Path)
    (o : ScanOptions) :
    e.Passes [.scanFile h path o.flags o.timeoutSecs.toOption] (e.scanFile (S := S) files h path o).2 := by
  unfold scanFile
  dsimp only
  split
  · exact Took.passes_same ⟨rfl, rfl⟩ rfl rfl rfl
  · split
    · exact e.passes_scan rfl h _
    · exact Took.passes_same ⟨rfl, rfl⟩ rfl rfl rfl

end Engine

end Needle
