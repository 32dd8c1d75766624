import Needle.Proofs.Client.Operations
import Needle.Proofs.Client.Run

/-!
# The life of an engine

Whatever a client does, at every moment an engine has in its tables what the client has of it. An
engine that was started is stopped once, when nobody holds it any more; one that failed to start is
not stopped. Nothing that an engine does not have is named to it.
-/
set_option autoImplicit false

namespace Needle

open Scan

namespace Values

def slots (v : Values) : List Nat := v.owners.map Owner.slot

def keys (v : Values) : List (Nat × Resource) :=
  v.compilers.map Compiler.key ++ v.ruleSets.map RuleSet.key

def held (v : Values) (i : Nat) : List Resource := heldOf i v.keys

end Values

section Places

variable {α β : Type} {values : List α} {place : Nat} {value : α}

theorem perm_eraseIdx (found : values[place]? = some value) :
    values.Perm (value :: values.eraseIdx place) := by
  obtain ⟨inside, rfl⟩ := List.getElem?_eq_some_iff.mp found
  exact (List.getElem_cons_eraseIdx_perm inside).symm

theorem map_set_same (found : values[place]? = some value) {f : α → β} {changed : α}
    (same : f changed = f value) : (values.set place changed).map f = values.map f := by
  obtain ⟨inside, rfl⟩ := List.getElem?_eq_some_iff.mp found
  rw [List.map_set, same, ← List.map_set, List.set_getElem_self]

end Places

namespace Moment

/-- The engines are held by the values of the client. -/
def Attended (m : Moment) : Prop := m.host.Attended m.slots m.keys

variable {m : Moment} {h : Host} {place : Nat}

/-! ## Values come and go -/

theorem keys_dropCompiler {c : Compiler} (found : m.compilers[place]? = some c) (h : Host) :
    m.keys.Perm (c.key :: { m with host := h, compilers := m.compilers.eraseIdx place }.keys) :=
  ((perm_eraseIdx found).map Compiler.key).append_right _

theorem keys_dropRules {s : RuleSet} (found : m.ruleSets[place]? = some s) (h : Host) :
    m.keys.Perm (s.key :: { m with host := h, ruleSets := m.ruleSets.eraseIdx place }.keys) :=
  (((perm_eraseIdx found).map RuleSet.key).append_left _).trans List.perm_middle

theorem slots_drop {r : Owner} (found : m.owners[place]? = some r) (h : Host) :
    m.slots.Perm (r.slot :: { m with host := h, owners := m.owners.eraseIdx place }.slots) :=
  (perm_eraseIdx found).map Owner.slot

theorem mem_slots {r : Owner} (found : m.owners[place]? = some r) : r.slot ∈ m.slots :=
  List.mem_map_of_mem (List.mem_of_getElem? found)

theorem compiler_mem_keys {c : Compiler} (found : m.compilers[place]? = some c) : c.key ∈ m.keys :=
  List.mem_append_left _ (List.mem_map_of_mem (List.mem_of_getElem? found))

theorem rules_mem_keys {s : RuleSet} (found : m.ruleSets[place]? = some s) : s.key ∈ m.keys :=
  List.mem_append_right _ (List.mem_map_of_mem (List.mem_of_getElem? found))

/-! ## Each operation -/

theorem Attended.withValue {α : Type} (attended : m.Attended) {values : List α}
    {use : α → Moment} (used : ∀ value, values[place]? = some value → (use value).Attended) :
    (m.withValue values place use).Attended := by
  unfold Moment.withValue
  cases found : values[place]? with
  | none => exact attended
  | some value => exact used value found

theorem attended_added {c : Compiler} (found : m.compilers[place]? = some c)
    {answer : Except Error Unit × Compiler × Host} (stays : c.Stays m.slots m.keys answer) :
    (m.added place answer).Attended := by
  have keys : (m.added place answer).keys = m.keys :=
    congrArg (· ++ m.ruleSets.map RuleSet.key) (map_set_same found stays.1)
  unfold Attended
  rw [keys]
  exact stays.2

theorem attended_produced {answer : Except Error RuleSet × Host}
    (gains : Gains m.slots m.keys answer) : (m.produced answer).Attended := by
  obtain ⟨_ | s, after⟩ := answer
  · exact gains
  · have keys : (s.key :: m.keys).Perm (m.produced (.ok s, after)).keys := by
      unfold produced Values.keys
      rw [List.map_append, ← List.append_assoc]
      exact (List.perm_append_singleton _ _).symm
    exact gains.perm (.refl _) keys

theorem Attended.perform (attended : m.Attended) (operation : Operation) :
    (m.perform operation).Attended := by
  cases operation with
  | start start stop scans =>
      unfold Moment.perform
      dsimp only
      rcases Owner.attended_start attended start stop scans with
        ⟨r, after, begun, started⟩ | ⟨e, after, begun, started⟩
      · rw [begun]
        have slots : (r.slot :: m.slots).Perm ((m.owners ++ [r]).map Owner.slot) := by
          rw [List.map_append]
          exact (List.perm_append_singleton _ _).symm
        exact started.perm slots (.refl _)
      · rw [begun]
        exact started
  | createCompiler owner strict =>
      refine attended.withValue fun r found => ?_
      obtain ⟨c, after, created, held⟩ := Compiler.attended_create r attended (mem_slots found)
      rw [created]
      refine held.perm (.refl _) ?_
      show (c.key :: m.keys).Perm ((m.compilers ++ [_]).map Compiler.key ++ _)
      rw [List.map_append, List.append_assoc]
      exact List.perm_middle.symm
  | addText place ns text =>
      refine attended.withValue fun c found => ?_
      exact attended_added found (c.attended_addText attended (compiler_mem_keys found) ns text)
  | addFile place ns path =>
      refine attended.withValue fun c found => ?_
      exact attended_added found (c.attended_addFile attended (compiler_mem_keys found) ns path)
  | addFiles place ns paths =>
      refine attended.withValue fun c found => ?_
      exact attended_added found (c.attended_addFiles attended (compiler_mem_keys found) ns paths)
  | rules place =>
      refine attended.withValue fun c found => ?_
      -- A compiler that is asked for its rule set is given up, so its key leaves the client first.
      have split := attended.perm (.refl _) (keys_dropCompiler found m.host)
      exact attended_produced (c.gains_rules split)
  | dropCompiler place =>
      refine attended.withValue fun c found => ?_
      exact c.attended_drop (attended.perm (.refl _) (keys_dropCompiler found (c.drop m.host)))
  | load owner path =>
      refine attended.withValue fun r found => ?_
      exact attended_produced (RuleSet.gains_load r attended (mem_slots found) path)
  | loadBytes owner content =>
      refine attended.withValue fun r found => ?_
      exact attended_produced (RuleSet.gains_loadBytes r attended (mem_slots found) content)
  | withOptions place options =>
      refine attended.withValue fun s found => ?_
      have keys : (m.ruleSets.set place (s.withOptions options)).map RuleSet.key =
        m.ruleSets.map RuleSet.key := map_set_same found rfl
      show m.host.Attended m.slots (_ ++ _)
      rw [keys]
      exact attended
  | save place path =>
      refine attended.withValue fun s found => ?_
      exact s.attended_save attended (rules_mem_keys found) path
  | saveBytes place =>
      refine attended.withValue fun s found => ?_
      exact s.attended_saveBytes attended (rules_mem_keys found)
  | destroyRules place =>
      refine attended.withValue fun s found => ?_
      exact (s.attended_destroy (attended.perm (.refl _) (keys_dropRules found _))).2
  | dropRules place =>
      refine attended.withValue fun s found => ?_
      exact s.attended_drop (attended.perm (.refl _) (keys_dropRules found _))
  | finalize place =>
      refine attended.withValue fun r found => ?_
      exact r.attended_finalize (attended.perm (slots_drop found _) (.refl _))
  | dropOwner place =>
      refine attended.withValue fun r found => ?_
      exact r.attended_drop (attended.perm (slots_drop found _) (.refl _))
  | elsewhere files thread => exact attended

end Moment

/-! ## A whole client -/

namespace Client

def Kept (state : Moment × List Moment) : Prop :=
  state.1.Attended ∧ ∀ m ∈ state.2, m.Attended

theorem kept_concat {m : Moment} {past : List Moment} (attended : m.Attended)
    (before : ∀ m ∈ past, m.Attended) : Kept (m, past ++ [m]) := by
  refine ⟨attended, fun other member => ?_⟩
  rcases List.mem_append.mp member with old | new
  · exact before other old
  · exact List.mem_singleton.mp new ▸ attended

theorem kept_invariant : Invariant Kept where
  congr same kept := ⟨kept.1.congr same, kept.2⟩
  pass kept := kept_concat kept.1 kept.2
  perform operation kept := ⟨kept.1.perform operation, kept.2⟩
  ask r listed kept :=
    ⟨r.attended_ask kept.1 (List.mem_append_right _ (List.mem_map_of_mem listed)), kept.2⟩

theorem attended_moments (client : Client) (h : Host) :
    ∀ m ∈ client.moments { h with engines := [] }, m.Attended := by
  have nothing : Kept ({ host := { h with engines := [] } }, []) := ⟨fun _ => ⟨rfl, rfl⟩, by simp⟩
  obtain ⟨_, kept⟩ := kept_invariant.moments client nothing
  exact kept.2

end Client

/-- An engine accounts for what it made: it has what is `held`, whatever else it made is destroyed,
and it is stopped when nobody holds it. -/
structure EngineSlot.Accounts (slot : EngineSlot) (owners : Nat) (held : List Resource) : Prop where
  tables : slot.engine.resources.Perm held
  orderly : Orderly slot.engine.calls
  once : ∀ r, made slot.engine.calls r ≤ 1
  balance : ∀ r, made slot.engine.calls r = destroyed slot.engine.calls r + held.count r
  stops : stops slot.engine.calls =
    if slot.engine.faults.start = Code.success ∧ owners = 0 ∧ held = [] then 1 else 0

theorem EngineSlot.Tended.accounts {slot : EngineSlot} {start : Code} {owners : Nat}
    {held : List Resource} (tended : slot.Tended start owners held) :
    slot.Accounts owners held := by
  obtain ⟨keeps, holders, _, stopped, _⟩ := tended
  have answer : slot.engine.faults.start = start := congrArg Faults.start keeps.answers
  have nobody : slot.holders = 0 ↔ owners = 0 ∧ held = [] := by
    rw [holders, Nat.add_eq_zero_iff, List.length_eq_zero_iff]
  refine ⟨keeps.tables, keeps.orderly, keeps.once, keeps.balance, ?_⟩
  rw [keeps.stops, answer]
  simp only [stopped, nobody]

namespace Client

/-- At every moment of a client each engine accounts for what the client has of it, whatever
failed before. Its owner counts what holds it and refuses to stop it as long as there is any, and a
rule set can be given up. -/
theorem lifecycle (client : Client) (h : Host) :
    ∀ m ∈ client.moments { h with engines := [] },
      (∀ i ∈ m.slots ++ m.keys.map Prod.fst, i < m.host.engines.length) ∧
      (∀ (i : Nat) (slot : EngineSlot), m.host.engines[i]? = some slot →
        slot.Accounts (m.slots.count i) (m.held i)) ∧
      (∀ r ∈ m.owners, r.liveResources m.host = (m.held r.slot).length ∧
        ∀ live, (r.finalize m.host).1 = .error (.resourcesOutstanding live) ↔
          live = (m.held r.slot).length ∧ 0 < live) ∧
      ∀ s ∈ m.ruleSets, (s.destroy m.host).1 = .ok () := by
  intro m member
  have attended := client.attended_moments h m member
  refine ⟨?_, ?_, ?_, ?_⟩
  · intro i among
    rcases List.mem_append.mp among with owned | kept
    · obtain ⟨slot, _, busy⟩ := attended.of_owner owned
      exact (List.getElem?_eq_some_iff.mp busy.found).1
    · obtain ⟨key, listed, rfl⟩ := List.mem_map.mp kept
      obtain ⟨slot, _, busy⟩ := attended.of_key listed
      exact (List.getElem?_eq_some_iff.mp busy.found).1
  · intro i slot found
    have here := attended i
    rw [found] at here
    obtain ⟨start, tended⟩ := here
    exact tended.accounts
  · intro r owned
    exact r.live_of_attended attended (List.mem_map_of_mem owned)
  · intro s listed
    obtain ⟨place, found⟩ := List.mem_iff_getElem?.mp listed
    exact (s.attended_destroy (attended.perm (.refl _) (Moment.keys_dropRules found m.host))).1

/-- A handler gives up the owner of the engine that is scanning, and dies. The engine is stopped
after the scan, when its rule set goes. -/
theorem lifecycle_of_nested_release :
    let client : Client := .call (.start 0 31 0) <| .call (.start 1 0 0) <|
      .call (.createCompiler 0 false) <| .call (.addText 0 "ns" "first a") <| .call (.rules 0) <|
      .scan 0 (.buffer (Utf8.encode "ab")) {}
        (fun _ => .call (.finalize 0) <| .finish (.panic "gone"))
        (.call (.dropRules 0) <| .finish (.verdict .proceed))
    let h : Host := { files := ⟨[], []⟩, tempDir := .ofText "" }
    ∃ m ∈ client.moments { h with engines := [] }, ∃ first second,
      m.host.engines = [first, second] ∧ first.Accounts 0 [] ∧ second.Accounts 0 [] ∧
      stops first.engine.calls = 1 ∧ stops second.engine.calls = 0 := by
  intro client h
  let view (m : Moment) := (m.slots, m.keys, m.host.engines.map fun slot => stops slot.engine.calls)
  have ended :
      ((client.moments { h with engines := [] })[9]?).map view = some ([], [], [1, 0]) := by
    decide +kernel
  obtain ⟨m, last, shown⟩ := Option.map_eq_some_iff.mp ended
  obtain ⟨owners, shown⟩ := Prod.mk.inj shown
  obtain ⟨keys, stopped⟩ := Prod.mk.inj shown
  obtain ⟨first, rest, engines, once, others⟩ := List.map_eq_cons_iff.mp stopped
  obtain ⟨second, none, split, never, nothing⟩ := List.map_eq_cons_iff.mp others
  have member := List.mem_of_getElem? last
  obtain ⟨_, accounts, _⟩ := lifecycle client h m member
  rw [List.map_eq_nil_iff.mp nothing] at split
  rw [split] at engines
  rw [owners] at accounts
  unfold Values.held at accounts
  rw [keys, engines] at accounts
  exact ⟨m, member, first, second, engines, accounts 0 first rfl, accounts 1 second rfl, once,
    never⟩

end Client

end Needle
