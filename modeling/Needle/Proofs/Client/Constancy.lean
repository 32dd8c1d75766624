import Needle.Proofs.Client.History
import Needle.Proofs.Client.Lifecycle
import Needle.Proofs.RuleSet.RoundTrip

/-!
# Rule sets do not change

A rule set that a client has stands for the same patterns until it is given up: whatever else is
done with its engine, it finds the same in a buffer and is saved as the same text. Nothing that the
engine makes in the meantime has its handle.
-/
set_option autoImplicit false

namespace Needle

namespace RuleSet

/-! ## Two rule sets on two hosts -/

section Hosts

variable {h other : Host}

theorem patterns?_congr (s : RuleSet) (same : other.engines = h.engines) :
    s.patterns? other = s.patterns? h := by
  unfold patterns? Host.engine Host.slot
  rw [same]

theorem literal_congr {i : Nat} (literal : (h.engine i).Literal)
    (same : other.engines = h.engines) : (other.engine i).Literal := by
  unfold Host.engine Host.slot
  rw [same]
  exact literal

theorem makeTemp_congr (files : other.files = h.files) (tempDir : other.tempDir = h.tempDir)
    (content : Bytes) :
    (makeTemp other content).1 = (makeTemp h content).1 ∧
      (makeTemp other content).2.files = (makeTemp h content).2.files := by
  unfold makeTemp
  rw [files, tempDir]
  dsimp only
  split
  · exact ⟨rfl, rfl⟩
  · exact ⟨rfl, files⟩

theorem dropTemp_congr (files : other.files = h.files) (path : Path) :
    (dropTemp other path).files = (dropTemp h path).files := by
  unfold dropTemp
  rw [files]
  split
  · rfl
  · exact files

end Hosts

/-- Two rule sets with the same patterns, each on a host of its own, as far as a caller can tell. A
host may get any files before it is asked. -/
structure Agrees (s : RuleSet) (h : Host) (t : RuleSet) (other : Host) (patterns : List Pattern) :
    Prop where
  first : s.patterns? h = some patterns
  second : t.patterns? other = some patterns
  matched : ∀ data : Bytes, (t.matchBuffer data other).1 = (s.matchBuffer data h).1
  saved : ∀ (place : Path) (files : FileTree),
    let here := s.save place { h with files := files }
    let there := t.save place { other with files := files }
    there.1 = here.1 ∧ there.2.files = here.2.files
  bytes : ∀ (files : FileTree) (dir : Path),
    let here := s.saveBytes { h with files := files, tempDir := dir }
    let there := t.saveBytes { other with files := files, tempDir := dir }
    there.1 = here.1 ∧ there.2.files = here.2.files

section Agreement

variable {s t : RuleSet} {h other : Host} {patterns : List Pattern}

theorem save_congr (first : s.patterns? h = some patterns)
    (second : t.patterns? other = some patterns) (literal : (h.engine s.slot).Literal)
    (literals : (other.engine t.slot).Literal) (files : other.files = h.files) (place : Path) :
    (t.save place other).1 = (s.save place h).1 ∧
      (t.save place other).2.files = (s.save place h).2.files := by
  have here := s.save_eq first literal place
  have there := t.save_eq second literals place
  rw [files, ← here] at there
  exact Prod.mk.inj there

theorem saveBytes_congr (first : s.patterns? h = some patterns)
    (second : t.patterns? other = some patterns) (literal : (h.engine s.slot).Literal)
    (literals : (other.engine t.slot).Literal) (files : other.files = h.files)
    (tempDir : other.tempDir = h.tempDir) :
    (t.saveBytes other).1 = (s.saveBytes h).1 ∧
      (t.saveBytes other).2.files = (s.saveBytes h).2.files := by
  have temp := makeTemp_congr files tempDir []
  have engines := engines_makeTemp h []
  have others := engines_makeTemp other []
  unfold saveBytes
  generalize makeTemp h [] = here at temp engines
  generalize makeTemp other [] = there at temp others
  obtain ⟨result, begun⟩ := here
  obtain ⟨same, start⟩ := there
  dsimp only at temp engines others
  obtain ⟨rfl, left⟩ := temp
  cases same with
  | error e => exact ⟨rfl, left⟩
  | ok path =>
      have saved := save_congr ((s.patterns?_congr engines).trans first)
        ((t.patterns?_congr others).trans second) (literal_congr literal engines)
        (literal_congr literals others) left path
      dsimp only
      generalize s.save path begun = here at saved
      generalize t.save path start = there at saved
      obtain ⟨result, ended⟩ := here
      obtain ⟨same, last⟩ := there
      dsimp only at saved
      obtain ⟨rfl, written⟩ := saved
      cases same with
      | error e => exact ⟨rfl, dropTemp_congr written path⟩
      | ok _ =>
          refine ⟨?_, dropTemp_congr written path⟩
          dsimp only
          rw [written]

theorem agrees_of_patterns (first : s.patterns? h = some patterns)
    (second : t.patterns? other = some patterns) (genuine : (h.engine s.slot).faults.Genuine)
    (same : (other.engine t.slot).faults = (h.engine s.slot).faults) :
    s.Agrees h t other patterns := by
  have literal : (h.engine s.slot).Literal := ⟨genuine.save, genuine.load, genuine.scan⟩
  have literals : (other.engine t.slot).Literal := by
    constructor
    · rw [same]; exact literal.save
    · rw [same]; exact literal.load
    · rw [same]; exact literal.scan
  constructor
  case first => exact first
  case second => exact second
  case matched =>
    intro data
    by_cases empty : data = []
    · subst empty
      rfl
    · rw [s.matchBuffer_eq first literal.scan empty, t.matchBuffer_eq second literals.scan empty,
        same]
  case saved =>
    intro place files
    have here : s.patterns? { h with files := files } = some patterns := first
    have there : t.patterns? { other with files := files } = some patterns := second
    exact save_congr here there literal literals rfl place
  case bytes =>
    intro files dir
    have here : s.patterns? { h with files := files, tempDir := dir } = some patterns := first
    have there : t.patterns? { other with files := files, tempDir := dir } = some patterns := second
    exact saveBytes_congr here there literal literals rfl rfl

end Agreement

end RuleSet

/-! ## A client's rule sets -/

namespace Moment

theorem Attended.live {m : Moment} (attended : m.Attended) {s : RuleSet} (listed : s ∈ m.ruleSets) :
    s.slot < m.host.engines.length ∧ (m.host.engine s.slot).faults.Genuine ∧
      ∃ patterns, s.patterns? m.host = some patterns := by
  have member : s.key ∈ m.keys := List.mem_append_right _ (List.mem_map_of_mem listed)
  obtain ⟨slot, start, busy⟩ := attended.of_key member
  have keeps := busy.keeps
  have known : .rules s.handle ∈ slot.engine.resources :=
    keeps.tables.mem_iff.mpr (mem_heldOf member)
  have engine : m.host.engine s.slot = slot.engine := Host.engine_of_found busy.found
  refine ⟨(List.getElem?_eq_some_iff.mp busy.found).1, engine ▸ keeps.genuine, ?_⟩
  unfold RuleSet.patterns?
  rw [engine]
  exact Option.isSome_iff_exists.mp (Engine.ruleSet?_of_mem known)

theorem Attended.has {m : Moment} (attended : m.Attended) {s : RuleSet} {patterns : List Pattern}
    (started : s.slot < m.host.engines.length) (live : s.patterns? m.host = some patterns) :
    ∃ t ∈ m.ruleSets, t.key = s.key := by
  have here := attended s.slot
  obtain ⟨slot, found⟩ : ∃ slot, m.host.engines[s.slot]? = some slot :=
    ⟨_, List.getElem?_eq_getElem started⟩
  have engine : m.host.engine s.slot = slot.engine := Host.engine_of_found found
  rw [found] at here
  obtain ⟨start, tended⟩ := here
  have known : .rules s.handle ∈ slot.engine.resources := by
    unfold RuleSet.patterns? at live
    rw [engine] at live
    apply List.mem_append_right
    exact List.mem_map.mpr ⟨_, mem_of_lookup live, rfl⟩
  obtain ⟨key, member, same⟩ := List.mem_map.mp (tended.engine.tables.mem_iff.mp known)
  obtain ⟨listed, slotted⟩ := List.mem_filter.mp member
  rcases List.mem_append.mp listed with compiler | rules
  · obtain ⟨c, _, rfl⟩ := List.mem_map.mp compiler
    cases same
  · obtain ⟨t, among, rfl⟩ := List.mem_map.mp rules
    have slot : t.key.1 = s.slot := by simpa using slotted
    exact ⟨t, among, Prod.ext slot same⟩

theorem Attended.not_destroyed {m : Moment} (attended : m.Attended) {s : RuleSet}
    (listed : s ∈ m.ruleSets) :
    ∀ call ∈ (m.host.engine s.slot).calls, call.destroys? ≠ some (.rules s.handle) := by
  have member : s.key ∈ m.keys := List.mem_append_right _ (List.mem_map_of_mem listed)
  obtain ⟨slot, start, busy⟩ := attended.of_key member
  have engine : m.host.engine s.slot = slot.engine := Host.engine_of_found busy.found
  have never : destroyed slot.engine.calls (.rules s.handle) = 0 :=
    (busy.keeps.present (mem_heldOf member)).2
  rw [engine]
  intro call among destroys
  exact List.countP_eq_zero.mp never call among (by simpa using destroys)

end Moment

namespace Client

/-- A rule set of a client, from one of its moments to a later one. Its engine has taken some more
calls, and what they made has another handle. If none of them destroyed the rule set, the client has
it still, and it is as it was. -/
theorem rules_stay (client : Client) (h : Host) :
    (client.moments { h with engines := [] }).Pairwise fun m later =>
      ∀ s ∈ m.ruleSets, ∃ patterns calls, s.patterns? m.host = some patterns ∧
        (later.host.engine s.slot).calls = (m.host.engine s.slot).calls ++ calls ∧
        (∀ call ∈ calls, ∀ r, call.makes? = some r → r.handle ≠ s.handle) ∧
        ((∃ t ∈ later.ruleSets, t.key = s.key) ↔
          ∀ call ∈ calls, call.destroys? ≠ some (.rules s.handle)) ∧
        ∀ t ∈ later.ruleSets, t.key = s.key → s.Agrees m.host t later.host patterns := by
  have attended := client.attended_moments h
  refine (client.moments_precede { h with engines := [] }).imp_of_mem ?_
  intro m later before after precedes s listed
  obtain ⟨started, genuine, patterns, live⟩ := (attended m before).live listed
  obtain ⟨calls, passes⟩ := precedes.passes s.slot started
  have issued : s.handle ≤ (m.host.engine s.slot).last := Engine.handle_le_last live
  -- The client has the rule set later on exactly if no call destroyed it.
  have kept : (∃ t ∈ later.ruleSets, t.key = s.key) ↔
      ∀ call ∈ calls, call.destroys? ≠ some (.rules s.handle) := by
    constructor
    · rintro ⟨t, among, same⟩ call member
      obtain ⟨slot, handle⟩ := Prod.mk.inj same
      have never := (attended later after).not_destroyed among call
      rw [slot, passes.trace, handle] at never
      exact never (List.mem_append_right _ member)
    · intro spared
      have still := passes.rules s.handle patterns live spared
      exact (attended later after).has (Nat.lt_of_lt_of_le started precedes.count) still
  refine ⟨patterns, calls, live, passes.trace, ?_, kept, ?_⟩
  · intro call member r makes
    exact Nat.ne_of_gt (Nat.lt_of_le_of_lt issued (passes.makes call member r makes))
  · intro t among same
    obtain ⟨slot, handle⟩ := Prod.mk.inj same
    have still := passes.rules s.handle patterns live (kept.mp ⟨t, among, same⟩)
    injection handle with handle
    apply RuleSet.agrees_of_patterns live ?_ genuine
    · rw [slot, passes.faults]
    · unfold RuleSet.patterns?
      rw [slot, handle]
      exact still

/-- A handler makes another rule set, which is destroyed after the scan; a compilation fails. -/
theorem rules_stay_of_nested_rules :
    let client : Client := .call (.start 0 0 0) <| .call (.createCompiler 0 false) <|
      .call (.addText 0 "ns" "first a") <| .call (.rules 0) <|
      .scan 0 (.buffer (Utf8.encode "ab")) {}
        (fun _ => .call (.createCompiler 0 false) <| .call (.addText 0 "ns" "second b") <|
          .call (.rules 0) <| .finish (.verdict .abort))
        (.call (.destroyRules 1) <| .call (.createCompiler 0 false) <|
          .call (.addText 0 "ns" "third") <| .call (.rules 0) <| .finish (.verdict .proceed))
    let h : Host := { files := ⟨[], []⟩, tempDir := .ofText "" }
    let s : RuleSet := ⟨0, 2, {}⟩
    ∃ m ∈ client.moments { h with engines := [] },
      ∃ later ∈ client.moments { h with engines := [] }, ∃ patterns,
        s ∈ m.ruleSets ∧ (m.host.engine 0).last = 2 ∧ (later.host.engine 0).last = 5 ∧
          s.Agrees m.host s later.host patterns := by
  intro client h s
  let view (m : Moment) := (m.ruleSets, (m.host.engine 0).last)
  have made : ((client.moments { h with engines := [] })[4]?).map view = some ([s], 2) := by
    decide +kernel
  have ended : ((client.moments { h with engines := [] })[13]?).map view = some ([s], 5) := by
    decide +kernel
  obtain ⟨m, first, shown⟩ := Option.map_eq_some_iff.mp made
  obtain ⟨later, last, left⟩ := Option.map_eq_some_iff.mp ended
  obtain ⟨rules, handles⟩ := Prod.mk.inj shown
  obtain ⟨still, handlesLeft⟩ := Prod.mk.inj left
  obtain ⟨before, here⟩ := List.getElem?_eq_some_iff.mp first
  obtain ⟨after, there⟩ := List.getElem?_eq_some_iff.mp last
  have stays := List.pairwise_iff_getElem.mp (rules_stay client h) 4 13 before after (by decide)
  rw [here, there] at stays
  obtain ⟨patterns, _, _, _, _, _, agrees⟩ := stays s (by simp [rules])
  exact ⟨m, List.mem_of_getElem? first, later, List.mem_of_getElem? last, patterns,
    by simp [rules], handles, handlesLeft, agrees s (by simp [still]) rfl⟩

end Client

end Needle
