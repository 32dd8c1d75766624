import Needle.Proofs.Compiler.Namespaces
import Needle.Proofs.RuleSet.File

/-!
# Qualified names

Namespace and identifier together tell the rules of a session apart, whatever is added to it. The
qualified name puts a colon between the two, and both of them may have colons of their own: so two
rules share their qualified name exactly if one has in its namespace what the other has in its
identifier. Where no namespace has a colon, or no identifier, qualified names tell all rules apart.
-/
set_option autoImplicit false

namespace Needle

open Pattern

/-! ## When two rules have one qualified name -/

theorem append_cons_eq_append_cons_iff {A : Type} {separator : A} {a b c d : List A} :
    a ++ separator :: b = c ++ separator :: d ↔ (a = c ∧ b = d) ∨
      (∃ middle, a = c ++ separator :: middle ∧ d = middle ++ separator :: b) ∨
      ∃ middle, c = a ++ separator :: middle ∧ b = middle ++ separator :: d := by
  constructor
  · intro same
    rcases List.append_eq_append_iff.mp same with ⟨gap, longer, rest⟩ | ⟨gap, longer, rest⟩
    · cases gap with
      | nil => exact .inl ⟨by simpa using longer.symm, by simpa using rest⟩
      | cons first middle =>
          obtain ⟨rfl, tail⟩ := List.cons.inj rest
          exact .inr (.inr ⟨middle, longer, tail⟩)
    · cases gap with
      | nil => exact .inl ⟨by simpa using longer, by simpa using rest.symm⟩
      | cons first middle =>
          obtain ⟨rfl, tail⟩ := List.cons.inj rest
          exact .inr (.inl ⟨middle, longer, tail⟩)
  · rintro (⟨rfl, rfl⟩ | ⟨middle, rfl, rfl⟩ | ⟨middle, rfl, rfl⟩)
    · rfl
    · simp
    · simp

namespace Rule

/-- The namespace of `r` goes on, behind that of `q` and a colon, with what the identifier of `q`
begins with; behind a further colon that has the identifier of `r`. -/
def Overlaps (r q : Rule) : Prop :=
  ∃ middle, r.ns = q.ns ++ ":" ++ middle ∧ q.identifier = middle ++ ":" ++ r.identifier

theorem overlaps_iff (r q : Rule) :
    r.Overlaps q ↔ ∃ middle, r.ns.toList = q.ns.toList ++ ':' :: middle ∧
      q.identifier.toList = middle ++ ':' :: r.identifier.toList := by
  constructor
  · rintro ⟨middle, ns, identifier⟩
    exact ⟨middle.toList, by simp [ns], by simp [identifier]⟩
  · rintro ⟨middle, ns, identifier⟩
    refine ⟨String.ofList middle, ?_, ?_⟩
    · rw [← String.toList_inj]
      simp [ns]
    · rw [← String.toList_inj]
      simp [identifier]

theorem qualifiedName_eq_iff (r q : Rule) :
    r.qualifiedName = q.qualifiedName ↔
      (r.ns = q.ns ∧ r.identifier = q.identifier) ∨ r.Overlaps q ∨ q.Overlaps r := by
  have joined (r : Rule) : r.qualifiedName.toList = r.ns.toList ++ ':' :: r.identifier.toList := by
    simp [qualifiedName]
  rw [← String.toList_inj, joined, joined, append_cons_eq_append_cons_iff, String.toList_inj,
    String.toList_inj, ← overlaps_iff, ← overlaps_iff]

theorem Overlaps.colons {r q : Rule} (overlaps : r.Overlaps q) :
    ':' ∈ r.ns.toList ∧ ':' ∈ q.identifier.toList := by
  obtain ⟨middle, ns, identifier⟩ := r.overlaps_iff q |>.mp overlaps
  exact ⟨by simp [ns], by simp [identifier]⟩

end Rule

/-! ## The names of a session -/

theorem RuleText.read_added {files : FileTree} {ns : String} {known : List Pattern} {t : RuleText}
    {p : Progress} (read : t.read files ns known = .ok p) :
    p.added = [] ∨ ∃ file text, p.added = (Source.read ⟨ns, file, known⟩ text).added := by
  cases t with
  | text content =>
      obtain ⟨-, rfl⟩ := Compiler.read_text_eq_ok_iff.mp read
      exact .inr ⟨none, content.toList, rfl⟩
  | file path =>
      obtain ⟨_, _, read⟩ := ok_of_bind read
      obtain ⟨_, _, read⟩ := ok_of_bind read
      obtain ⟨content, _, read⟩ := ok_of_bind read
      obtain rfl : readContent ns known path (FileTree.textOf content) = p := Except.ok.inj read
      cases FileTree.textOf content with
      | error cause => exact .inl rfl
      | ok text => exact .inr ⟨some path.display, text.toList, rfl⟩

def Pattern.Apart (patterns : List Pattern) : Prop := (patterns.map name).Nodup

theorem RuleText.read_apart {files : FileTree} {ns : String} {known : List Pattern} {t : RuleText}
    {p : Progress} (read : t.read files ns known = .ok p) (apart : Apart known) :
    Apart (known ++ p.added) := by
  rcases read_added read with nothing | ⟨file, text, added⟩
  · rw [nothing, List.append_nil]
    exact apart
  · rw [added]
    exact Source.read_names ⟨ns, file, known⟩ text apart

theorem Attempt.apart (a : Attempt) (apart : Apart (a.found.1.known a.found.2)) :
    Apart (a.found.1.known a.found.2 ++ a.patterns) := by
  unfold patterns
  split
  case h_1 p _ read =>
    unfold read? at read
    split at read
    · contradiction
    · cases taken : a.text.read a.found.2.files a.ns (a.found.1.known a.found.2) with
      | error e =>
          rw [taken] at read
          contradiction
      | ok progress =>
          rw [taken] at read
          obtain rfl := Option.some.inj read
          exact RuleText.read_apart taken apart
  case h_2 =>
    rw [List.append_nil]
    exact apart

namespace Compiler

theorem Account.apart {strict : Bool} {made more : List Attempt} {s last : Compiler × Host}
    (account : Account strict made s) (apart : Apart (made.flatMap Attempt.patterns))
    (chain : Chain s more last) : Apart ((made ++ more).flatMap Attempt.patterns) := by
  induction more generalizing made s with
  | nil =>
      rw [List.append_nil]
      exact apart
  | cons a rest ih =>
      obtain ⟨c, h⟩ := s
      obtain ⟨here, chain⟩ := chain
      have next := account.attempt a.ns a.text
      have found : a.found = (c, h) := congrArg Attempt.found here
      have holds : a.found.1.known a.found.2 = made.flatMap Attempt.patterns := by
        rw [found]
        exact account.live.known_eq
      have kept := a.apart (by rw [holds]; exact apart)
      rw [← here] at next
      rw [List.append_cons]
      refine ih next ?_ chain
      rw [List.flatMap_append, List.flatMap_singleton, ← holds]
      exact kept

/-- A rule set that a session gives holds the patterns of the session. -/
theorem Account.rules {strict : Bool} {made : List Attempt} {last : Compiler × Host}
    (account : Account strict made last) {s : RuleSet} {after : Host}
    (given : last.1.rules last.2 = (.ok s, after)) :
    s.patterns? after = some (made.flatMap Attempt.patterns) ∧
      (after.engine s.slot).faults.Genuine := by
  cases state : last.1.failed with
  | some errors =>
      rw [last.1.rules_of_failed state] at given
      cases given
  | none =>
      by_cases warned : last.1.failOnWarnings = true ∧ last.1.warnings ≠ []
      · rw [last.1.rules_of_warnings state warned.1 warned.2] at given
        cases given
      · obtain ⟨made, left, answer, holds, _, faults⟩ := account.live.rules state warned
        cases answer.symm.trans given
        exact ⟨holds, faults ▸ account.live.genuine⟩

end Compiler

/-! ## What a rule set can report -/

namespace RuleSet

open Scan

def Reports (s : RuleSet) (h : Host) (r : Rule) : Prop :=
  ∃ target options, r ∈ (ScanCall.run ⟨s, target, options⟩ collect (h, [])).2.2

variable {s : RuleSet} {h : Host} {patterns : List Pattern}

/-- A scan reports the rules that some content satisfies, or nothing. -/
theorem run_collect (live : s.patterns? h = some patterns)
    (genuine : (h.engine s.slot).faults.Genuine) (target : ScanTarget) (options : ScanOptions) :
    (ScanCall.run ⟨s, target, options⟩ collect (h, [])).2.2 = [] ∨
      ∃ data, (ScanCall.run ⟨s, target, options⟩ collect (h, [])).2.2 = rulesIn data patterns := by
  let call : ScanCall := ⟨s, target, options⟩
  rcases call.run_cases h with same | ⟨text, lapses⟩
  case inr => exact .inl (congrArg (·.2.2) (lapses collect []))
  rw [same]
  cases target with
  | buffer data =>
      have reported := s.reported_eq live genuine data options
      by_cases empty : data = []
      · rw [if_pos empty] at reported
        exact .inl reported
      · rw [if_neg empty] at reported
        exact .inr ⟨data, reported⟩
  | file path =>
      obtain ⟨after, scanned, _⟩ := s.scanFile_quiet live genuine.scan path options gather []
      have seen : (call.scan collect (h, [])).2.2 =
          (fileScan gather patterns (h.engine s.slot).faults.scans h.files path []).2 :=
        congrArg (·.2.2) scanned
      rw [seen, fileScan]
      split
      case h_1 => exact .inl rfl
      case h_2 =>
        cases h.files.readFile (Engine.shownPath path) with
        | error cause => exact .inl rfl
        | ok content =>
            refine .inr ⟨content, ?_⟩
            simp only [Engine.reports, map_toRule_events, handOver_gather, List.nil_append]

/-- A rule set can report the rules of its patterns, each of them and no others. -/
theorem reports_iff (live : s.patterns? h = some patterns)
    (genuine : (h.engine s.slot).faults.Genuine) (r : Rule) :
    s.Reports h r ↔ ∃ p ∈ patterns, p.toEvent.toRule = r := by
  constructor
  · rintro ⟨target, options, member⟩
    rcases run_collect live genuine target options with nothing | ⟨data, seen⟩
    · simp [nothing] at member
    · rw [seen] at member
      obtain ⟨p, satisfied, same⟩ := List.mem_map.mp member
      exact ⟨p, (List.mem_filter.mp satisfied).1, same⟩
  · rintro ⟨p, member, rfl⟩
    -- The buffer must not be empty, even if the literal is.
    let data := Utf8.encode p.literal ++ [0]
    have filled : data ≠ [] := by simp [data]
    have reported := s.reported_eq live genuine data {}
    rw [if_neg filled] at reported
    have satisfied : p.toEvent.toRule ∈ s.reported data {} h := by
      rw [reported]
      refine List.mem_map_of_mem (List.mem_filter.mpr ⟨member, ?_⟩)
      exact decide_eq_true (List.prefix_append ..).isInfix
    refine ⟨.buffer data, {}, ?_⟩
    rw [ScanCall.run_eq_scan rfl]
    exact satisfied

structure Named (s : RuleSet) (h : Host) : Prop where
  /-- Namespace and identifier tell the rules apart. -/
  apart : ∀ r q, s.Reports h r → s.Reports h q → r.ns = q.ns → r.identifier = q.identifier → r = q
  /-- Qualified names do so but for rules that overlap. -/
  shared : ∀ r q, s.Reports h r → s.Reports h q → r ≠ q →
    (r.qualifiedName = q.qualifiedName ↔ r.Overlaps q ∨ q.Overlaps r)
  /-- Overlapping needs a colon in a namespace and one in an identifier. -/
  plain : (∀ r, s.Reports h r → ':' ∉ r.ns.toList) ∨
      (∀ r, s.Reports h r → ':' ∉ r.identifier.toList) →
    ∀ r q, s.Reports h r → s.Reports h q → r.qualifiedName = q.qualifiedName → r = q

theorem named_of_apart (live : s.patterns? h = some patterns)
    (genuine : (h.engine s.slot).faults.Genuine) (distinct : Apart patterns) : s.Named h := by
  have apart : ∀ r q, s.Reports h r → s.Reports h q → r.ns = q.ns →
      r.identifier = q.identifier → r = q := by
    intro r q here there ns identifier
    obtain ⟨p, member, rfl⟩ := (reports_iff live genuine r).mp here
    obtain ⟨other, others, rfl⟩ := (reports_iff live genuine q).mp there
    have first := Rule.records_toRule p.toEvent
    have second := Rule.records_toRule other.toEvent
    rw [first.ns, second.ns] at ns
    rw [first.identifier, second.identifier] at identifier
    have same : p = other :=
      List.inj_on_of_nodup_map distinct member others (Prod.ext ns identifier)
    rw [same]
  constructor
  case apart => exact apart
  case shared =>
    intro r q here there different
    rw [r.qualifiedName_eq_iff q]
    exact or_iff_right fun same => different (apart r q here there same.1 same.2)
  case plain =>
    intro free r q here there same
    rcases (r.qualifiedName_eq_iff q).mp same with both | overlap | overlap
    · exact apart r q here there both.1 both.2
    · rcases free with ns | identifier
      · exact absurd overlap.colons.1 (ns r here)
      · exact absurd overlap.colons.2 (identifier q there)
    · rcases free with ns | identifier
      · exact absurd overlap.colons.1 (ns q there)
      · exact absurd overlap.colons.2 (identifier r here)

end RuleSet

/-! ## Rule sets of sessions -/

namespace Compiler

/-- The names in the rule set of a session, after any calls. -/
theorem rules_named (r : Owner) (h : Host) (started : r.slot < h.engines.length)
    (genuine : (h.engine r.slot).faults.Genuine) :
    ∃ c begun, create r h = (.ok c, begun) ∧ ∀ strict calls,
      let last := (carryOutAll ({ c with failOnWarnings := strict }, begun) calls).2
      ∀ s after, last.1.rules last.2 = (.ok s, after) → s.Named after := by
  obtain ⟨c, begun, created, account⟩ := create_eq r started genuine
  refine ⟨c, begun, created, ?_⟩
  intro strict calls last s after given
  have chain := (chain_carryOutAll ({ c with failOnWarnings := strict }, begun) calls).1
  have told := (account strict).chain chain
  have apart := (account strict).apart List.nodup_nil chain
  obtain ⟨live, genuine⟩ := told.rules given
  exact RuleSet.named_of_apart live genuine apart

def startedHost : Host := ⟨⟨[], []⟩, .ofText "", [{ holders := 1 }], {}, [], 0⟩

def overlapping : List (String × String) := [("a", "b:c x"), ("a:b", "c x")]

theorem overlapping_reported :
    ∃ c begun, create ⟨0⟩ startedHost = (.ok c, begun) ∧
      let carried := carryOutAll ({ c with failOnWarnings := false }, begun)
        (overlapping.map ofText)
      (∀ call ∈ carried.1, call.1 = .ok ()) ∧
      ∃ s after, carried.2.1.rules carried.2.2 = (.ok s, after) ∧
        s.Reports after ⟨"b:c", "a", [], []⟩ ∧ s.Reports after ⟨"c", "a:b", [], []⟩ := by
  obtain ⟨c, begun, created, account⟩ := create_eq (h := startedHost) ⟨0⟩ (by decide) rfl
  have fresh := account false
  have accepted : acceptedAll? [] overlapping =
      some [⟨"a", "b:c", "x", [], []⟩, ⟨"a:b", "c", "x", [], []⟩] := rfl
  obtain ⟨answers, holds⟩ := fresh.live.carryOutAll_texts fresh.failed overlapping
  obtain ⟨live, usable, lenient⟩ := holds _ accepted
  obtain ⟨s, after, given, held, _, faults⟩ := live.rules usable (by simp [lenient])
  have reports := RuleSet.reports_iff held (faults ▸ live.genuine)
  refine ⟨c, begun, created, answers.mpr rfl, s, after, given, ?_, ?_⟩
  · exact (reports _).mpr ⟨⟨"a", "b:c", "x", [], []⟩, by simp, rfl⟩
  · exact (reports _).mpr ⟨⟨"a:b", "c", "x", [], []⟩, by simp, rfl⟩

theorem rules_named_of_overlapping :
    ∃ c begun, create ⟨0⟩ startedHost = (.ok c, begun) ∧
      let last := (carryOutAll ({ c with failOnWarnings := false }, begun)
        (overlapping.map ofText)).2
      ∃ s after, last.1.rules last.2 = (.ok s, after) ∧ s.Named after ∧
        ∃ r q, s.Reports after r ∧ s.Reports after q ∧ q.Overlaps r := by
  obtain ⟨c, begun, created, named⟩ := rules_named ⟨0⟩ startedHost (by decide) rfl
  obtain ⟨_, _, same, _, s, after, given, first, second⟩ := overlapping_reported
  cases created.symm.trans same
  exact ⟨c, begun, created, s, after, given, named false _ s after given, _, _, first, second,
    "b", rfl, rfl⟩

/-- Though both additions succeed, two rules are reported under one qualified name. -/
theorem qualifiedName_not_unique :
    ∃ c begun, create ⟨0⟩ startedHost = (.ok c, begun) ∧
      let carried := carryOutAll ({ c with failOnWarnings := false }, begun)
        (overlapping.map ofText)
      (∀ call ∈ carried.1, call.1 = .ok ()) ∧
      ∃ s after, carried.2.1.rules carried.2.2 = (.ok s, after) ∧
        ∃ r q, s.Reports after r ∧ s.Reports after q ∧ r ≠ q ∧
          r.qualifiedName = q.qualifiedName := by
  obtain ⟨c, begun, created, answers, s, after, given, first, second⟩ := overlapping_reported
  exact ⟨c, begun, created, answers, s, after, given, _, _, first, second, by decide, by decide⟩

end Compiler

end Needle
