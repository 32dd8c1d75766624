import Needle.Proofs.RuleSet.Match
import Needle.Proofs.RuleSet.RoundTrip

/-!
# Buffers within larger buffers

A literal that occurs in some bytes occurs in all that has them in it. So nothing that is put before
or behind a buffer takes one of its matches away, and their order stays: the matches of a part are a
sublist of the matches of the whole.

The search can be told in another way, as a look at all runs of bytes that are as long as the
literal. There are no runs of length zero, and they are never asked for.
-/
set_option autoImplicit false

namespace Needle

/-! ## The search by runs -/

def runs? (size : Nat) (data : Bytes) : Option (List Bytes) :=
  if size = 0 then none
  else some ((List.range (data.length + 1 - size)).map fun start => (data.drop start).take size)

/-- Looks for a literal among the runs of its length. -/
def searchRuns? (needle data : Bytes) : Option Bool :=
  if needle.isEmpty then some true
  else (runs? needle.length data).map fun runs => runs.contains needle

theorem mem_runs_iff (run data : Bytes) (size : Nat) :
    run ∈ (List.range (data.length + 1 - size)).map (fun start => (data.drop start).take size) ↔
      run <:+: data ∧ run.length = size := by
  rw [List.mem_map]
  constructor
  · rintro ⟨start, inside, rfl⟩
    rw [List.mem_range] at inside
    refine ⟨(List.take_prefix _ _).isInfix.trans (List.drop_suffix _ _).isInfix, ?_⟩
    rw [List.length_take, List.length_drop]
    omega
  · rintro ⟨⟨before, after, rfl⟩, rfl⟩
    refine ⟨before.length, ?_, ?_⟩
    · rw [List.mem_range, List.length_append, List.length_append]
      omega
    · rw [List.append_assoc, List.drop_left, List.take_left]

theorem searchRuns?_eq (needle data : Bytes) :
    searchRuns? needle data = some (occurs needle data) := by
  unfold searchRuns?
  by_cases empty : needle = []
  · subst empty
    rw [if_pos List.isEmpty_nil, (occurs_iff [] data).mpr (List.nil_infix)]
  · have asked : needle.length ≠ 0 := mt List.length_eq_zero_iff.mp empty
    rw [if_neg (mt List.isEmpty_iff.mp empty), runs?, if_neg asked, Option.map_some,
      Option.some.injEq, Bool.eq_iff_iff, List.contains_iff_mem, mem_runs_iff, occurs_iff]
    exact and_iff_left rfl

/-! ## Parts and wholes -/

theorem Pattern.rulesIn_sublist {part whole : Bytes} (within : part <:+: whole)
    (patterns : List Pattern) : (rulesIn part patterns).Sublist (rulesIn whole patterns) := by
  apply List.Sublist.map
  apply List.monotone_filter_right
  intro p inside
  rw [decide_eq_true_iff] at inside ⊢
  exact inside.trans within

namespace RuleSet

/-- A literal is found exactly where it stands, however long it and the data are. So the matches of
a buffer are found, in their order, among those of every buffer that has it in it. -/
theorem reported_sublist (s : RuleSet) (h later : Host) {patterns : List Pattern}
    (live : s.patterns? h = some patterns) (still : s.patterns? later = some patterns)
    (literal : (h.engine s.slot).faults.scan = none)
    (faults : (later.engine s.slot).faults = (h.engine s.slot).faults) (before part after : Bytes)
    (filled : part ≠ []) :
    (∀ needle data : Bytes,
      searchRuns? needle data = some (occurs needle data) ∧
      (occurs needle data = true ↔ ∃ before after, data = before ++ needle ++ after) ∧
      (needle = [] → occurs needle data = true) ∧
      (data.length < needle.length → occurs needle data = false)) ∧
    (∀ options others, (s.reported part options h).Sublist
      (s.reported (before ++ part ++ after) others later)) ∧
    ∀ few, (s.matchBuffer part h).1 = .ok few →
      ∃ many, (s.matchBuffer (before ++ part ++ after) later).1 = .ok many ∧ few.Sublist many := by
  have within : part <:+: before ++ part ++ after := ⟨before, after, rfl⟩
  have whole : before ++ part ++ after ≠ [] := by
    intro nothing
    rw [nothing] at within
    exact filled (List.infix_nil.mp within)
  have sublist := Pattern.rulesIn_sublist within patterns
  have same : (later.engine s.slot).faults.scan = none := faults ▸ literal
  refine ⟨fun needle data => ⟨searchRuns?_eq needle data, ?_, ?_, ?_⟩, ?_, ?_⟩
  · rw [occurs_iff]
    exact exists_congr fun _ => exists_congr fun _ => eq_comm
  · rintro rfl
    exact (occurs_iff [] data).mpr List.nil_infix
  · intro short
    rw [Bool.eq_false_iff]
    intro found
    have fits := ((occurs_iff needle data).mp found).length_le
    omega
  · intro options others
    obtain ⟨_, first⟩ := s.scanBuffer_collect live literal filled options
    obtain ⟨_, second⟩ := s.scanBuffer_collect still same whole others
    unfold reported
    rw [first, second]
    exact sublist
  · intro few listed
    have first := s.matchBuffer_eq live literal filled
    have second := s.matchBuffer_eq still same whole
    rw [listed] at first
    rw [faults] at second
    dsimp only at first second
    -- Another status than success leaves no list for the part.
    by_cases success : (h.engine s.slot).faults.scans = 0
    · rw [if_pos success] at first second
      cases first
      exact ⟨_, second, sublist⟩
    · rw [if_neg success] at first
      split at first
      · contradiction
      · contradiction

theorem reported_sublist_of_overlapping :
    let patterns : List Pattern := [⟨"ns", "first", "aba", [], []⟩, ⟨"ns", "absent", "zz", [], []⟩,
      ⟨"ns", "outer", "xab", [], []⟩, ⟨"ns", "last", "", [], []⟩]
    let h : Host := {
      files := ⟨[], []⟩
      tempDir := .ofText ""
      engines := [{ engine := (Engine.addRuleSet {} patterns).2, holders := 1 }] }
    let s : RuleSet := ⟨0, 1, {}⟩
    let later := (s.matchBuffer (Utf8.encode "aba") h).2
    ∃ many, (s.matchBuffer (Utf8.encode "xab" ++ Utf8.encode "aba" ++ Utf8.encode "ba") later).1 =
        .ok many ∧
      [⟨"first", "ns", [], []⟩, ⟨"last", "ns", [], []⟩].Sublist many := by
  intro patterns h s later
  have live : s.patterns? h = some patterns := rfl
  have still : s.patterns? later = some patterns := by decide +kernel
  obtain ⟨_, _, listed⟩ := reported_sublist s h later live still rfl rfl (Utf8.encode "xab")
    (Utf8.encode "aba") (Utf8.encode "ba") (by decide)
  exact listed _ (by decide +kernel)

end RuleSet

end Needle
