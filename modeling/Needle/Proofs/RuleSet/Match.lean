import Needle.Proofs.Scan.Quiet

/-!
# What a rule set finds in a buffer

Collecting goes through all the rules that the buffer satisfies. What is found depends on the
patterns of the rule set alone, and whether it is handed out on the status that the engine gives.
-/
set_option autoImplicit false

namespace Needle

namespace RuleSet

open Scan

def gather (rule : Rule) (seen : List Rule) : Verdict × List Rule := (.proceed, seen ++ [rule])

theorem collect_eq : collect = quiet gather := rfl

theorem handOver_gather (rules : List Rule) (calls : Nat) (seen : List Rule) :
    handOver gather rules (⟨calls, .proceed⟩, seen) =
      (⟨calls + rules.length, .proceed⟩, seen ++ rules) := by
  induction rules generalizing calls seen with
  | nil => simp [handOver]
  | cons rule rest ih =>
      simp only [handOver, gather]
      rw [ih, List.length_cons, List.append_assoc, Nat.add_assoc, Nat.add_comm 1]
      rfl

def reported (s : RuleSet) (data : Bytes) (options : ScanOptions) (h : Host) : List Rule :=
  (s.scanBuffer data options collect (h, [])).2.2

/-- The rules that a scan hands to a collector, and its result. -/
theorem scanBuffer_collect (s : RuleSet) {h : Host} {patterns : List Pattern}
    (live : (h.engine s.slot).ruleSet? s.handle = some patterns)
    (literal : (h.engine s.slot).faults.scan = none) {data : Bytes} (filled : data ≠ [])
    (options : ScanOptions) :
    ∃ after, s.scanBuffer data options collect (h, []) =
      (.returned (conclude ⟨(h.engine s.slot).faults.scans,
          (Pattern.rulesIn data patterns).length, .proceed⟩ none),
        after, Pattern.rulesIn data patterns) := by
  obtain ⟨begun, _, runs⟩ := s.scanBuffer_eq_run live literal filled options
  obtain ⟨ending, after, ran, concluded, _⟩ := run_quiet gather (h.engine s.slot).faults.scans
    (Pattern.events data patterns) begun [] none
  rw [Pattern.map_toRule_events, handOver_gather, Nat.zero_add, List.nil_append] at ran concluded
  refine ⟨after, ?_⟩
  rw [runs, collect_eq]
  dsimp only at ran concluded ⊢
  rw [ran, concluded]

theorem matchBuffer_eq (s : RuleSet) {h : Host} {patterns : List Pattern}
    (live : (h.engine s.slot).ruleSet? s.handle = some patterns)
    (literal : (h.engine s.slot).faults.scan = none) {data : Bytes} (filled : data ≠ []) :
    (s.matchBuffer data h).1 =
      let status := (h.engine s.slot).faults.scans
      if status = 0 then .ok (Pattern.rulesIn data patterns)
      else if status = 26 then .error .scanTimeout
      else .error (.engine status) := by
  obtain ⟨after, scanned⟩ := s.scanBuffer_collect live literal filled s.options
  unfold matchBuffer
  rw [scanned, conclude_proceed]
  generalize (h.engine s.slot).faults.scans = status
  by_cases success : status = 0
  · simp [collected, success]
  · by_cases late : status = 26
    · simp [collected, late]
    · simp [collected, success, late]

end RuleSet

end Needle
