import Needle.Proofs.Command.Owner
import Needle.Proofs.Compiler.Session

/-!
# Compiling what arguments name

A command compiles the rule texts that its arguments name in one session. What comes of it is a
function of the files: the first text that is not taken is why the command fails, and otherwise the
engine holds the patterns of all of them.
-/
set_option autoImplicit false

namespace Needle

open Pattern

namespace Program

def sourceRead (files : FileTree) (ns : String) (s : Compiler × List Pattern) (argument : String) :
    Except Error (Compiler × List Pattern) := do
  let source ← RuleSource.ofArgument argument ns
  let p ← (RuleText.file source.path).read files source.ns s.2
  p.result source.ns
  return (s.1.told source.ns p, s.2 ++ p.gained)

def sourcesRead (files : FileTree) (ns : String) (s : Compiler × List Pattern)
    (arguments : List String) : Except Error (Compiler × List Pattern) :=
  arguments.foldlM (sourceRead files ns) s

variable {c : Compiler} {h : Host} {known : List Pattern}

theorem addSources_cons (live : c.Live h known) (usable : c.failed = none) (ns argument : String) :
    match sourceRead h.files ns (c, known) argument with
    | .ok (next, held) => ∃ after, next.Live after held ∧ next.failed = none ∧
        after.files = h.files ∧
        ∀ rest, addSources c ns h (argument :: rest) = addSources next ns after rest
    | .error e => ∃ left after, after.files = h.files ∧
        ∀ rest, addSources c ns h (argument :: rest) = (.error e, left, after) := by
  unfold sourceRead
  cases named : RuleSource.ofArgument argument ns with
  | error e =>
      refine ⟨c, h, rfl, fun rest => ?_⟩
      rw [addSources, named]
  | ok source =>
      let noted := h.note (.compilingSource source.path source.ns)
      have still : c.Live noted known := ⟨live.started, live.genuine, live.held⟩
      have adds := still.adds_file usable source.ns source.path
      generalize added : c.addFile source.ns source.path noted = answer at adds
      cases adds with
      | failed failed =>
          rw [usable] at failed
          contradiction
      | @unfit e _ unfit =>
          have unread : (RuleText.file source.path).read h.files source.ns known = .error e := unfit
          simp only [bind, Except.bind, unread]
          refine ⟨c, noted, rfl, fun rest => ?_⟩
          rw [addSources, named]
          dsimp only
          rw [added]
      | @read p after _ read lives files _ =>
          have taken : (RuleText.file source.path).read h.files source.ns known = .ok p := read
          simp only [bind, Except.bind, taken]
          cases result : p.result source.ns with
          | error e =>
              refine ⟨c.told source.ns p, after, files, fun rest => ?_⟩
              rw [addSources, named]
              dsimp only
              rw [added, result]
          | ok _ =>
              refine ⟨after, lives, ?_, files, fun rest => ?_⟩
              · rw [Compiler.told_failed]
                unfold Progress.result at result
                split at result
                · contradiction
                case isFalse faultless => rw [if_neg faultless, usable]
              · rw [addSources, named]
                dsimp only
                rw [added, result]

theorem addSources_eq (live : c.Live h known) (usable : c.failed = none) (ns : String)
    (arguments : List String) :
    match sourcesRead h.files ns (c, known) arguments with
    | .ok (last, held) => ∃ after, addSources c ns h arguments = (.ok (), last, after) ∧
        last.Live after held ∧ last.failed = none ∧ after.files = h.files
    | .error e => ∃ left after, addSources c ns h arguments = (.error e, left, after) ∧
        after.files = h.files := by
  induction arguments generalizing c h known with
  | nil => exact ⟨h, rfl, live, usable, rfl⟩
  | cons argument rest ih =>
      have first := addSources_cons live usable ns argument
      unfold sourcesRead
      rw [List.foldlM_cons]
      cases read : sourceRead h.files ns (c, known) argument with
      | error e =>
          rw [read] at first
          obtain ⟨left, after, files, stops⟩ := first
          exact ⟨left, after, stops rest, files⟩
      | ok s =>
          rw [read] at first
          obtain ⟨after, lives, sound, files, goes⟩ := first
          have later := ih lives sound
          rw [files] at later
          rw [goes rest]
          exact later

theorem stays_addSources {owners : List Nat} {keys : List (Nat × Resource)}
    (attended : h.Attended owners keys) (member : c.key ∈ keys) (ns : String)
    (arguments : List String) : c.Stays owners keys (addSources c ns h arguments) := by
  induction arguments generalizing c h with
  | nil => exact ⟨rfl, attended⟩
  | cons argument rest ih =>
      unfold addSources
      split
      case h_1 => exact ⟨rfl, attended⟩
      case h_2 source _ =>
        let noted := h.note (.compilingSource source.path source.ns)
        have attended : noted.Attended owners keys := attended
        have first := c.attended_addFile attended member source.ns source.path
        generalize c.addFile source.ns source.path noted = answer at first
        obtain ⟨_ | _, next, after⟩ := answer
        · exact first
        · obtain ⟨key, attended⟩ := first
          have later := ih attended (key.symm ▸ member)
          exact ⟨later.1.trans key, later.2⟩

theorem precedes_addSources (c : Compiler) (h : Host) (ns : String) (arguments : List String) :
    h.Precedes (addSources c ns h arguments).2.2 := by
  induction arguments generalizing c h with
  | nil => exact Host.precedes_same rfl
  | cons argument rest ih =>
      unfold addSources
      split
      case h_1 => exact Host.precedes_same rfl
      case h_2 source _ =>
        have first := (h.precedes_note (.compilingSource source.path source.ns)).trans
          (c.precedes_addFile source.ns source.path _)
        generalize c.addFile source.ns source.path _ = answer at first
        obtain ⟨_ | _, next, after⟩ := answer
        · exact first
        · exact first.trans (ih next after)

/-! ## A session of a command -/

def newcomer (config : Config) : Compiler where
  slot := 0
  handle := 1
  failOnWarnings := config.compiler.failOnWarnings

def session (config : Config) (files : FileTree) (ns : String) (arguments : List String) :
    Except Error (Compiler × List Pattern) :=
  sourcesRead files ns (newcomer config, []) arguments

theorem create_newcomer (config : Config) (serves : Owner.Serves ⟨0⟩ [] h)
    (first : (h.engine 0).last = 0) : ∃ c begun,
    Compiler.create ⟨0⟩ h = (.ok c, begun) ∧
      { c with failOnWarnings := config.compiler.failOnWarnings } = newcomer config ∧
      (newcomer config).Live begun [] ∧ Owner.Serves ⟨0⟩ [(newcomer config).key] begun ∧
      begun.files = h.files := by
  let r : Owner := ⟨0⟩
  obtain ⟨c, begun, created, account⟩ := Compiler.create_eq r serves.started serves.genuine
  obtain ⟨_, _, answer, held⟩ := Compiler.attended_create r serves.attended List.mem_cons_self
  cases created.symm.trans answer
  have later := Compiler.precedes_create r h
  have files := Compiler.files_create r h
  rw [created] at later files
  have fresh : { c with failOnWarnings := config.compiler.failOnWarnings } = newcomer config := by
    unfold Compiler.create Host.call Engine.createCompiler at created
    rw [serves.genuine.createCompiler] at created
    cases created
    unfold newcomer
    dsimp only
    rw [first]
  have live := (account config.compiler.failOnWarnings).live
  rw [fresh, List.flatMap_nil] at live
  refine ⟨c, begun, created, fresh, live, ?_, files⟩
  rw [← fresh]
  exact serves.later later held

theorem compileSources_eq (config : Config) (serves : Owner.Serves ⟨0⟩ [] h)
    (first : (h.engine 0).last = 0) (arguments : List String) (ns : String) :
    match session config h.files ns arguments with
    | .ok (c, known) => ∃ after, compileSources config ⟨0⟩ arguments ns h = (.ok c, after) ∧
        c.Live after known ∧ c.failed = none ∧ c.slot = 0 ∧ Owner.Serves ⟨0⟩ [c.key] after ∧
        after.files = h.files
    | .error e => ∃ after, compileSources config ⟨0⟩ arguments ns h = (.error e, after) ∧
        Owner.Serves ⟨0⟩ [] after ∧ after.files = h.files := by
  obtain ⟨c, begun, created, fresh, live, goes, files⟩ := create_newcomer config serves first
  have added := addSources_eq live rfl ns arguments
  rw [files] at added
  have stays := stays_addSources goes.attended List.mem_cons_self ns arguments
  have history := precedes_addSources (newcomer config) begun ns arguments
  unfold compileSources session
  rw [created]
  dsimp only
  rw [fresh]
  cases read : sourcesRead h.files ns (newcomer config, []) arguments with
  | ok s =>
      rw [read] at added
      obtain ⟨after, answer, lives, sound, still⟩ := added
      rw [answer] at stays history ⊢
      obtain ⟨key, attended⟩ := stays
      rw [← key] at attended
      exact ⟨after, rfl, lives, sound, congrArg Prod.fst key, goes.later history attended, still⟩
  | error e =>
      rw [read] at added
      obtain ⟨left, after, answer, still⟩ := added
      rw [answer] at stays history ⊢
      obtain ⟨key, attended⟩ := stays
      rw [← key] at attended
      refine ⟨left.drop after, rfl, ?_, (left.files_drop after).trans still⟩
      exact (goes.later history attended).later (left.precedes_drop after)
        (left.attended_drop attended)

end Program

/-- Why a session that has not failed gives no rule set. -/
def Compiler.verdict (c : Compiler) : Option Error :=
  if c.failOnWarnings && !c.warnings.isEmpty then
    some (.compile (",".intercalate c.namespaces) c.warnings.length c.warnings)
  else none

theorem Compiler.rules_eq {c : Compiler} {h : Host} {known : List Pattern} {r : Owner}
    (live : c.Live h known) (usable : c.failed = none) (slot : c.slot = r.slot)
    (serves : r.Serves [c.key] h) :
    match c.verdict with
    | some e => ∃ after, c.rules h = (.error e, after) ∧ r.Serves [] after ∧ after.files = h.files
    | none => ∃ s after, c.rules h = (.ok s, after) ∧ r.Holds s known after ∧
        after.files = h.files := by
  have gains := c.gains_rules serves.attended
  have later := c.precedes_rules h
  have files := c.files_rules h
  unfold verdict
  cases quiet : c.failOnWarnings && !c.warnings.isEmpty with
  | true =>
      obtain ⟨strict, warned⟩ : c.failOnWarnings = true ∧ c.warnings ≠ [] := by simpa using quiet
      have refused := c.rules_of_warnings usable strict warned h
      rw [refused] at gains later files
      exact ⟨_, refused, serves.later later gains, files⟩
  | false =>
      obtain ⟨s, after, given, holds, same, _⟩ := live.rules usable (by simpa using quiet)
      rw [given] at gains later files
      exact ⟨s, after, given, ⟨serves.later later gains, same.trans slot, holds⟩, files⟩

namespace Program

/-- The ways that a command's session goes: a rule text is not taken, warnings do not let it end,
or it gives a rule set. -/
inductive SessionGoes (config : Config) (arguments : List String) (ns : String) (h : Host) : Prop
  | refused {e : Error} {after : Host} (read : session config h.files ns arguments = .error e)
      (answer : compileSources config ⟨0⟩ arguments ns h = (.error e, after))
      (idle : Owner.Serves ⟨0⟩ [] after) (files : after.files = h.files)
  | barred {c : Compiler} {known : List Pattern} {middle after : Host} {e : Error}
      (read : session config h.files ns arguments = .ok (c, known))
      (answer : compileSources config ⟨0⟩ arguments ns h = (.ok c, middle))
      (verdict : c.verdict = some e) (gives : c.rules middle = (.error e, after))
      (idle : Owner.Serves ⟨0⟩ [] after) (files : after.files = h.files)
  | complete {c : Compiler} {known : List Pattern} {middle after : Host} {s : RuleSet}
      (read : session config h.files ns arguments = .ok (c, known))
      (answer : compileSources config ⟨0⟩ arguments ns h = (.ok c, middle))
      (verdict : c.verdict = none) (gives : c.rules middle = (.ok s, after))
      (holds : Owner.Holds ⟨0⟩ s known after) (files : after.files = h.files)

theorem session_goes (config : Config) {h : Host} (serves : Owner.Serves ⟨0⟩ [] h)
    (first : (h.engine 0).last = 0) (arguments : List String) (ns : String) :
    SessionGoes config arguments ns h := by
  have compiles := compileSources_eq config serves first arguments ns
  cases read : session config h.files ns arguments with
  | error e =>
      rw [read] at compiles
      obtain ⟨after, answer, idle, files⟩ := compiles
      exact .refused read answer idle files
  | ok s =>
      obtain ⟨c, known⟩ := s
      rw [read] at compiles
      obtain ⟨middle, answer, live, usable, slot, serves, files⟩ := compiles
      have ends := c.rules_eq live usable slot serves
      cases verdict : c.verdict with
      | some e =>
          rw [verdict] at ends
          obtain ⟨after, gives, idle, still⟩ := ends
          exact .barred read answer verdict gives idle (still.trans files)
      | none =>
          rw [verdict] at ends
          obtain ⟨s, after, gives, holds, still⟩ := ends
          exact .complete read answer verdict gives holds (still.trans files)

end Program

end Needle
