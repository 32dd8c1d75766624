import Needle.Proofs.Compiler.Session
import Needle.Proofs.Pattern.Source
import Needle.Proofs.Rule.Metadata

/-!
# Namespaces in a session

The texts of one namespace fare in a session as they would in a session of their own: a text is
judged by the patterns of its namespace alone, and adds to no other. So the patterns that a session
has come to, cut down to a namespace, are those of the namespace's own session.
-/
set_option autoImplicit false

namespace Needle

open Pattern

namespace Compiler

/-- The patterns that a text adds to a session, if nothing is wrong with it. -/
def accepted? (known : List Pattern) (ns content : String) : Option (List Pattern) :=
  match RuleText.read ⟨[], []⟩ ns known (.text content) with
  | .ok p => if p.errors = 0 then some p.added else none
  | .error _ => none

def acceptedAll? (known : List Pattern) : List (String × String) → Option (List Pattern)
  | [] => some known
  | (ns, content) :: rest => (accepted? known ns content).bind fun added =>
      acceptedAll? (known ++ added) rest

def within (n : String) (patterns : List Pattern) : List Pattern := patterns.filter (·.ns = n)

def textsOf (n : String) (texts : List (String × String)) : List (String × String) :=
  texts.filter (·.1 = n)

/-! ## One text -/

section Texts

variable {known added : List Pattern} {ns content : String}

theorem accepted?_eq_some_iff :
    accepted? known ns content = some added ↔ Fit ns content ∧
      (Source.read ⟨ns, none, known⟩ content.toList).errors = 0 ∧
      (Source.read ⟨ns, none, known⟩ content.toList).added = added := by
  unfold accepted?
  cases read : RuleText.read ⟨[], []⟩ ns known (.text content) with
  | error e =>
      refine iff_of_false nofun ?_
      rintro ⟨fit, -⟩
      rw [read_text_eq_ok_iff.mpr ⟨fit, rfl⟩] at read
      contradiction
  | ok p =>
      obtain ⟨fit, rfl⟩ := read_text_eq_ok_iff.mp read
      dsimp only
      split
      case isTrue clean =>
        rw [Option.some.injEq]
        exact ⟨fun same => ⟨fit, clean, same⟩, fun all => all.2.2⟩
      case isFalse faulty => exact iff_of_false nofun fun all => faulty all.2.1

/-- A text is judged by the patterns of its own namespace. -/
theorem accepted?_within (known : List Pattern) (ns content : String) :
    accepted? (within ns known) ns content = accepted? known ns content := by
  have same : RuleText.read ⟨[], []⟩ ns (within ns known) (.text content) =
      RuleText.read ⟨[], []⟩ ns known (.text content) := by
    have reads := Source.read_alone ⟨ns, none, known⟩ content.toList
    simp only [RuleText.read]
    exact congrArg (fun p => do
      let _ ← Plain.namespaceName ns
      let _ ← Plain.text content "rule source"
      return p) reads
  unfold accepted?
  rw [same]

theorem within_of_accepted (accepted : accepted? known ns content = some added) (n : String) :
    within n added = if n = ns then added else [] := by
  have own : ∀ p ∈ added, p.ns = ns :=
    (accepted?_eq_some_iff.mp accepted).2.2 ▸ Source.read_ns ⟨ns, none, known⟩ content.toList
  unfold within
  split
  case isTrue here => exact List.filter_eq_self.mpr fun p member => by simp [own p member, here]
  case isFalse apart =>
    refine List.filter_eq_nil_iff.mpr fun p member => ?_
    simpa [own p member] using Ne.symm apart

theorem within_append (n : String) (first second : List Pattern) :
    within n (first ++ second) = within n first ++ within n second := List.filter_append ..

/-- After a text that is accepted, the session of a namespace goes on from the patterns that the
whole session has in it. -/
theorem acceptedAll?_within_cons (accepted : accepted? known ns content = some added) (n : String)
    (rest : List (String × String)) :
    acceptedAll? (within n known) (textsOf n ((ns, content) :: rest)) =
      acceptedAll? (within n (known ++ added)) (textsOf n rest) := by
  have gained := within_of_accepted accepted n
  rw [within_append, gained]
  unfold textsOf
  by_cases here : ns = n
  · subst here
    rw [List.filter_cons_of_pos (by simp), acceptedAll?, accepted?_within, accepted, if_pos rfl]
    rfl
  · rw [List.filter_cons_of_neg (by simpa using here), if_neg (Ne.symm here), List.append_nil]

/-! ## All texts -/

theorem acceptedAll?_isSome_iff (known : List Pattern) (texts : List (String × String)) :
    (acceptedAll? known texts).isSome ↔
      ∀ n, (acceptedAll? (within n known) (textsOf n texts)).isSome := by
  induction texts generalizing known with
  | nil => exact ⟨fun _ _ => rfl, fun _ => rfl⟩
  | cons text rest ih =>
      obtain ⟨ns, content⟩ := text
      cases accepted : accepted? known ns content with
      | none =>
          have refused :
              ¬(acceptedAll? (within ns known) (textsOf ns ((ns, content) :: rest))).isSome := by
            unfold textsOf
            rw [List.filter_cons_of_pos (by simp), acceptedAll?, accepted?_within, accepted]
            exact Bool.false_ne_true
          rw [acceptedAll?, accepted]
          exact ⟨fun taken => absurd taken Bool.false_ne_true, fun all => absurd (all ns) refused⟩
      | some added =>
          rw [acceptedAll?, accepted, Option.bind_some, ih]
          simp only [acceptedAll?_within_cons accepted]

theorem acceptedAll?_within {all : List Pattern} {texts : List (String × String)}
    (accepted : acceptedAll? known texts = some all) (n : String) :
    acceptedAll? (within n known) (textsOf n texts) = some (within n all) := by
  induction texts generalizing known with
  | nil =>
      obtain rfl := Option.some.inj accepted
      rfl
  | cons text rest ih =>
      obtain ⟨ns, content⟩ := text
      obtain ⟨added, first, later⟩ := Option.bind_eq_some_iff.mp accepted
      rw [acceptedAll?_within_cons first]
      exact ih later

theorem acceptedAll?_names {all : List Pattern} {texts : List (String × String)}
    (accepted : acceptedAll? known texts = some all) (apart : (known.map name).Nodup) :
    (all.map name).Nodup := by
  induction texts generalizing known with
  | nil =>
      obtain rfl := Option.some.inj accepted
      exact apart
  | cons text rest ih =>
      obtain ⟨ns, content⟩ := text
      obtain ⟨added, first, later⟩ := Option.bind_eq_some_iff.mp accepted
      refine ih later ?_
      rw [← (accepted?_eq_some_iff.mp first).2.2]
      exact Source.read_names ⟨ns, none, known⟩ content.toList apart

end Texts

/-! ## Sessions -/

def ofText (text : String × String) : Addition := .text text.1 text.2

theorem length_carryOutAll (s : Compiler × Host) (calls : List Addition) :
    (carryOutAll s calls).1.length = calls.length := by
  induction calls generalizing s with
  | nil => rfl
  | cons call rest ih => exact congrArg (· + 1) (ih (carryOut s call).2)

theorem Live.addText_eq {c : Compiler} {h : Host} {known : List Pattern} (live : c.Live h known)
    (usable : c.failed = none) (ns content : String) :
    (∃ e, (c.addText ns content h).1 = .error e ∧ accepted? known ns content = none) ∨
      ∃ added, accepted? known ns content = some added ∧
        let (answer, next) := c.addText ns content h
        answer = .ok () ∧ next.1.Live next.2 (known ++ added) ∧ next.1.failed = none ∧
          next.1.failOnWarnings = c.failOnWarnings := by
  obtain ⟨goes, leaves⟩ := live.added_text usable ns content
  cases answer : (c.addText ns content h).1 with
  | error e =>
      refine .inl ⟨e, rfl, Option.eq_none_iff_forall_ne_some.mpr fun added accepted => ?_⟩
      obtain ⟨fit, clean, -⟩ := accepted?_eq_some_iff.mp accepted
      rw [goes.mpr ⟨fit, clean⟩] at answer
      contradiction
  | ok _ =>
      obtain ⟨fit, clean⟩ := goes.mp answer
      obtain ⟨lives, sound, _, strict⟩ := leaves answer
      exact .inr ⟨_, accepted?_eq_some_iff.mpr ⟨fit, clean, rfl⟩, answer, lives, sound, strict⟩

/-- The additions of texts all succeed if the texts are accepted; then the session holds their
patterns. -/
theorem Live.carryOutAll_texts {c : Compiler} {h : Host} {known : List Pattern}
    (live : c.Live h known) (usable : c.failed = none) (texts : List (String × String)) :
    let carried := carryOutAll (c, h) (texts.map ofText)
    ((∀ call ∈ carried.1, call.1 = .ok ()) ↔ (acceptedAll? known texts).isSome) ∧
      ∀ all, acceptedAll? known texts = some all → carried.2.1.Live carried.2.2 all ∧
        carried.2.1.failed = none ∧ carried.2.1.failOnWarnings = c.failOnWarnings := by
  induction texts generalizing c h known with
  | nil =>
      refine ⟨⟨fun _ => rfl, fun _ => by simp [carryOutAll]⟩, ?_⟩
      intro all accepted
      obtain rfl := Option.some.inj accepted
      exact ⟨live, usable, rfl⟩
  | cons text rest ih =>
      obtain ⟨ns, content⟩ := text
      have added := live.addText_eq usable ns content
      have carried : carryOutAll (c, h) (((ns, content) :: rest).map ofText) =
          (((c.addText ns content h).1, attempts (c, h) (.text ns content)) ::
            (carryOutAll (c.addText ns content h).2 (rest.map ofText)).1,
          (carryOutAll (c.addText ns content h).2 (rest.map ofText)).2) := rfl
      rw [carried, acceptedAll?]
      generalize c.addText ns content h = outcome at added
      obtain ⟨answer, next, after⟩ := outcome
      rcases added with ⟨e, refused, nothing⟩ | ⟨gained, accepted, rfl, lives, sound, strict⟩
      · obtain rfl : answer = .error e := refused
        rw [nothing]
        simp
      · obtain ⟨answers, holds⟩ := ih lives sound
        rw [accepted, Option.bind_some]
        dsimp only
        rw [List.forall_mem_cons]
        refine ⟨⟨fun every => answers.mp every.2, fun taken => ⟨rfl, answers.mpr taken⟩⟩, ?_⟩
        intro all later
        obtain ⟨lasts, usable, same⟩ := holds all later
        exact ⟨lasts, usable, same.trans strict⟩

/-- Where a session takes place, and whether warnings keep it from giving its rule set. -/
structure Setting where
  owner : Owner
  strict : Bool
  host : Host

structure Compiled where
  answers : List (Except Error Unit)
  result : Except Error RuleSet
  host : Host

namespace Setting

structure Ready (w : Setting) : Prop where
  started : w.owner.slot < w.host.engines.length
  genuine : (w.host.engine w.owner.slot).faults.Genuine

def compile (w : Setting) (texts : List (String × String)) : Compiled :=
  match create w.owner w.host with
  | (.error e, h) => ⟨[], .error e, h⟩
  | (.ok c, h) =>
    let carried := carryOutAll ({ c with failOnWarnings := w.strict }, h) (texts.map ofText)
    let produced := carried.2.1.rules carried.2.2
    ⟨carried.1.map Prod.fst, produced.1, produced.2⟩

theorem Ready.compile {w : Setting} (ready : w.Ready) (texts : List (String × String)) :
    (w.compile texts).answers.length = texts.length ∧
      ((∀ answer ∈ (w.compile texts).answers, answer = .ok ()) ↔ (acceptedAll? [] texts).isSome) ∧
      ∀ all, acceptedAll? [] texts = some all →
        (w.strict = false → ∃ s, (w.compile texts).result = .ok s) ∧
        ∀ s, (w.compile texts).result = .ok s →
          s.patterns? (w.compile texts).host = some all ∧
            ((w.compile texts).host.engine s.slot).faults.Genuine := by
  obtain ⟨c, begun, created, account⟩ := create_eq w.owner ready.started ready.genuine
  let start := ({ c with failOnWarnings := w.strict }, begun)
  let carried := carryOutAll start (texts.map ofText)
  have fresh : Account w.strict [] start := account w.strict
  have compiled : w.compile texts = ⟨carried.1.map Prod.fst,
      (carried.2.1.rules carried.2.2).1, (carried.2.1.rules carried.2.2).2⟩ := by
    unfold Setting.compile
    rw [created]
  obtain ⟨answers, holds⟩ := fresh.live.carryOutAll_texts fresh.failed texts
  rw [compiled]
  refine ⟨?_, ?_, ?_⟩
  · rw [List.length_map, length_carryOutAll, List.length_map]
  · rw [List.forall_mem_map]
    exact answers
  · intro all accepted
    obtain ⟨live, usable, strict⟩ := holds all accepted
    by_cases warned : carried.2.1.failOnWarnings = true ∧ carried.2.1.warnings ≠ []
    · rw [carried.2.1.rules_of_warnings usable warned.1 warned.2]
      refine ⟨?_, nofun⟩
      intro lenient
      have kept : carried.2.1.failOnWarnings = false := strict.trans lenient
      exact absurd (warned.1.symm.trans kept) Bool.noConfusion
    · obtain ⟨s, after, answer, holds, _, faults⟩ := live.rules usable warned
      rw [answer]
      refine ⟨fun _ => ⟨s, rfl⟩, ?_⟩
      intro made same
      obtain rfl := Except.ok.inj same
      exact ⟨holds, faults ▸ live.genuine⟩

end Setting

end Compiler

/-! ## Scans -/

namespace Rule

theorem ns_toRule (e : Event) : e.toRule.ns = e.ns :=
  (records_toRule e).ns

end Rule

namespace RuleSet

theorem reported_eq (s : RuleSet) {h : Host} {patterns : List Pattern}
    (live : s.patterns? h = some patterns) (genuine : (h.engine s.slot).faults.Genuine)
    (data : Bytes) (options : ScanOptions) :
    s.reported data options h = if data = [] then [] else Pattern.rulesIn data patterns := by
  unfold reported
  split
  case isTrue empty =>
    rw [empty]
    rfl
  case isFalse filled =>
    obtain ⟨after, scanned⟩ := s.scanBuffer_collect live genuine.scan filled options
    rw [scanned]

theorem rulesIn_within (data : Bytes) (n : String) (patterns : List Pattern) :
    (rulesIn data patterns).filter (·.ns = n) = rulesIn data (Compiler.within n patterns) := by
  unfold rulesIn Compiler.within
  rw [List.filter_map, List.filter_filter, List.filter_filter]
  congr 2
  funext p
  rw [Function.comp_apply, Rule.ns_toRule, Bool.and_comm]

end RuleSet

namespace Compiler

/-- Texts of any namespaces in one session, and those of each namespace in a session of its own. -/
theorem namespaces_apart (together : Setting) (alone : String → Setting)
    (ready : together.Ready) (readies : ∀ n, (alone n).Ready) (texts : List (String × String)) :
    let whole := together.compile texts
    let own := fun n => (alone n).compile (textsOf n texts)
    (whole.answers.length = texts.length ∧
        ∀ n, (own n).answers.length = (textsOf n texts).length) ∧
      ((∀ answer ∈ whole.answers, answer = .ok ()) ↔
        ∀ n, ∀ answer ∈ (own n).answers, answer = .ok ()) ∧
      ((∀ answer ∈ whole.answers, answer = .ok ()) →
        (together.strict = false → ∃ s, whole.result = .ok s) ∧
        (∀ n, (alone n).strict = false → ∃ t, (own n).result = .ok t) ∧
        ∀ s, whole.result = .ok s →
          (∃ patterns, s.patterns? whole.host = some patterns ∧ (patterns.map name).Nodup) ∧
          ∀ n t, (own n).result = .ok t → ∀ data options others,
            (s.reported data options whole.host).filter (·.ns = n) =
              t.reported data others (own n).host) := by
  intro whole own
  obtain ⟨length, answers, holds⟩ := ready.compile texts
  have owns (n : String) := (readies n).compile (textsOf n texts)
  refine ⟨⟨length, fun n => (owns n).1⟩, ?_, ?_⟩
  · rw [answers, acceptedAll?_isSome_iff]
    exact forall_congr' fun n => (owns n).2.1.symm
  · intro succeeded
    obtain ⟨all, accepted⟩ := Option.isSome_iff_exists.mp (answers.mp succeeded)
    have cut (n : String) := acceptedAll?_within accepted n
    refine ⟨(holds all accepted).1, fun n => ((owns n).2.2 _ (cut n)).1, ?_⟩
    intro s result
    obtain ⟨live, genuine⟩ := (holds all accepted).2 s result
    refine ⟨⟨all, live, acceptedAll?_names accepted List.nodup_nil⟩, ?_⟩
    intro n t made data options others
    obtain ⟨lives, genuines⟩ := ((owns n).2.2 _ (cut n)).2 t made
    rw [s.reported_eq live genuine, t.reported_eq lives genuines]
    split
    · rfl
    · exact RuleSet.rulesIn_within data n all

theorem namespaces_apart_of_shared_names :
    let w : Setting := ⟨⟨0⟩, false, ⟨⟨[], []⟩, .ofText "", [{ holders := 1 }], {}, [], 0⟩⟩
    let texts := [("a", "one x"), ("b", "one x"), ("a", "two y")]
    ∃ s t, (w.compile texts).result = .ok s ∧
      (w.compile [("a", "one x"), ("a", "two y")]).result = .ok t ∧
      (s.reported [120, 121] {} (w.compile texts).host).filter (·.ns = "a") =
        t.reported [120, 121] {} (w.compile [("a", "one x"), ("a", "two y")]).host := by
  intro w texts
  have ready : w.Ready := ⟨by decide, rfl⟩
  have own : textsOf "a" texts = [("a", "one x"), ("a", "two y")] := by decide
  have answers : (w.compile texts).answers = [.ok (), .ok (), .ok ()] := rfl
  obtain ⟨_, _, apart⟩ := namespaces_apart w (fun _ => w) ready (fun _ => ready) texts
  obtain ⟨given, givens, same⟩ := apart (by simp [answers])
  obtain ⟨s, whole⟩ := given rfl
  obtain ⟨t, part⟩ := givens "a" rfl
  rw [← own]
  exact ⟨s, t, whole, part, (same s whole).2 "a" t part _ _ _⟩

end Compiler

end Needle
