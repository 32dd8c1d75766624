import Mathlib.Data.List.Nodup
import Mathlib.Data.List.Perm.Basic
import Needle.Proofs.Host
import Needle.Proofs.Lookup

/-!
# What an engine makes and destroys

An engine gives out handles of compilers and of rule sets. Its trace tells which of them it has:
what was made and not destroyed. An orderly trace names nothing but what is there, and it comes to a
stop, which is its end, when nothing is.

Each function of an engine is one call in its trace, and `Keeps` says what the engine has before and
after it.
-/
set_option autoImplicit false

namespace Needle

inductive Resource where
  | compiler (handle : Handle)
  | rules (handle : Handle)
deriving DecidableEq

def Resource.handle : Resource → Handle
  | .compiler h => h
  | .rules h => h

namespace EngineCall

def makes? : EngineCall → Option Resource
  | .createCompiler (.ok h) => some (.compiler h)
  | .getRules _ (.ok h) => some (.rules h)
  | .load _ (.ok h) => some (.rules h)
  | _ => none

def destroys? : EngineCall → Option Resource
  | .destroyCompiler h => some (.compiler h)
  | .destroyRules h _ => some (.rules h)
  | _ => none

/-- What a call presents to the engine. -/
def names? : EngineCall → Option Resource
  | .start | .stop | .createCompiler _ | .load _ _ => none
  | .destroyCompiler h | .addFile h _ _ | .addText h _ _ | .getRules h _ => some (.compiler h)
  | .save h _ _ | .destroyRules h _ | .scanBuffer h _ _ _ | .scanFile h _ _ _ => some (.rules h)

def isStop : EngineCall → Bool
  | .stop => true
  | _ => false

end EngineCall

section Traces

variable {calls : List EngineCall} {call : EngineCall}

/-- How often a trace makes a resource. -/
def made (calls : List EngineCall) (r : Resource) : Nat := calls.countP fun c => c.makes? = some r

def destroyed (calls : List EngineCall) (r : Resource) : Nat :=
  calls.countP fun c => c.destroys? = some r

def stops (calls : List EngineCall) : Nat := calls.countP EngineCall.isStop

structure Orderly (calls : List EngineCall) : Prop where
  /-- What a call names was made, and is not destroyed yet. -/
  names : ∀ before call after, calls = before ++ call :: after →
    ∀ r, call.names? = some r → made before r = 1 ∧ destroyed before r = 0
  /-- Nothing is left when the engine is stopped, and nothing comes after it. -/
  stop : ∀ before after, calls = before ++ .stop :: after →
    after = [] ∧ ∀ r, destroyed before r = made before r

theorem made_concat (calls : List EngineCall) (call : EngineCall) (r : Resource) :
    made (calls ++ [call]) r = made calls r + if call.makes? = some r then 1 else 0 := by
  simp [made, List.countP_append, List.countP_singleton]

theorem destroyed_concat (calls : List EngineCall) (call : EngineCall) (r : Resource) :
    destroyed (calls ++ [call]) r =
      destroyed calls r + if call.destroys? = some r then 1 else 0 := by
  simp [destroyed, List.countP_append, List.countP_singleton]

theorem stops_concat (calls : List EngineCall) (call : EngineCall) :
    stops (calls ++ [call]) = stops calls + if call.isStop then 1 else 0 := by
  simp [stops, List.countP_append, List.countP_singleton]

theorem concat_split {before after : List EngineCall} {last : EngineCall}
    (split : calls ++ [last] = before ++ call :: after) :
    (before = calls ∧ call = last ∧ after = []) ∨ ∃ rest, calls = before ++ call :: rest := by
  rcases List.eq_nil_or_concat after with rfl | ⟨rest, final, rfl⟩
  · obtain ⟨rfl, same⟩ := List.append_inj' split rfl
    exact .inl ⟨rfl, (List.cons.inj same).1.symm, rfl⟩
  · rw [List.concat_eq_append, ← List.cons_append, ← List.append_assoc] at split
    exact .inr ⟨rest, (List.append_inj' split rfl).1⟩

theorem orderly_nil : Orderly [] := by
  constructor
  case names => simp
  case stop => simp

theorem Orderly.concat (orderly : Orderly calls) (running : stops calls = 0)
    (names : ∀ r, call.names? = some r → made calls r = 1 ∧ destroyed calls r = 0)
    (stop : call = .stop → ∀ r, destroyed calls r = made calls r) : Orderly (calls ++ [call]) := by
  constructor
  case names =>
    intro before middle after split
    rcases concat_split split with ⟨rfl, rfl, rfl⟩ | ⟨rest, old⟩
    · exact names
    · exact orderly.names before middle rest old
  case stop =>
    intro before after split
    rcases concat_split split with ⟨rfl, same, rfl⟩ | ⟨rest, old⟩
    · exact ⟨rfl, stop same.symm⟩
    · have never := List.countP_eq_zero.mp running .stop
      rw [old] at never
      exact absurd rfl (never (List.mem_append_right _ List.mem_cons_self))

end Traces

namespace Engine

def resources (e : Engine) : List Resource :=
  e.compilers.map (fun entry => .compiler entry.1) ++ e.ruleSets.map fun entry => .rules entry.1

/-- An engine has what is `held`, and its trace tells so. `start` is the status with which it
started. -/
structure Keeps (e : Engine) (start : Code) (held : List Resource) (stopped : Bool) : Prop where
  answers : e.faults = { start := start, stop := e.faults.stop, scans := e.faults.scans }
  tables : e.resources.Perm held
  orderly : Orderly e.calls
  balance : ∀ r, made e.calls r = destroyed e.calls r + held.count r
  once : ∀ r, made e.calls r ≤ 1
  fresh : ∀ r, e.last < r.handle → made e.calls r = 0
  stops : stops e.calls = if stopped then 1 else 0

variable {e after : Engine} {start : Code} {held left : List Resource} {stopped : Bool}
  {call : EngineCall} {r : Resource}

theorem Keeps.genuine (keeps : e.Keeps start held stopped) : e.faults.Genuine := by
  have answers := keeps.answers
  rw [answers]
  exact rfl

theorem Keeps.perm (keeps : e.Keeps start held stopped) (same : held.Perm left) :
    e.Keeps start left stopped :=
  { keeps with
    tables := keeps.tables.trans same
    balance := fun r => same.count_eq r ▸ keeps.balance r }

theorem Keeps.nodup (keeps : e.Keeps start held stopped) : held.Nodup := by
  apply List.nodup_iff_count_le_one.mpr
  intro r
  have balance := keeps.balance r
  have once := keeps.once r
  omega

theorem Keeps.present (keeps : e.Keeps start held stopped) (member : r ∈ held) :
    made e.calls r = 1 ∧ destroyed e.calls r = 0 := by
  have balance := keeps.balance r
  have once := keeps.once r
  have counted := List.count_pos_iff.mpr member
  omega

/-! ## What a call can do -/

/-- The engine has taken a call, and gives the same answers as before. -/
structure Took (e : Engine) (call : EngineCall) (after : Engine) : Prop where
  calls : after.calls = e.calls ++ [call]
  faults : after.faults = e.faults

theorem Keeps.take (keeps : e.Keeps start held false) (took : e.Took call after)
    (names : ∀ r, call.names? = some r → r ∈ held)
    (makes : ∀ r, call.makes? = some r → e.last < r.handle ∧ r.handle ≤ after.last)
    (grows : e.last ≤ after.last) (stop : call = .stop → held = [])
    (tables : after.resources.Perm left)
    (counts : ∀ r, left.count r + (if call.destroys? = some r then 1 else 0) =
      held.count r + if call.makes? = some r then 1 else 0) :
    after.Keeps start left call.isStop := by
  have balance (r : Resource) := keeps.balance r
  constructor
  case answers => rw [took.faults]; exact keeps.answers
  case tables => exact tables
  case orderly =>
    rw [took.calls]
    apply keeps.orderly.concat keeps.stops
    · exact fun r named => keeps.present (names r named)
    · intro stopping r
      rw [balance r, stop stopping, List.count_nil, Nat.add_zero]
  case balance =>
    intro r
    rw [took.calls, made_concat, destroyed_concat, balance r]
    have counted := counts r
    omega
  -- A handle above all earlier ones has not been made before.
  case once =>
    intro r
    rw [took.calls, made_concat]
    split
    case isTrue new => exact Nat.le_of_eq (congrArg (· + 1) (keeps.fresh r (makes r new).1))
    case isFalse => exact keeps.once r
  case fresh =>
    intro r above
    rw [took.calls, made_concat, keeps.fresh r (Nat.lt_of_le_of_lt grows above), Nat.zero_add]
    apply if_neg
    exact fun new => Nat.not_le.mpr above (makes r new).2
  case stops => rw [took.calls, stops_concat, keeps.stops, if_neg Bool.false_ne_true, Nat.zero_add]

theorem names_held (names : call.names? = some r) (member : r ∈ held) :
    ∀ other, call.names? = some other → other ∈ held := by
  intro other same
  obtain rfl := Option.some.inj (names.symm.trans same)
  exact member

/-- A call that makes nothing and destroys nothing. -/
structure Uses (call : EngineCall) (held : List Resource) : Prop where
  names : ∀ r, call.names? = some r → r ∈ held
  makes : call.makes? = none
  destroys : call.destroys? = none
  stays : call.isStop = false

theorem Keeps.use (keeps : e.Keeps start held false) (took : e.Took call after)
    (uses : Uses call held) (last : after.last = e.last) (tables : after.resources = e.resources) :
    after.Keeps start held false := by
  rw [← uses.stays]
  refine keeps.take took uses.names ?makes (Nat.le_of_eq last.symm) ?stop (tables ▸ keeps.tables)
    ?counts
  case makes => simp [uses.makes]
  case stop => rintro rfl; exact nomatch uses.stays
  case counts => simp [uses.makes, uses.destroys]

/-- A call that makes a resource under a new handle. -/
theorem Keeps.make (keeps : e.Keeps start held false) (took : e.Took call after)
    (names : ∀ r, call.names? = some r → r ∈ held) (makes : call.makes? = some r)
    (destroys : call.destroys? = none) (stays : call.isStop = false)
    (new : r.handle = e.last + 1) (last : after.last = e.last + 1)
    (tables : after.resources.Perm (r :: e.resources)) : after.Keeps start (r :: held) false := by
  rw [← stays]
  refine keeps.take took names ?makes ?grows ?stop (tables.trans (keeps.tables.cons r)) ?counts
  case makes =>
    intro other same
    obtain rfl := Option.some.inj (makes.symm.trans same)
    rw [new, last]
    exact ⟨Nat.lt_succ_self _, Nat.le_refl _⟩
  case grows => exact last ▸ Nat.le_succ _
  case stop => rintro rfl; contradiction
  case counts => simp [makes, destroys, List.count_cons]

/-- A call that destroys what it names. -/
theorem Keeps.destroy (keeps : e.Keeps start held false) (call : EngineCall)
    (took : e.Took call after) (split : held.Perm (r :: left)) (names : call.names? = some r)
    (makes : call.makes? = none) (destroys : call.destroys? = some r) (stays : call.isStop = false)
    (last : after.last = e.last) (tables : after.resources = e.resources.filter (· ≠ r)) :
    after.Keeps start left false := by
  have apart := List.nodup_cons.mp (split.nodup_iff.mp keeps.nodup)
  have others : (r :: left).filter (· ≠ r) = left := by
    rw [List.filter_cons_of_neg (by simp), List.filter_eq_self]
    intro other member
    simpa using ne_of_mem_of_not_mem member apart.1
  have remaining : after.resources.Perm left := by
    have filtered := (keeps.tables.trans split).filter (· ≠ r)
    rwa [others, ← tables] at filtered
  rw [← stays]
  have member : r ∈ held := split.mem_iff.mpr List.mem_cons_self
  refine keeps.take took (names_held names member) ?makes (Nat.le_of_eq last.symm) ?stop remaining
    ?counts
  case makes => simp [makes]
  case stop => rintro rfl; contradiction
  case counts =>
    intro other
    rw [split.count_eq]
    simp [makes, destroys, List.count_cons]

/-! ## Each function -/

theorem keeps_started (start stop scans : Code) :
    (fresh { start := start, stop := stop, scans := scans }).start.2.Keeps start [] false := by
  constructor
  case answers => rfl
  case tables => exact .nil
  case orderly => exact orderly_nil.concat rfl (by simp [EngineCall.names?]) (by simp)
  case balance => intro r; rfl
  case once => intro r; exact Nat.zero_le _
  case fresh => intro r _; rfl
  case stops => rfl

theorem Keeps.stop (keeps : e.Keeps start [] false) : e.stop.2.Keeps start [] true := by
  have took : e.Took .stop e.stop.2 := ⟨rfl, rfl⟩
  refine keeps.take took ?names ?makes (Nat.le_refl _) ?stop keeps.tables ?counts
  case names => simp [EngineCall.names?]
  case makes => simp [EngineCall.makes?]
  case stop => simp
  case counts => simp [EngineCall.makes?, EngineCall.destroys?]

theorem Keeps.createCompiler (keeps : e.Keeps start held false) : ∃ h,
    e.createCompiler.1 = .ok h ∧ e.createCompiler.2.Keeps start (.compiler h :: held) false := by
  unfold Engine.createCompiler
  rw [keeps.genuine.createCompiler]
  refine ⟨e.last + 1, rfl, ?_⟩
  refine keeps.make ⟨rfl, rfl⟩ ?_ rfl rfl rfl rfl rfl ?_
  · simp [EngineCall.names?]
  · simp [resources, trace]

theorem compiler?_of_mem {h : Handle} (member : .compiler h ∈ e.resources) :
    (e.compiler? h).isSome := by
  unfold compiler?
  rw [← any_key, List.any_eq_true]
  simp only [resources, List.mem_append, List.mem_map] at member
  rcases member with ⟨entry, found, same⟩ | ⟨_, _, other⟩
  · exact ⟨entry, found, by simpa using same⟩
  · cases other

theorem ruleSet?_of_mem {h : Handle} (member : .rules h ∈ e.resources) : (e.ruleSet? h).isSome := by
  unfold ruleSet?
  rw [← any_key, List.any_eq_true]
  simp only [resources, List.mem_append, List.mem_map] at member
  rcases member with ⟨_, _, other⟩ | ⟨entry, found, same⟩
  · cases other
  · exact ⟨entry, found, by simpa using same⟩

theorem Keeps.destroyCompiler {h : Handle} (keeps : e.Keeps start held false)
    (split : held.Perm (.compiler h :: left)) :
    (e.destroyCompiler h).Keeps start left false := by
  have there : ((e.trace (.destroyCompiler h)).compiler? h).isSome := by
    apply compiler?_of_mem (e := e)
    exact (keeps.tables.trans split).mem_iff.mpr List.mem_cons_self
  unfold Engine.destroyCompiler
  simp only [there, if_true]
  refine keeps.destroy (.destroyCompiler h) ⟨rfl, rfl⟩ split rfl rfl rfl rfl rfl ?_
  simp [resources, trace, List.filter_append, List.filter_map, Function.comp_def]

theorem addSource_kept (e : Engine) (h : Handle) (ns : String) (file : Option String)
    (text : String) :
    let added := (e.addSource h ns file text).2
    added.calls = e.calls ∧ added.faults = e.faults ∧ added.last = e.last ∧
      added.resources = e.resources := by
  unfold addSource
  split
  case h_1 => exact ⟨rfl, rfl, rfl, rfl⟩
  case h_2 session _ =>
    refine ⟨rfl, rfl, rfl, ?_⟩
    unfold resources
    dsimp only
    rw [List.map_map]
    congr 2
    funext entry
    dsimp only [Function.comp]
    split <;> rfl

theorem Keeps.addSource {h : Handle} (keeps : e.Keeps start held false) (uses : Uses call held)
    (ns : String) (file : Option String) (text : String) :
    ((e.trace call).addSource h ns file text).2.Keeps start held false := by
  obtain ⟨calls, faults, last, tables⟩ := (e.trace call).addSource_kept h ns file text
  exact keeps.use ⟨calls, faults⟩ uses last tables

theorem Keeps.addText {h : Handle} (keeps : e.Keeps start held false) (member : .compiler h ∈ held)
    (ns text : String) : (e.addText h ns text).2.Keeps start held false := by
  have uses : Uses (.addText h ns (Utf8.encode text).length) held :=
    ⟨names_held rfl member, rfl, rfl, rfl⟩
  unfold Engine.addText
  dsimp only [trace]
  rw [keeps.genuine.add]
  exact keeps.addSource uses ns none text

theorem Keeps.addFile {h : Handle} (keeps : e.Keeps start held false) (member : .compiler h ∈ held)
    (ns : String) (path : Path) (content : Except IoError String) :
    (e.addFile h ns path content).2.Keeps start held false := by
  have uses : Uses (.addFile h ns path) held := ⟨names_held rfl member, rfl, rfl, rfl⟩
  unfold Engine.addFile
  dsimp only [trace]
  rw [keeps.genuine.add]
  cases content with
  | ok text => exact keeps.addSource uses ns _ text
  | error cause => exact keeps.use ⟨rfl, rfl⟩ uses rfl rfl

/-- An answer with a handle: either there is a new rule set, or nothing has changed. -/
def Gives (start : Code) (held : List Resource) (answer : Except Code Handle × Engine) : Prop :=
  match answer.1 with
  | .ok h => answer.2.Keeps start (.rules h :: held) false
  | .error _ => answer.2.Keeps start held false

theorem Keeps.addRuleSet (keeps : e.Keeps start held false) (patterns : List Pattern)
    (names : ∀ r, call.names? = some r → r ∈ held)
    (makes : call.makes? = some (.rules (e.addRuleSet patterns).1))
    (destroys : call.destroys? = none) (stays : call.isStop = false) :
    ((e.addRuleSet patterns).2.trace call).Keeps start (.rules (e.addRuleSet patterns).1 :: held)
      false := by
  refine keeps.make ⟨rfl, rfl⟩ names makes destroys stays rfl rfl ?_
  simp only [resources, trace, Engine.addRuleSet, List.map_append, List.map_cons, List.map_nil]
  rw [← List.append_assoc]
  exact List.perm_append_singleton _ _

theorem Keeps.getRules {h : Handle} (keeps : e.Keeps start held false)
    (member : .compiler h ∈ held) : Gives start held (e.getRules h) := by
  have refused (code : Code) :
      Gives start held (.error code, e.trace (.getRules h (.error code))) :=
    keeps.use ⟨rfl, rfl⟩ ⟨names_held rfl member, rfl, rfl, rfl⟩ rfl rfl
  unfold Engine.getRules
  rw [keeps.genuine.getRules]
  cases e.compiler? h with
  | none => exact refused _
  | some session =>
      dsimp only
      split
      case isTrue => exact keeps.addRuleSet session.patterns (names_held rfl member) rfl rfl rfl
      case isFalse => exact refused _

theorem Keeps.load (keeps : e.Keeps start held false) (files : FileTree) (path : Path) :
    Gives start held (e.load files path) := by
  have names (answer : Except Code Handle) :
      ∀ r, (EngineCall.load path answer).names? = some r → r ∈ held := by
    simp [EngineCall.names?]
  have refused (code : Code) : Gives start held (.error code, e.trace (.load path (.error code))) :=
    keeps.use ⟨rfl, rfl⟩ ⟨names _, rfl, rfl, rfl⟩ rfl rfl
  unfold Engine.load
  rw [keeps.genuine.load]
  cases files.readFile (shownPath path) with
  | error _ => exact refused _
  | ok content =>
      dsimp only
      cases Pattern.load content with
      | error code => exact refused _
      | ok patterns => exact keeps.addRuleSet patterns (names _) rfl rfl rfl

theorem Keeps.save {h : Handle} (keeps : e.Keeps start held false) (member : .rules h ∈ held)
    (files : FileTree) (path : Path) : (e.save files h path).2.2.Keeps start held false := by
  have uses (answer : Code) : Uses (.save h path answer) held :=
    ⟨names_held rfl member, rfl, rfl, rfl⟩
  unfold Engine.save
  exact keeps.use ⟨rfl, rfl⟩ (uses _) rfl rfl

theorem Keeps.destroyRules {h : Handle} (keeps : e.Keeps start held false)
    (split : held.Perm (.rules h :: left)) :
    (e.destroyRules h).1 = Code.success ∧ (e.destroyRules h).2.Keeps start left false := by
  have there : (e.ruleSet? h).isSome := by
    apply ruleSet?_of_mem
    exact (keeps.tables.trans split).mem_iff.mpr List.mem_cons_self
  unfold Engine.destroyRules
  simp only [keeps.genuine.destroyRules, there, if_true, true_and]
  refine keeps.destroy (.destroyRules h _) ⟨rfl, rfl⟩ split rfl rfl rfl rfl rfl ?_
  simp [resources, trace, List.filter_append, List.filter_map, Function.comp_def]

theorem Keeps.scan {S : Type} {h : Handle} (keeps : e.Keeps start held false)
    (uses : Uses call held) (data : Bytes) :
    ((e.trace call).scan (S := S) h data).2.Keeps start held false := by
  unfold Engine.scan
  split
  · exact keeps.use ⟨rfl, rfl⟩ uses rfl rfl
  · exact keeps.use ⟨rfl, rfl⟩ uses rfl rfl

theorem Keeps.scanBuffer {S : Type} {h : Handle} (keeps : e.Keeps start held false)
    (member : .rules h ∈ held) (data : Bytes) (o : ScanOptions) :
    (e.scanBuffer (S := S) h data o).2.Keeps start held false := by
  have uses : Uses (.scanBuffer h data.length o.flags o.timeoutSecs.toOption) held :=
    ⟨names_held rfl member, rfl, rfl, rfl⟩
  unfold Engine.scanBuffer
  dsimp only [trace]
  rw [keeps.genuine.scan]
  exact keeps.scan uses data

theorem Keeps.scanFile {S : Type} {h : Handle} (keeps : e.Keeps start held false)
    (member : .rules h ∈ held) (files : FileTree) (path : Path) (o : ScanOptions) :
    (e.scanFile (S := S) files h path o).2.Keeps start held false := by
  have uses : Uses (.scanFile h path o.flags o.timeoutSecs.toOption) held :=
    ⟨names_held rfl member, rfl, rfl, rfl⟩
  unfold Engine.scanFile
  dsimp only [trace]
  rw [keeps.genuine.scan]
  dsimp only
  cases files.readFile (shownPath path) with
  | ok content => exact keeps.scan uses content
  | error _ => exact keeps.use ⟨rfl, rfl⟩ uses rfl rfl

end Engine

end Needle
