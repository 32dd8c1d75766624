import Needle.Compiler
import Needle.Proofs.Engine.Resources
import Needle.Scan.Call

/-!
# Who holds an engine

An engine is held by its owner and by what it has made, and what it has made is what holds it. When
the last holder lets go, nothing is left in the engine, and it is stopped.
-/
set_option autoImplicit false

namespace Needle

namespace EngineSlot

def halt (slot : EngineSlot) : EngineSlot :=
  if slot.stopped then slot else { slot with engine := slot.engine.stop.2, stopped := true }

def letGo (slot : EngineSlot) : EngineSlot :=
  if slot.holders - 1 = 0 then { slot with holders := slot.holders - 1 }.halt
  else { slot with holders := slot.holders - 1 }

/-- An engine that has `held`, and as many holders as there are owners and things it has. -/
structure Tended (slot : EngineSlot) (start : Code) (owners : Nat) (held : List Resource) :
    Prop where
  engine : slot.engine.Keeps start held slot.stopped
  holders : slot.holders = owners + held.length
  single : owners ≤ 1
  stopped : slot.stopped = true ↔ start = Code.success ∧ slot.holders = 0
  unstarted : start ≠ Code.success → slot.holders = 0

variable {slot : EngineSlot} {start : Code} {owners : Nat} {held left : List Resource} {e : Engine}
  {r : Resource}

theorem Tended.perm (tended : slot.Tended start owners held) (same : held.Perm left) :
    slot.Tended start owners left :=
  { tended with
    engine := tended.engine.perm same
    holders := same.length_eq ▸ tended.holders }

/-- An engine that is held runs. -/
theorem Tended.runs (tended : slot.Tended start owners held) (busy : 0 < slot.holders) :
    start = Code.success ∧ slot.stopped = false ∧ slot.engine.Keeps start held false := by
  have started : start = Code.success := by
    by_contra failed
    have nobody := tended.unstarted failed
    omega
  have running : slot.stopped = false := by
    apply Bool.eq_false_iff.mpr
    intro stopped
    have nobody := (tended.stopped.mp stopped).2
    omega
  exact ⟨started, running, running ▸ tended.engine⟩

theorem Tended.use (tended : slot.Tended start owners held) (busy : 0 < slot.holders)
    (keeps : e.Keeps start held false) :
    ({ slot with engine := e } : EngineSlot).Tended start owners held :=
  { tended with engine := (tended.runs busy).2.1 ▸ keeps }

theorem Tended.make (tended : slot.Tended start owners held) (busy : 0 < slot.holders)
    (keeps : e.Keeps start (r :: held) false) :
    ({ slot with engine := e, holders := slot.holders + 1 } : EngineSlot).Tended start owners
      (r :: held) := by
  obtain ⟨started, running, _⟩ := tended.runs busy
  constructor
  case engine => exact running ▸ keeps
  case holders => exact congrArg (· + 1) tended.holders
  case single => exact tended.single
  case stopped => simp [running]
  case unstarted => exact fun failed => absurd started failed

theorem Tended.letGo (tended : slot.Tended start owners held) (busy : 0 < slot.holders)
    {fewer : Nat} (keeps : e.Keeps start left false) (single : fewer ≤ 1)
    (one : owners + held.length = fewer + left.length + 1) :
    ({ slot with engine := e } : EngineSlot).letGo.Tended start fewer left := by
  obtain ⟨started, running, _⟩ := tended.runs busy
  have remaining : slot.holders - 1 = fewer + left.length := by
    have holders := tended.holders
    omega
  unfold EngineSlot.letGo
  dsimp only
  split
  case isTrue nobody =>
    have none : left = [] := by
      apply List.eq_nil_of_length_eq_zero
      omega
    subst none
    unfold halt
    rw [if_neg (by simp [running])]
    constructor
    case engine => exact keeps.stop
    case holders => exact remaining
    case single => exact single
    case stopped => exact iff_of_true rfl ⟨started, nobody⟩
    case unstarted => exact fun failed => absurd started failed
  case isFalse somebody =>
    constructor
    case engine => exact running ▸ keeps
    case holders => exact remaining
    case single => exact single
    case stopped => simp [running, somebody]
    case unstarted => exact fun failed => absurd started failed

end EngineSlot

namespace Host

variable {h : Host} {i : Nat} {slot : EngineSlot}

theorem slot_of_found (found : h.engines[i]? = some slot) : h.slot i = slot := by
  unfold Host.slot
  rw [List.getD_eq_getElem?_getD, found]
  rfl

theorem set_same (found : h.engines[i]? = some slot) : h.engines.set i slot = h.engines := by
  obtain ⟨started, here⟩ := List.getElem?_eq_some_iff.mp found
  rw [← here, List.set_getElem_self]

/-- The slot of an engine was changed, and no other slot. -/
def Changes (h : Host) (i : Nat) (slot changed : EngineSlot) (after : Host) : Prop :=
  h.engines[i]? = some slot ∧ after.engines = h.engines.set i changed

variable {changed last : EngineSlot} {after final : Host}

theorem Changes.found (changes : h.Changes i slot changed after) :
    after.engines[i]? = some changed := by
  rw [changes.2]
  exact List.getElem?_set_self (List.getElem?_eq_some_iff.mp changes.1).1

theorem Changes.trans (first : h.Changes i slot changed after)
    (second : after.Changes i changed last final) : h.Changes i slot last final := by
  refine ⟨first.1, ?_⟩
  rw [second.2, first.2, List.set_set]

theorem changes_setSlot (found : h.engines[i]? = some slot) (change : EngineSlot → EngineSlot) :
    h.Changes i slot (change slot) (h.setSlot i change) := by
  refine ⟨found, ?_⟩
  unfold setSlot
  dsimp only
  rw [List.modify_eq_set_getElem?, found]
  rfl

theorem engine_of_found (found : h.engines[i]? = some slot) : h.engine i = slot.engine :=
  congrArg EngineSlot.engine (slot_of_found found)

theorem changes_call {α : Type} (found : h.engines[i]? = some slot) (f : Engine → α × Engine) :
    (h.call i f).1 = (f slot.engine).1 ∧
      h.Changes i slot { slot with engine := (f slot.engine).2 } (h.call i f).2 := by
  unfold Host.call
  rw [engine_of_found found]
  exact ⟨rfl, changes_setSlot found _⟩

theorem changes_stop (found : h.engines[i]? = some slot) :
    h.Changes i slot slot.halt (h.stop i).2 := by
  unfold Host.stop EngineSlot.halt
  rw [slot_of_found found]
  split
  case isTrue => exact ⟨found, (set_same found).symm⟩
  case isFalse =>
    have stopped := (changes_call found Engine.stop).2
    have marked := stopped.trans (changes_setSlot stopped.found fun s => { s with stopped := true })
    dsimp only
    split
    · exact marked
    · exact marked

theorem changes_release (found : h.engines[i]? = some slot) :
    h.Changes i slot slot.letGo (h.release i) := by
  have fewer := changes_setSlot found fun s => { s with holders := s.holders - 1 }
  unfold Host.release EngineSlot.letGo
  dsimp only
  rw [slot_of_found fewer.found]
  split
  case isTrue =>
    have stopped := fewer.trans (changes_stop fewer.found)
    split
    case h_1 ended => rw [ended] at stopped; exact stopped
    case h_2 ended => rw [ended] at stopped; exact stopped
  case isFalse => exact fewer

end Host

/-! ## All engines -/

def Compiler.key (c : Compiler) : Nat × Resource := (c.slot, .compiler c.handle)

def RuleSet.key (s : RuleSet) : Nat × Resource := (s.slot, .rules s.handle)

def heldOf (i : Nat) (keys : List (Nat × Resource)) : List Resource :=
  (keys.filter (·.1 = i)).map (·.2)

section Held

variable {i : Nat} {key : Nat × Resource} {keys other : List (Nat × Resource)}

theorem heldOf_cons_self (key : Nat × Resource) (keys : List (Nat × Resource)) :
    heldOf key.1 (key :: keys) = key.2 :: heldOf key.1 keys := by
  simp [heldOf]

theorem heldOf_cons_of_ne (apart : i ≠ key.1) : heldOf i (key :: keys) = heldOf i keys := by
  simp [heldOf, Ne.symm apart]

theorem heldOf_perm (same : keys.Perm other) (i : Nat) : (heldOf i keys).Perm (heldOf i other) :=
  (same.filter _).map _

theorem mem_heldOf (member : key ∈ keys) : key.2 ∈ heldOf key.1 keys := by
  apply List.mem_map_of_mem
  exact List.mem_filter.mpr ⟨member, by simp⟩

end Held

namespace Host

/-- The engines of a host are held by these owners, by their numbers, and by what these keys stand
for. -/
def Attended (h : Host) (owners : List Nat) (keys : List (Nat × Resource)) : Prop :=
  ∀ i, match h.engines[i]? with
    | none => owners.count i = 0 ∧ heldOf i keys = []
    | some slot => ∃ start, slot.Tended start (owners.count i) (heldOf i keys)

namespace Attended

variable {h after : Host} {owners fewer : List Nat} {keys left : List (Nat × Resource)} {i : Nat}
  {key : Nat × Resource} {slot changed : EngineSlot}

theorem congr (attended : h.Attended owners keys) (same : after.engines = h.engines) :
    after.Attended owners keys := by
  unfold Attended
  rw [same]
  exact attended

theorem perm (attended : h.Attended owners keys) (holders : owners.Perm fewer)
    (same : keys.Perm left) : h.Attended fewer left := by
  intro i
  have here := attended i
  rw [holders.count_eq i] at here
  cases found : h.engines[i]? with
  | none =>
      rw [found] at here
      exact ⟨here.1, (here.2 ▸ heldOf_perm same i).nil_eq.symm⟩
  | some slot =>
      rw [found] at here
      obtain ⟨start, tended⟩ := here
      exact ⟨start, tended.perm (heldOf_perm same i)⟩

structure Busy (h : Host) (owners : List Nat) (keys : List (Nat × Resource)) (i : Nat)
    (slot : EngineSlot) (start : Code) : Prop where
  found : h.engines[i]? = some slot
  tended : slot.Tended start (owners.count i) (heldOf i keys)
  busy : 0 < slot.holders

theorem of_owner (attended : h.Attended owners keys) (member : i ∈ owners) :
    ∃ slot start, Busy h owners keys i slot start := by
  have counted := List.count_pos_iff.mpr member
  have here := attended i
  cases found : h.engines[i]? with
  | none =>
      rw [found] at here
      omega
  | some slot =>
      rw [found] at here
      obtain ⟨start, tended⟩ := here
      have holders := tended.holders
      exact ⟨slot, start, found, tended, by omega⟩

theorem of_key (attended : h.Attended owners keys) (member : key ∈ keys) :
    ∃ slot start, Busy h owners keys key.1 slot start := by
  have held := mem_heldOf member
  have here := attended key.1
  cases found : h.engines[key.1]? with
  | none =>
      rw [found] at here
      rw [here.2] at held
      cases held
  | some slot =>
      rw [found] at here
      obtain ⟨start, tended⟩ := here
      have holders := tended.holders
      have some := List.length_pos_of_mem held
      exact ⟨slot, start, found, tended, by omega⟩

theorem Busy.keeps {start : Code} (busy : Busy h owners keys i slot start) :
    slot.engine.Keeps start (heldOf i keys) false :=
  (busy.tended.runs busy.busy).2.2

theorem change (attended : h.Attended owners keys) (changes : h.Changes i slot changed after)
    (tended : ∃ start, changed.Tended start (fewer.count i) (heldOf i left))
    (others : ∀ j, j ≠ i → fewer.count j = owners.count j ∧ heldOf j left = heldOf j keys) :
    after.Attended fewer left := by
  intro j
  by_cases here : j = i
  · subst here
    rw [changes.found]
    exact tended
  · obtain ⟨counted, held⟩ := others j here
    rw [changes.2, List.getElem?_set_ne (Ne.symm here), counted, held]
    exact attended j

/-- There is one more engine, and nobody holds another one than before. -/
theorem append (attended : h.Attended owners keys) (same : after.engines = h.engines ++ [slot])
    (tended : ∃ start, slot.Tended start (fewer.count h.engines.length) [])
    (others : ∀ j, j ≠ h.engines.length → fewer.count j = owners.count j) :
    after.Attended fewer keys := by
  intro j
  have here := attended j
  rw [same]
  by_cases last : j = h.engines.length
  · subst last
    rw [List.getElem?_eq_none (Nat.le_refl _)] at here
    rw [List.getElem?_concat_length, here.2]
    exact tended
  · have old : (h.engines ++ [slot])[j]? = h.engines[j]? := by
      rw [List.getElem?_append]
      split
      case isTrue => rfl
      case isFalse outside =>
        rw [List.getElem?_eq_none (Nat.not_lt.mp outside), List.getElem?_eq_none]
        rw [List.length_singleton]
        omega
    rw [old, others j last]
    exact here

theorem unheld (attended : h.Attended owners keys) : owners.count h.engines.length = 0 := by
  have here := attended h.engines.length
  rw [List.getElem?_eq_none (Nat.le_refl _)] at here
  exact here.1

variable {start : Code} {e : Engine}

/-- The engine was used, and has what it had. -/
theorem use (attended : h.Attended owners keys) (busy : Busy h owners keys i slot start)
    (keeps : e.Keeps start (heldOf i keys) false)
    (changes : h.Changes i slot { slot with engine := e } after) : after.Attended owners keys :=
  attended.change changes ⟨start, busy.tended.use busy.busy keeps⟩ fun _ _ => ⟨rfl, rfl⟩

/-- The engine has made something, which holds it. -/
theorem make (attended : h.Attended owners keys) (key : Nat × Resource)
    (busy : Busy h owners keys key.1 slot start)
    (keeps : e.Keeps start (key.2 :: heldOf key.1 keys) false)
    (changes : h.Changes key.1 slot { slot with engine := e, holders := slot.holders + 1 } after) :
    after.Attended owners (key :: keys) := by
  refine attended.change changes ⟨start, ?_⟩ fun j apart => ⟨rfl, heldOf_cons_of_ne apart⟩
  rw [heldOf_cons_self]
  exact busy.tended.make busy.busy keeps

/-- The engine has destroyed something, which lets go. -/
theorem unmake (attended : h.Attended owners (key :: keys))
    (busy : Busy h owners (key :: keys) key.1 slot start)
    (keeps : e.Keeps start (heldOf key.1 keys) false)
    (changes : h.Changes key.1 slot ({ slot with engine := e } : EngineSlot).letGo after) :
    after.Attended owners keys := by
  refine attended.change changes ⟨start, ?_⟩ fun j apart => ⟨rfl, (heldOf_cons_of_ne apart).symm⟩
  apply busy.tended.letGo busy.busy keeps busy.tended.single
  rw [heldOf_cons_self]
  rfl

/-- An owner lets go. -/
theorem leave (attended : h.Attended (i :: owners) keys)
    (busy : Busy h (i :: owners) keys i slot start)
    (changes : h.Changes i slot slot.letGo after) : after.Attended owners keys := by
  have counted : (i :: owners).count i = owners.count i + 1 := List.count_cons_self
  have single := busy.tended.single
  refine attended.change changes ⟨start, ?_⟩ ?_
  · apply busy.tended.letGo busy.busy busy.keeps
    · omega
    · omega
  · intro j apart
    exact ⟨(List.count_cons_of_ne (Ne.symm apart)).symm, rfl⟩

end Attended

end Host

end Needle
