import Needle.Proofs.Lookup
import Needle.Rule

/-!
# The metadata of a reported rule

An engine reports pairs in which a key may stand repeatedly. The rule's record has each key once, at
the place of its first pair and with the value of its last. `insertMeta` keeps this, whatever is
inserted, and moves no other key.
-/
set_option autoImplicit false

namespace Needle

namespace Rule

def keys (r : Rule) : List String :=
  r.metadata.map Prod.fst

def insertAll (r : Rule) (pairs : List (String × MetaValue)) : Rule :=
  pairs.foldl (fun r pair => r.insertMeta pair.1 pair.2) r

end Rule

def Event.more (e : Event) (pairs : List (String × MetaValue)) : Event :=
  { e with metadata := e.metadata ++ pairs }

theorem Event.more_cons (e : Event) (pair : String × MetaValue)
    (pairs : List (String × MetaValue)) :
    e.more (pair :: pairs) = (e.more [pair]).more pairs := by
  simp [Event.more]

namespace Rule

/-! ## One insertion among the pairs -/

theorem keys_setMeta (key : String) (value : MetaValue) (pairs : List (String × MetaValue)) :
    (setMeta key value pairs).map Prod.fst =
      if (pairs.map Prod.fst).contains key then pairs.map Prod.fst
      else pairs.map Prod.fst ++ [key] := by
  induction pairs with
  | nil => simp [setMeta]
  | cons pair pairs ih =>
      obtain ⟨k, v⟩ := pair
      by_cases here : k = key
      · simp [setMeta, here]
      · rw [setMeta, if_neg here, List.map_cons, ih, List.map_cons]
        by_cases later : key ∈ pairs.map Prod.fst
        · simp [later]
        · simp [later, Ne.symm here]

theorem lookup_setMeta (key : String) (value : MetaValue) (pairs : List (String × MetaValue))
    (other : String) :
    (setMeta key value pairs).lookup other =
      if other = key then some value else pairs.lookup other := by
  induction pairs with
  | nil =>
      by_cases same : other = key
      · simp [setMeta, same]
      · simp [setMeta, same, lookup_cons_of_ne]
  | cons pair pairs ih =>
      obtain ⟨k, v⟩ := pair
      by_cases here : k = key
      · subst here
        rw [setMeta, if_pos rfl]
        by_cases same : other = k
        · simp [same]
        · simp [same, lookup_cons_of_ne]
      · rw [setMeta, if_neg here]
        by_cases there : other = k
        · subst there
          simp [here]
        · rw [lookup_cons_of_ne _ v there, lookup_cons_of_ne _ v there, ih]

theorem getElem?_setMeta_of_ne {key other : String} (value : MetaValue)
    {pairs : List (String × MetaValue)} {v : MetaValue} {i : Nat} (apart : other ≠ key)
    (stands : pairs[i]? = some (other, v)) :
    (setMeta key value pairs)[i]? = some (other, v) := by
  induction pairs generalizing i with
  | nil => simp at stands
  | cons pair pairs ih =>
      obtain ⟨k, w⟩ := pair
      cases i with
      | zero =>
          have first : (k, w) = (other, v) := by simpa using stands
          cases first
          rw [setMeta, if_neg apart, List.getElem?_cons_zero]
      | succ i =>
          have later : pairs[i]? = some (other, v) := by simpa using stands
          by_cases here : k = key
          · rw [setMeta, if_pos here, List.getElem?_cons_succ, later]
          · rw [setMeta, if_neg here, List.getElem?_cons_succ, ih later]

/-! ## The record of an event -/

/-- The rule is the record of the event. Each key has the place of its first pair and the value of
its last. -/
structure Records (r : Rule) (e : Event) : Prop where
  identifier : r.identifier = e.identifier
  ns : r.ns = e.ns
  tags : r.tags = e.tags
  distinct : r.keys.Nodup
  order : r.keys = (e.metadata.map Prod.fst).eraseDups
  last : ∀ key, r.meta? key = e.metadata.reverse.lookup key

theorem Records.insertMeta {r : Rule} {e : Event} (records : r.Records e) (key : String)
    (value : MetaValue) : (r.insertMeta key value).Records (e.more [(key, value)]) := by
  have keys : (r.insertMeta key value).keys =
      if r.keys.contains key then r.keys else r.keys ++ [key] :=
    keys_setMeta key value r.metadata
  constructor
  case identifier => exact records.identifier
  case ns => exact records.ns
  case tags => exact records.tags
  case distinct =>
    rw [keys]
    split
    case isTrue known => exact records.distinct
    case isFalse new =>
      rw [List.contains_iff_mem] at new
      have apart : ∀ other ∈ r.keys, other ≠ key := by
        rintro other member rfl
        exact new member
      simpa [List.nodup_append, records.distinct] using apart
  case order =>
    rw [keys, records.order, Event.more, List.map_append, List.map_singleton, eraseDups_concat]
  case last =>
    intro other
    have found : (r.insertMeta key value).meta? other =
        if other = key then some value else r.meta? other :=
      lookup_setMeta key value r.metadata other
    rw [found, records.last, Event.more, List.reverse_append, List.reverse_singleton,
      List.singleton_append]
    by_cases same : other = key
    · simp [same]
    · rw [if_neg same, lookup_cons_of_ne _ value same]

theorem Records.insertAll {r : Rule} {e : Event} (records : r.Records e)
    (pairs : List (String × MetaValue)) : (r.insertAll pairs).Records (e.more pairs) := by
  induction pairs generalizing r e with
  | nil => simpa [Rule.insertAll, Event.more] using records
  | cons pair pairs ih =>
      rw [Event.more_cons]
      exact ih (records.insertMeta pair.1 pair.2)

theorem records_toRule (e : Event) : e.toRule.Records e := by
  have bare : (⟨e.identifier, e.ns, e.tags, []⟩ : Rule).Records
      ⟨e.identifier, e.ns, e.tags, []⟩ := by
    constructor <;> simp [keys, meta?]
  exact bare.insertAll e.metadata

/-! ## The keys that are not inserted -/

/-- From one rule to a later one only the `changed` keys have other values. No known key moves, and
new ones stand behind them. -/
structure Leaves (r later : Rule) (changed : List String) : Prop where
  order : r.keys <+: later.keys
  values : ∀ key, key ∉ changed → later.meta? key = r.meta? key
  places : ∀ (i : Nat) key value, r.metadata[i]? = some (key, value) → key ∉ changed →
    later.metadata[i]? = some (key, value)

theorem Leaves.trans {r s t : Rule} {first second : List String} (rs : r.Leaves s first)
    (st : s.Leaves t second) : r.Leaves t (first ++ second) := by
  constructor
  case order => exact rs.order.trans st.order
  case values =>
    intro key untouched
    rw [List.mem_append, not_or] at untouched
    rw [st.values key untouched.2, rs.values key untouched.1]
  case places =>
    intro i key value stands untouched
    rw [List.mem_append, not_or] at untouched
    exact st.places i key value (rs.places i key value stands untouched.1) untouched.2

theorem leaves_insertMeta (r : Rule) (key : String) (value : MetaValue) :
    r.Leaves (r.insertMeta key value) [key] := by
  constructor
  case order =>
    rw [keys, keys, insertMeta, keys_setMeta]
    split
    case isTrue known => exact List.prefix_rfl
    case isFalse new => exact List.prefix_append _ _
  case values =>
    intro other apart
    rw [List.mem_singleton] at apart
    rw [meta?, insertMeta, lookup_setMeta, if_neg apart, meta?]
  case places =>
    intro i other v stands apart
    rw [List.mem_singleton] at apart
    exact getElem?_setMeta_of_ne value apart stands

theorem leaves_insertAll (r : Rule) (pairs : List (String × MetaValue)) :
    r.Leaves (r.insertAll pairs) (pairs.map Prod.fst) := by
  induction pairs generalizing r with
  | nil => exact ⟨List.prefix_rfl, fun _ _ => rfl, fun _ _ _ stands _ => stands⟩
  | cons pair pairs ih => exact (leaves_insertMeta r pair.1 pair.2).trans (ih _)

end Rule

/-! ## An event's record, and what is inserted into it -/

/-- The rule of an event is its record. Insertions in any number leave it a record, of the event
with their pairs behind its own, and touch no key but theirs. -/
theorem Event.records_insertAll_toRule (e : Event) (pairs : List (String × MetaValue)) :
    e.toRule.Records e ∧ (e.toRule.insertAll pairs).Records (e.more pairs) ∧
      e.toRule.Leaves (e.toRule.insertAll pairs) (pairs.map Prod.fst) := by
  have records := Rule.records_toRule e
  exact ⟨records, records.insertAll pairs, Rule.leaves_insertAll e.toRule pairs⟩

example : (Event.toRule ⟨"r", "a", ["t"], [("k", .integer 1), ("l", .text "x"),
    ("k", .boolean true)]⟩).metadata = [("k", .boolean true), ("l", .text "x")] := by
  decide

end Needle
