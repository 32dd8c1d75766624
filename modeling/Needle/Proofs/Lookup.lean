/-!
# Values under keys

Files, handles and running scans are kept as lists of pairs. What a look-up finds after one pair was
changed, added or taken out; and the list of different keys after one more.
-/
set_option autoImplicit false

namespace Needle

section Lookup

variable {K V : Type} [BEq K] [LawfulBEq K] [DecidableEq K]

omit [DecidableEq K] in
theorem lookup_cons_of_ne (entries : List (K × V)) {key other : K} (v : V) (apart : other ≠ key) :
    ((key, v) :: entries).lookup other = entries.lookup other := by
  rw [List.lookup_cons, beq_false_of_ne apart]

/-- `update` changes the values under one key. -/
theorem lookup_map_update {update : K × V → K × V} {key : K} {change : V → V}
    (updates : ∀ k v, update (k, v) = if k = key then (k, change v) else (k, v))
    (entries : List (K × V)) (other : K) :
    (entries.map update).lookup other =
      if other = key then (entries.lookup key).map change else entries.lookup other := by
  induction entries with
  | nil => simp
  | cons entry entries ih =>
      obtain ⟨k, v⟩ := entry
      rw [List.map_cons, updates]
      by_cases here : k = key
      · subst here
        by_cases same : other = k
        · subst same
          simp
        · simp [lookup_cons_of_ne, same, ih]
      · by_cases same : other = k
        · subst same
          simp [here]
        · simp [lookup_cons_of_ne, same, ih, here, Ne.symm here]

theorem lookup_append_singleton (entries : List (K × V)) (key : K) (v : V) (other : K) :
    (entries ++ [(key, v)]).lookup other =
      (entries.lookup other).or (if other = key then some v else none) := by
  rw [List.lookup_append]
  by_cases same : other = key
  · subst same
    simp
  · simp [lookup_cons_of_ne, same]

omit [DecidableEq K] in
theorem any_key (entries : List (K × V)) (key : K) :
    entries.any (·.1 == key) = (entries.lookup key).isSome := by
  induction entries with
  | nil => rfl
  | cons entry entries ih =>
      obtain ⟨k, v⟩ := entry
      rw [List.any_cons, ih]
      by_cases here : key = k
      · subst here
        simp
      · simp [lookup_cons_of_ne, here, Ne.symm here]

theorem lookup_filter_self (entries : List (K × V)) (key : K) :
    (entries.filter (·.1 ≠ key)).lookup key = none := by
  rw [List.lookup_eq_none_iff]
  intro entry member
  have apart : entry.1 ≠ key := by simpa using (List.mem_filter.mp member).2
  simpa using Ne.symm apart

theorem lookup_filter_of_ne (entries : List (K × V)) {key other : K} (apart : other ≠ key) :
    (entries.filter (·.1 ≠ key)).lookup other = entries.lookup other := by
  induction entries with
  | nil => rfl
  | cons entry entries ih =>
      obtain ⟨k, v⟩ := entry
      by_cases here : k = key
      · subst here
        rw [List.filter_cons_of_neg (by simp), ih, lookup_cons_of_ne entries v apart]
      · rw [List.filter_cons_of_pos (by simpa using here), List.lookup_cons, List.lookup_cons, ih]

omit [DecidableEq K] in
theorem mem_of_lookup {entries : List (K × V)} {key : K} {v : V}
    (found : entries.lookup key = some v) : (key, v) ∈ entries := by
  rw [List.lookup_eq_some_iff] at found
  obtain ⟨before, after, split, _⟩ := found
  simp [split]

end Lookup

theorem eraseDups_concat {A : Type} [BEq A] [LawfulBEq A] (keys : List A) (key : A) :
    (keys ++ [key]).eraseDups =
      if keys.eraseDups.contains key then keys.eraseDups else keys.eraseDups ++ [key] := by
  have known : keys.eraseDups.contains key = keys.contains key := by
    rw [Bool.eq_iff_iff, List.contains_iff_mem, List.contains_iff_mem, List.mem_eraseDups]
  rw [List.eraseDups_append, known]
  by_cases member : key ∈ keys
  · simp [List.removeAll, member]
  · simp [List.removeAll, List.eraseDups_cons, member]

end Needle
