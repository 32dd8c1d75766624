import Needle.Json.Reader

/-!
# Records and lists as they are read back

A record with distinct keys is read back with the values it was made of, in the order of its keys,
and a list whose items are read back is read back as a whole.
-/
set_option autoImplicit false

namespace Needle.Json

theorem filter_key {fields : List (String × Json)} (distinct : (fields.map Prod.fst).Nodup)
    {name : String} {v : Json} (member : (name, v) ∈ fields) :
    (fields.map fun (key, v) => (some key, v)).filter (fun f => f.1 == some name) =
      [(some name, v)] := by
  induction fields with
  | nil => cases member
  | cons field fields ih =>
      obtain ⟨key, w⟩ := field
      rw [List.map_cons, List.nodup_cons] at distinct
      rcases List.mem_cons.mp member with here | later
      · obtain ⟨rfl, rfl⟩ := Prod.mk.inj here
        have absent : (fields.map fun (key, v) => (some key, v)).filter
            (fun f => f.1 == some name) = [] := by
          rw [List.filter_eq_nil_iff]
          rintro ⟨other, u⟩ found same
          obtain ⟨⟨k, x⟩, inFields, pair⟩ := List.mem_map.mp found
          cases pair
          have equal : k = name := by simpa using same
          exact distinct.1 (List.mem_map.mpr ⟨(k, u), inFields, equal⟩)
        rw [List.map_cons, List.filter_cons_of_pos (by simp), absent]
      · have other : key ≠ name := by
          intro equal
          exact distinct.1 (List.mem_map.mpr ⟨(name, v), later, equal.symm⟩)
        rw [List.map_cons, List.filter_cons_of_neg (by simpa using other), ih distinct.2 later]

theorem mapM_map_of_each {ι α β : Type} (convert : α → Option β) (items : List ι) (key : ι → α)
    (value : ι → β) (each : ∀ i ∈ items, convert (key i) = some (value i)) :
    (items.map key).mapM convert = some (items.map value) := by
  induction items with
  | nil => rfl
  | cons i items ih =>
      rw [List.map_cons, List.mapM_cons, each i (List.mem_cons_self ..),
        ih fun other member => each other (List.mem_cons_of_mem i member)]
      rfl

theorem mapM_field?_record {fields : List (String × Json)}
    (distinct : (fields.map Prod.fst).Nodup) (part : List (String × Json))
    (known : ∀ f ∈ part, f ∈ fields) :
    (part.map Prod.fst).mapM (field? (fields.map fun (key, v) => (some key, v))) =
      some (part.map fun f => some f.2) := by
  apply mapM_map_of_each
  rintro ⟨name, v⟩ member
  rw [field?, filter_key distinct (known (name, v) member)]

theorem mapM_id_map_some {α : Type} (values : List α) :
    (values.map some).mapM id = some values := by
  have each := mapM_map_of_each id values some id fun _ _ => rfl
  rwa [List.map_id] at each

/-- A record with distinct keys has its own values under its own names. -/
theorem record?_record (fields : List (String × Json)) (names : List String)
    (named : fields.map Prod.fst = names) (distinct : names.Nodup) :
    record? names (record fields) = some ⟨false, fields.map fun f => some f.2⟩ := by
  subst named
  have keys : (fields.map fun (key, v) => ((some key, v) : Option String × Json)).all
      (fun f => f.1.isSome) = true := by
    simp [List.all_map, Function.comp_def]
  rw [record, record?, if_pos keys, mapM_field?_record distinct fields fun f member => member]
  rfl

theorem fullRecord?_record (fields : List (String × Json)) (names : List String)
    (named : fields.map Prod.fst = names) (distinct : names.Nodup) :
    fullRecord? names (record fields) = some (fields.map Prod.snd) := by
  have values := mapM_id_map_some (fields.map Prod.snd)
  rw [List.map_map] at values
  rw [fullRecord?, record?_record fields names named distinct]
  exact values

theorem asList?_map {α : Type} {write : α → Json} {item : Json → Option α} (items : List α)
    (each : ∀ a ∈ items, item (write a) = some a) :
    asList? item (.arr (items.map write)) = some items := by
  have all := mapM_map_of_each item items write id each
  rwa [List.map_id] at all

end Needle.Json
