import Needle.Proofs.Json.Records

/-!
# Objects that are read as records

Which objects give a record, and which fields they leave out. The order of the keys does not matter,
nor do keys that the record does not know; a known key that stands twice, or a key that is no text,
makes the object unfit.
-/
set_option autoImplicit false

namespace Needle.Json

/-- Each of the names stands for the value beside it, or is left out where there is none. The other
keys may be any texts and stand for anything. -/
def Sets (fields : List (String × Option Json)) (members : List (Option String × Json)) : Prop :=
  (∀ m ∈ members, m.1.isSome) ∧
    ∀ f ∈ fields, members.filter (·.1 == some f.1) = (f.2.map fun v => (some f.1, v)).toList

/-- One change of an object that a record with these names does not notice. -/
inductive Rearranges (names : List String) :
    List (Option String × Json) → List (Option String × Json) → Prop
  | order {before after : List (Option String × Json)} (perm : before.Perm after) :
      Rearranges names before after
  | unknown {key : String} (other : key ∉ names) (v : Json) (members : List (Option String × Json)) :
      Rearranges names members ((some key, v) :: members)

/-- A key is no text, or one of the names stands more than once. -/
def Unfit (names : List String) (members : List (Option String × Json)) : Prop :=
  (∃ m ∈ members, m.1 = none) ∨ ∃ name ∈ names, 2 ≤ members.countP (·.1 == some name)

variable {fields : List (String × Option Json)} {names : List String} {name : String}
  {members before after : List (Option String × Json)} {v w : Json}

/-! ## Single fields -/

theorem field?_of_filter {given : Option Json}
    (one : members.filter (·.1 == some name) = (given.map fun v => (some name, v)).toList) :
    field? members name = some given := by
  rw [field?, one]
  cases given with
  | none => rfl
  | some v => rfl

theorem field?_of_several (several : 2 ≤ members.countP (·.1 == some name)) :
    field? members name = none := by
  rw [List.countP_eq_length_filter] at several
  unfold field?
  split
  case h_1 empty => simp [empty] at several
  case h_2 one => simp [one] at several
  case h_3 => rfl

theorem field?_congr (same : before.filter (·.1 == some name) = after.filter (·.1 == some name)) :
    field? before name = field? after name := by
  rw [field?, field?, same]

theorem field?_perm (perm : before.Perm after) : field? before name = field? after name := by
  have filtered := perm.filter (·.1 == some name)
  by_cases several : 2 ≤ before.countP (·.1 == some name)
  · have also : 2 ≤ after.countP (·.1 == some name) := perm.countP_eq _ ▸ several
    rw [field?_of_several several, field?_of_several also]
  · -- A list with at most one member has no other order.
    apply field?_congr
    rw [List.countP_eq_length_filter] at several
    generalize before.filter (·.1 == some name) = found at several filtered
    match found, several with
    | [], _ => exact filtered.nil_eq
    | [m], _ => exact filtered.singleton_eq
    | _ :: _ :: _, several => exact absurd (by simp) several

theorem field?_cons_of_ne {key : Option String} (other : key ≠ some name) (v : Json)
    (members : List (Option String × Json)) :
    field? ((key, v) :: members) name = field? members name :=
  field?_congr (List.filter_cons_of_neg (by simpa using other))

/-! ## Records -/

theorem record?_congr (texts : before.all (·.1.isSome) = after.all (·.1.isSome))
    (same : ∀ name ∈ names, field? before name = field? after name) :
    record? names (.obj before) = record? names (.obj after) := by
  have values : names.mapM (field? before) = names.mapM (field? after) := by
    induction names with
    | nil => rfl
    | cons name names ih =>
        rw [List.mapM_cons, List.mapM_cons, same name List.mem_cons_self,
          ih fun other member => same other (List.mem_cons_of_mem _ member)]
  rw [record?, record?, texts, values]

theorem record?_of_sets (sets : Sets fields members) :
    record? (fields.map Prod.fst) (.obj members) = some ⟨false, fields.map Prod.snd⟩ := by
  obtain ⟨texts, each⟩ := sets
  have values : (fields.map Prod.fst).mapM (field? members) = some (fields.map Prod.snd) :=
    mapM_map_of_each _ fields Prod.fst Prod.snd fun f member => field?_of_filter (each f member)
  rw [record?, if_pos (List.all_eq_true.mpr texts), values]
  rfl

theorem Rearranges.all_isSome (step : Rearranges names before after) :
    before.all (·.1.isSome) = after.all (·.1.isSome) := by
  cases step with
  | order perm => exact perm.all_eq
  | unknown other v => rfl

theorem Rearranges.record? (step : Rearranges names before after) :
    Json.record? names (.obj before) = Json.record? names (.obj after) := by
  apply record?_congr step.all_isSome
  intro name known
  cases step with
  | order perm => exact field?_perm perm
  | @unknown key other v =>
      have apart : some key ≠ some name := fun same => other (Option.some.inj same ▸ known)
      exact (field?_cons_of_ne apart v before).symm

theorem record?_of_unfit (unfit : Unfit names members) : record? names (.obj members) = none := by
  rcases unfit with ⟨m, member, noText⟩ | ⟨name, known, several⟩
  · have broken : ¬ members.all (·.1.isSome) = true := by
      rw [List.all_eq_true]
      intro texts
      simpa [noText] using texts m member
    rw [record?, if_neg broken]
  · have nothing : names.mapM (field? members) = none := by
      induction names with
      | nil => cases known
      | cons other names ih =>
          rw [List.mapM_cons]
          rcases List.mem_cons.mp known with rfl | later
          · rw [field?_of_several several]
            rfl
          · rw [ih later]
            cases field? members other <;> rfl
    rw [record?, nothing]
    split
    · rfl
    · rfl

end Needle.Json
