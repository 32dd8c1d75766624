import Needle.Proofs.Lookup
import Needle.Scan.Table

/-!
# Operations on the table of running scans

What each operation does to the slot of every scan: registering and finishing add and take away one
slot, entering and settling change one, and all others stay as they are. No operation puts two slots
under one number.
-/
set_option autoImplicit false

namespace Needle.ScanTable

theorem slot?_insert (t : ScanTable) (thread : ThreadId) (id other : ScanId) :
    (t.insert thread id).slot? other =
      if other = id then some ⟨thread, false, none⟩ else t.slot? other := by
  rw [slot?, insert, lookup_append_singleton]
  by_cases same : other = id
  · subst same
    rw [lookup_filter_self]
    simp
  · rw [lookup_filter_of_ne t.slots same]
    simp [same, slot?]

theorem slot?_update (t : ScanTable) (id : ScanId) (change : ScanSlot → ScanSlot) (other : ScanId) :
    (t.update id change).slot? other =
      if other = id then (t.slot? id).map change else t.slot? other :=
  lookup_map_update (fun _ _ => rfl) t.slots other

theorem slot?_finish (t : ScanTable) (id other : ScanId) :
    (t.finish id).2.slot? other = if other = id then none else t.slot? other := by
  by_cases same : other = id
  · subst same
    rw [if_pos rfl]
    exact lookup_filter_self t.slots other
  · rw [if_neg same]
    exact lookup_filter_of_ne t.slots same

/-- A report is let through to an idle scan of its thread, and to no other. -/
theorem enter_eq_ok_iff {t entered : ScanTable} {thread : ThreadId} {id : ScanId} :
    t.enter thread id = .ok entered ↔
      ∃ slot, t.slot? id = some slot ∧ slot.thread = thread ∧ slot.busy = false ∧
        entered = t.update id fun s => { s with busy := true } := by
  unfold enter
  cases found : t.slot? id with
  | none => simp
  | some slot =>
      by_cases own : slot.thread = thread
      · cases busy : slot.busy with
        | true => simp [own, busy]
        | false =>
            simp only [own, busy, ne_eq, not_true_eq_false, if_false, Bool.false_eq_true,
              Except.ok.injEq, Option.some.injEq]
            constructor
            · intro same
              exact ⟨slot, rfl, own, busy, same.symm⟩
            · rintro ⟨_, _, _, _, same⟩
              exact same.symm
      · simp [own]

/-- A report is refused exactly when the scan is unknown, foreign or busy. -/
theorem enter_refused_iff {t : ScanTable} {thread : ThreadId} {id : ScanId} :
    (∃ refusal, t.enter thread id = .error refusal) ↔
      ∀ slot, t.slot? id = some slot → slot.thread ≠ thread ∨ slot.busy = true := by
  unfold enter
  cases found : t.slot? id with
  | none => simp
  | some slot =>
      by_cases own : slot.thread = thread
      · cases busy : slot.busy with
        | true => simp [own, busy]
        | false => simp [own, busy]
      · simp [own]

def settled (slot : ScanSlot) : Reply → ScanSlot
  | .verdict _ => { slot with busy := false }
  | .panic text => { slot with busy := false, panic := some text }

@[simp]
theorem settled_thread (slot : ScanSlot) (reply : Reply) :
    (settled slot reply).thread = slot.thread := by
  cases reply <;> rfl

@[simp]
theorem settled_busy (slot : ScanSlot) (reply : Reply) : (settled slot reply).busy = false := by
  cases reply <;> rfl

/-- What the engine gets for the end of a handler. -/
def answer : Reply → Verdict
  | .verdict v => v
  | .panic _ => .fail

theorem settle_of_slot {t : ScanTable} {id : ScanId} {slot : ScanSlot}
    (found : t.slot? id = some slot) (reply : Reply) :
    t.settle id reply = (.status (answer reply), t.update id fun s => settled s reply) := by
  unfold settle
  rw [found]
  cases reply with
  | verdict _ => rfl
  | panic _ => rfl

/-! ## Numbers -/

def ids (t : ScanTable) : List ScanId := t.slots.map Prod.fst

theorem mem_ids_iff {t : ScanTable} {id : ScanId} : id ∈ t.ids ↔ (t.slot? id).isSome := by
  rw [ids, slot?, List.lookup_isSome_iff, List.mem_map]
  simp only [beq_iff_eq, eq_comm (a := id)]

theorem ids_update (t : ScanTable) (id : ScanId) (change : ScanSlot → ScanSlot) :
    (t.update id change).ids = t.ids := by
  rw [ids, ids, update, List.map_map]
  apply List.map_congr_left
  intro entry _
  obtain ⟨k, s⟩ := entry
  dsimp only [Function.comp]
  split <;> rfl

theorem nodup_ids_update {t : ScanTable} (distinct : t.ids.Nodup) (id : ScanId)
    (change : ScanSlot → ScanSlot) : (t.update id change).ids.Nodup := by
  rw [ids_update]
  exact distinct

theorem nodup_ids_finish {t : ScanTable} (distinct : t.ids.Nodup) (id : ScanId) :
    (t.finish id).2.ids.Nodup :=
  distinct.sublist (List.filter_sublist.map Prod.fst)

theorem nodup_ids_insert {t : ScanTable} (distinct : t.ids.Nodup) (thread : ThreadId)
    (id : ScanId) : (t.insert thread id).ids.Nodup := by
  have others : ((t.slots.filter (·.1 ≠ id)).map Prod.fst).Nodup := nodup_ids_finish distinct id
  have absent : id ∉ (t.slots.filter (·.1 ≠ id)).map Prod.fst := by
    intro member
    obtain ⟨entry, kept, same⟩ := List.mem_map.mp member
    simp [same] at kept
  rw [ids, insert, List.map_append, List.map_singleton, List.nodup_append]
  refine ⟨others, by simp, ?_⟩
  intro a member b here
  rw [List.mem_singleton.mp here]
  rintro rfl
  exact absent member

end Needle.ScanTable
