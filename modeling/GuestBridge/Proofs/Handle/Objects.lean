import GuestBridge.Handle.Table
import Mathlib.Data.List.Nodup
import Mathlib.Data.List.Perm.Basic

/-!
# The objects of a handle table

`HandleTable.objects` lists what the live slots of a table hold. Creating appends to it, deleting
takes one object out (`objects_delete_perm`), and a table that holds nothing twice has every
object in one slot (`slot_unique`).
-/

set_option autoImplicit false

namespace GuestBridge.HandleTable

variable {α : Type} {t : HandleTable α}

/-- The objects in the live slots. -/
def objects (t : HandleTable α) : List α := t.slots.filterMap id

theorem objects_create (t : HandleTable α) (o : α) : (t.create o).2.objects = t.objects ++ [o] := by
  simp [objects, create]

theorem objects_createMany (t : HandleTable α) (os : List α) :
    (t.createMany os).2.objects = t.objects ++ os := by
  induction os generalizing t with
  | nil => simp [createMany]
  | cons o os ih =>
    simp only [createMany]
    rw [ih, objects_create, List.append_assoc, List.singleton_append]

/-- Emptying a slot takes out the object that it held. -/
theorem filterMap_set_none_perm {slots : List (Option α)} {i : Nat} {x : α}
    (h : slots[i]? = some (some x)) :
    (slots.filterMap id).Perm (x :: (slots.set i none).filterMap id) := by
  induction slots generalizing i with
  | nil => simp at h
  | cons s slots ih =>
    cases i with
    | zero =>
      simp only [List.getElem?_cons_zero, Option.some.injEq] at h
      subst h
      simp
    | succ i =>
      simp only [List.getElem?_cons_succ] at h
      have ih := ih h
      cases s with
      | none => simpa using ih
      | some y => simpa using (ih.cons y).trans (.swap x y _)

theorem objects_delete_perm {t' : HandleTable α} {h : UInt32} {x : α}
    (hd : t.delete h = .ok (x, t')) : t.objects.Perm (x :: t'.objects) := by
  obtain ⟨hg, rfl⟩ := delete_eq_ok_iff.1 hd
  exact filterMap_set_none_perm (get_eq_ok_iff.1 hg)

theorem mem_objects_iff {x : α} : x ∈ t.objects ↔ ∃ i : Nat, t.slots[i]? = some (some x) := by
  rw [← List.mem_iff_getElem?]
  simp [objects]

/-- In a table that holds nothing twice every object is in one slot. -/
theorem slot_unique (hn : t.objects.Nodup) {i j : Nat} {x : α}
    (hi : t.slots[i]? = some (some x)) (hj : t.slots[j]? = some (some x)) : i = j := by
  by_contra hne
  -- With slot `i` emptied, slot `j` still holds the object.
  have hp := filterMap_set_none_perm hi
  have hm : x ∈ (t.slots.set i none).filterMap id := by
    rw [List.mem_filterMap]
    refine ⟨some x, List.mem_of_getElem? (i := j) ?_, rfl⟩
    rw [List.getElem?_set_ne hne]
    exact hj
  exact (List.nodup_cons.1 (hp.nodup_iff.1 hn)).1 hm

end GuestBridge.HandleTable
