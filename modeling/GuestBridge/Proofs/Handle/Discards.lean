import GuestBridge.Proofs.Handle.Deeds

/-!
# Emptying many slots

The slots of many handles are emptied one after another, and a handle that comes twice is one of a
deleted object by the second time. `HandleTable.taken` lists the objects that are found in doing so,
`HandleTable.refusal?` the first failure. Both can be told from the table as it was: the objects are
those of the first occurrences of the handles (`HandleTable.taken_eq`), and the failure is that of
the first handle that is forged, stale or repeated (`HandleTable.refusal?_of_first`).
-/

set_option autoImplicit false

namespace GuestBridge.HandleTable

variable {α : Type} {t : HandleTable α} {h : UInt32} {hs before after : List UInt32}

/-- The slot of a handle holds an object. -/
def Holds (t : HandleTable α) (h : UInt32) : Prop := ∃ x, t.slots[h.toNat]? = some (some x)

/-- Empties the slots of handles, one after another. -/
def discardAll (t : HandleTable α) (hs : List UInt32) : HandleTable α := hs.foldl discard t

/-- The objects that are found in doing so. -/
def taken (t : HandleTable α) : List UInt32 → List α
  | [] => []
  | h :: hs => (t.get h).toOption.toList ++ (t.discard h).taken hs

/-- Why the first handle not to resolve in doing so does not. -/
def refusal? (t : HandleTable α) : List UInt32 → Option RegistryError
  | [] => none
  | h :: hs =>
    match t.get h with
    | .ok _ => (t.discard h).refusal? hs
    | .error e => some e

theorem holds_iff : t.Holds h ↔ ∃ x, t.get h = .ok x := by
  unfold Holds
  simp only [get_eq_ok_iff]

/-! ## Emptying slots -/

theorem getElem?_discard (t : HandleTable α) (h : UInt32) (i : Nat) :
    (t.discard h).slots[i]? = if h.toNat = i then t.slots[i]?.map fun _ => none else t.slots[i]? :=
  List.getElem?_set'

theorem discard_discard (t : HandleTable α) (h : UInt32) :
    (t.discard h).discard h = t.discard h := by
  unfold discard
  rw [List.set_set]

theorem discard_comm (t : HandleTable α) {h h' : UInt32} (hne : h ≠ h') :
    (t.discard h).discard h' = (t.discard h').discard h := by
  unfold discard
  rw [List.set_comm _ _ fun hn => hne (UInt32.toNat_inj.1 hn)]

theorem get_discard_self (t : HandleTable α) (h : UInt32) :
    ∃ e, (t.discard h).get h = .error e := by
  rw [get_discard, if_pos rfl]
  rcases t.get h with e | x
  · exact ⟨e, rfl⟩
  · exact ⟨.deleted t.kind h, rfl⟩

theorem holds_discard {h' : UInt32} : (t.discard h).Holds h' ↔ h ≠ h' ∧ t.Holds h' := by
  rw [holds_iff, holds_iff]
  by_cases he : h = h'
  · subst he
    obtain ⟨e, he⟩ := t.get_discard_self h
    simp [he]
  · rw [get_discard, if_neg he]
    simp [he]

theorem discardAll_cons (t : HandleTable α) (h : UInt32) (hs : List UInt32) :
    t.discardAll (h :: hs) = (t.discard h).discardAll hs := rfl

theorem kind_discardAll (t : HandleTable α) (hs : List UInt32) :
    (t.discardAll hs).kind = t.kind := by
  induction hs generalizing t with
  | nil => rfl
  | cons h hs ih => exact ih (t.discard h)

/-- Slots of other handles are not touched. -/
theorem getElem?_discardAll_of_ne {i : Nat} (hi : ∀ h ∈ hs, h.toNat ≠ i) :
    (t.discardAll hs).slots[i]? = t.slots[i]? := by
  induction hs generalizing t with
  | nil => rfl
  | cons x hs ih =>
    obtain ⟨hx, hrest⟩ := List.forall_mem_cons.1 hi
    rw [discardAll_cons, ih hrest, getElem?_discard, if_neg hx]

/-- The slots of the handles are emptied. -/
theorem getElem?_discardAll_of_mem (hm : h ∈ hs) :
    (t.discardAll hs).slots[h.toNat]? = t.slots[h.toNat]?.map fun _ => none := by
  induction hs generalizing t with
  | nil => cases hm
  | cons x hs ih =>
    rw [discardAll_cons]
    by_cases hin : h ∈ hs
    · rw [ih hin, getElem?_discard]
      split
      · cases t.slots[h.toNat]? <;> rfl
      · rfl
    · obtain rfl : h = x := (List.mem_cons.1 hm).resolve_right hin
      have hrest : ∀ x ∈ hs, x.toNat ≠ h.toNat := by
        intro x hx he
        exact hin (UInt32.toNat_inj.1 he ▸ hx)
      rw [getElem?_discardAll_of_ne hrest, getElem?_discard, if_pos rfl]

/-! ## The objects found -/

/-- A handle finds nothing once its slot was emptied. -/
theorem taken_discard (t : HandleTable α) (h : UInt32) (hs : List UInt32) :
    (t.discard h).taken hs = t.taken (hs.filter fun x => !x == h) := by
  induction hs generalizing t with
  | nil => rfl
  | cons x hs ih =>
    by_cases hx : x = h
    · subst hx
      obtain ⟨e, he⟩ := t.get_discard_self x
      rw [taken, he, discard_discard, ih, List.filter_cons_of_neg (by simp)]
      rfl
    · rw [taken, get_discard, if_neg (Ne.symm hx), discard_comm t (Ne.symm hx), ih,
        List.filter_cons_of_pos (by simpa using hx), taken]

/-- The objects are those of the first occurrences of the handles. -/
theorem taken_eq (t : HandleTable α) (hs : List UInt32) :
    t.taken hs = hs.eraseDups.filterMap fun h => (t.get h).toOption := by
  cases hs with
  | nil => rfl
  | cons h hs =>
    -- What follows a handle is looked at without its repetitions.
    have hrest := taken_eq t (hs.filter fun x => !x == h)
    rw [taken, taken_discard, hrest, List.eraseDups_cons, List.filterMap_cons]
    cases (t.get h).toOption <;> rfl
termination_by hs.length
decreasing_by
  have hle := List.length_filter_le (fun x => !x == h) hs
  simp only [List.length_cons]
  omega

/-! ## The first failure -/

theorem refusal?_append (t : HandleTable α) (before after : List UInt32) :
    t.refusal? (before ++ after) =
      (t.refusal? before).or ((t.discardAll before).refusal? after) := by
  induction before generalizing t with
  | nil => rfl
  | cons h before ih =>
    rw [List.cons_append, refusal?, refusal?]
    rcases t.get h with e | x
    · rfl
    · exact ih (t.discard h)

theorem refusal?_eq_none_iff : t.refusal? hs = none ↔ hs.Nodup ∧ ∀ h ∈ hs, t.Holds h := by
  induction hs generalizing t with
  | nil => simp [refusal?]
  | cons h hs ih =>
    rw [refusal?, List.nodup_cons, List.forall_mem_cons]
    rcases hg : t.get h with e | x
    · have hnot : ¬ t.Holds h := by
        rw [holds_iff, hg]
        exact fun ⟨_, hx⟩ => (by cases hx)
      exact ⟨nofun, fun hall => absurd hall.2.1 hnot⟩
    · have hh : t.Holds h := holds_iff.2 ⟨x, hg⟩
      show (t.discard h).refusal? hs = none ↔ _
      rw [ih]
      simp only [holds_discard]
      constructor
      · rintro ⟨hn, hall⟩
        exact ⟨⟨fun hm => (hall h hm).1 rfl, hn⟩, hh, fun x hx => (hall x hx).2⟩
      · rintro ⟨⟨hm, hn⟩, -, hall⟩
        exact ⟨hn, fun x hx => ⟨fun he => hm (he ▸ hx), hall x hx⟩⟩

/-- After handles that are all different and hold objects, one that was never issued is out of
range, and one whose object was deleted is refused, be it by one of them or before. -/
theorem refusal?_of_first (hn : before.Nodup) (hb : ∀ x ∈ before, t.Holds x) (h : UInt32)
    (after : List UInt32) :
    (t.len ≤ h.toNat → t.refusal? (before ++ h :: after) = some (.outOfRange t.kind h)) ∧
    (h ∈ before ∨ t.slots[h.toNat]? = some none →
      t.refusal? (before ++ h :: after) = some (.deleted t.kind h)) := by
  have hnone : t.refusal? before = none := refusal?_eq_none_iff.2 ⟨hn, hb⟩
  have hslot : h ∉ before → (t.discardAll before).slots[h.toNat]? = t.slots[h.toNat]? := by
    intro hm
    apply getElem?_discardAll_of_ne
    intro x hx he
    exact hm (UInt32.toNat_inj.1 he ▸ hx)
  rw [refusal?_append, hnone, Option.none_or, refusal?, ← kind_discardAll t before]
  constructor
  · intro hle
    have hout : t.slots[h.toNat]? = none := List.getElem?_eq_none hle
    have hm : h ∉ before := by
      intro hm
      obtain ⟨x, hx⟩ := hb h hm
      cases hout.symm.trans hx
    unfold get
    rw [hslot hm, hout]
  · intro hdel
    have hempty : (t.discardAll before).slots[h.toNat]? = some none := by
      by_cases hm : h ∈ before
      · obtain ⟨x, hx⟩ := hb h hm
        rw [getElem?_discardAll_of_mem hm, hx]
        rfl
      · rw [hslot hm]
        exact hdel.resolve_left hm
    unfold get
    rw [hempty]

end GuestBridge.HandleTable
