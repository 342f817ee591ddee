import GuestBridge.Proofs.Handle.Deeds

/-!
# Changes of one table

A registry can come to differ from another in one table alone (`Registry.Apart`): new slots are
appended to it, with the next handles (`Registry.Appended`), or slots of it are emptied
(`Registry.Emptied`). `Registry.slots` shows the slots of all six tables alike.
-/

set_option autoImplicit false

namespace GuestBridge

/-! ## Tables -/

namespace HandleTable

variable {α : Type} (t : HandleTable α)

theorem slots_createMany (os : List α) : (t.createMany os).2.slots = t.slots ++ os.map some := by
  induction os generalizing t with
  | nil => simp [createMany]
  | cons o os ih => simp [createMany, ih, create]

@[simp] theorem kind_createMany (os : List α) : (t.createMany os).2.kind = t.kind := by
  induction os generalizing t with
  | nil => rfl
  | cons o os ih => exact ih (t.create o).2

theorem handles_createMany (os : List α) :
    (t.createMany os).1 = (List.range' t.len os.length).map UInt32.ofNat := by
  induction os generalizing t with
  | nil => rfl
  | cons o os ih =>
    have hlen : (t.create o).2.len = t.len + 1 := List.length_append
    show _ :: ((t.create o).2.createMany os).1 = _
    rw [ih, hlen, List.length_cons, List.range'_succ, List.map_cons]
    rfl

variable {t}

/-- In a table without empty slots a handle resolves if it was issued, and is out of range if
not. -/
theorem get_of_live (h : t.live = t.len) (handle : UInt32) :
    if t.len ≤ handle.toNat then t.get handle = .error (.outOfRange t.kind handle)
    else ∃ x, t.get handle = .ok x := by
  split
  · next hle =>
    unfold get
    rw [List.getElem?_eq_none hle]
  · next hlt =>
    have hlt : handle.toNat < t.slots.length := Nat.lt_of_not_le hlt
    have hsome := List.countP_eq_length.1 h _ (List.getElem_mem hlt)
    obtain ⟨x, hx⟩ := Option.isSome_iff_exists.1 hsome
    exact ⟨x, get_eq_ok_iff.2 (List.getElem?_eq_some_iff.2 ⟨hlt, hx⟩)⟩

end HandleTable

/-! ## Registries -/

namespace Registry

/-- What the slots of a class hold. -/
def slots (R : Registry) : ResourceClass → List (Option Resource)
  | .shader => R.shaders.slots.map (Option.map (.object .shader))
  | .program => R.programs.slots.map (Option.map (.object .program))
  | .buffer => R.buffers.slots.map (Option.map (.object .buffer))
  | .texture => R.textures.slots.map (Option.map (.object .texture))
  | .vertexArray => R.vertexArrays.slots.map (Option.map (.object .vertexArray))
  | .uniformLocation => R.locations.slots.map (Option.map .location)

theorem slots_resource (R : Registry) (c : ObjectClass) :
    R.slots c.resource = (R.table c).slots.map (Option.map (.object c)) := by
  cases c <;> rfl

theorem length_slots (R : Registry) (k : ResourceClass) : (R.slots k).length = R.len k := by
  cases k <;> exact List.length_map _

/-- Of the tables, at most that of class `k` is another one, and that is still one of class `k`. -/
structure Apart (R : Registry) (k : ResourceClass) (R' : Registry) : Prop where
  tables : ∀ c : ObjectClass, c.resource ≠ k → R'.table c = R.table c
  locations : k ≠ .uniformLocation → R'.locations = R.locations
  kinds : ∀ c, (R'.table c).kind = (R.table c).kind
  locationKind : R'.locations.kind = R.locations.kind

/-- The resources `xs` were put into new slots of class `k`, and these are their handles. -/
structure Appended (R : Registry) (k : ResourceClass) (xs : List Resource) (handles : List UInt32)
    (R' : Registry) : Prop extends R.Apart k R' where
  slots : R'.slots k = R.slots k ++ xs.map some
  handles : handles = (List.range' (R.len k) xs.length).map UInt32.ofNat

/-- Slots of class `c` were emptied. -/
structure Emptied (R : Registry) (c : ObjectClass) (R' : Registry) : Prop
    extends R.Apart c.resource R' where
  slots : List.Forall₂ (fun before after => after = before ∨ after = none) (R.table c).slots
    (R'.table c).slots

variable {R R' : Registry} {k k' : ResourceClass} {c : ObjectClass} {xs : List Resource}
  {handles : List UInt32}

namespace Apart

theorem refl (R : Registry) (k : ResourceClass) : R.Apart k R :=
  ⟨fun _ _ => rfl, fun _ => rfl, fun _ => rfl, rfl⟩

theorem trans {R'' : Registry} (h : R.Apart k R') (h' : R'.Apart k R'') : R.Apart k R'' where
  tables c hc := (h'.tables c hc).trans (h.tables c hc)
  locations hk := (h'.locations hk).trans (h.locations hk)
  kinds c := (h'.kinds c).trans (h.kinds c)
  locationKind := h'.locationKind.trans h.locationKind

theorem withTable (R : Registry) {c : ObjectClass} {t : HandleTable (Native c)}
    (h : t.kind = (R.table c).kind) : R.Apart c.resource (R.withTable c t) where
  tables d hd := table_withTable_of_ne _ _ fun he => hd (he ▸ rfl)
  locations _ := locations_withTable R c t
  kinds := kind_withTable h
  locationKind := by rw [locations_withTable]

theorem slots_eq (h : R.Apart k R') (hk : k' ≠ k) : R'.slots k' = R.slots k' := by
  have tables (c : ObjectClass) (hc : k' = c.resource) : R'.slots k' = R.slots k' := by
    subst hc
    rw [slots_resource, slots_resource, h.tables c hk]
  cases k' with
  | shader => exact tables .shader rfl
  | program => exact tables .program rfl
  | buffer => exact tables .buffer rfl
  | texture => exact tables .texture rfl
  | vertexArray => exact tables .vertexArray rfl
  | uniformLocation => rw [slots, slots, h.locations hk.symm]

end Apart

theorem Appended.refl (R : Registry) (k : ResourceClass) : R.Appended k [] [] R :=
  ⟨.refl R k, by simp, rfl⟩

theorem appended_createMany (R : Registry) (c : ObjectClass) (os : List (Native c)) :
    R.Appended c.resource (os.map (.object c)) ((R.table c).createMany os).1
      (R.withTable c ((R.table c).createMany os).2) where
  toApart := .withTable R (HandleTable.kind_createMany ..)
  slots := by
    rw [slots_resource, slots_resource, table_withTable, HandleTable.slots_createMany]
    simp
  handles := by rw [HandleTable.handles_createMany, len_resource, List.length_map]

theorem appended_add (R : Registry) (x : Resource) :
    R.Appended x.kind [x] [(R.add x).1] (R.add x).2 := by
  cases x with
  | object c o => exact R.appended_createMany c [o]
  | location l =>
    refine ⟨⟨fun c _ => by cases c <;> rfl, nofun, fun c => by cases c <;> rfl, rfl⟩, ?_, rfl⟩
    simp [slots, add, HandleTable.create, Resource.kind]

namespace Emptied

theorem refl (R : Registry) (c : ObjectClass) : R.Emptied c R :=
  ⟨.refl R _, List.forall₂_same.2 fun _ _ => .inl rfl⟩

theorem forall₂_set_none {α : Type} {before after : List (Option α)}
    (h : List.Forall₂ (fun before after => after = before ∨ after = none) before after) (i : Nat) :
    List.Forall₂ (fun before after => after = before ∨ after = none) before
      (after.set i none) := by
  induction h generalizing i with
  | nil => exact .nil
  | cons h hs ih =>
    cases i with
    | zero => exact .cons (.inr rfl) hs
    | succ i => exact .cons h (ih i)

/-- Emptying one more slot. -/
theorem discard (h : R.Emptied c R') (handle : UInt32) : R.Emptied c (R'.discard c handle) := by
  have hd : R'.Apart c.resource (R'.discard c handle) :=
    .withTable R' (t := (R'.table c).discard handle) rfl
  refine ⟨h.toApart.trans hd, ?_⟩
  rw [Registry.discard, table_withTable]
  exact forall₂_set_none h.slots _

end Emptied

end Registry

end GuestBridge
