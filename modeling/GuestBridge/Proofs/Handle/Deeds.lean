import GuestBridge.Handle.Registry
import Mathlib.Data.List.Induction
import Mathlib.Data.List.Nodup

/-!
# What handles stand for

A guest knows of its handles what it was told: which were issued and for what, and which it has
asked to delete. `Deed.resolve` is what such a history says of a handle, without any table.
`Registry.Recorded R ds R'` says that the tables `R'` come from `R` by the deeds `ds`; as long as
no class has had more than `2 ^ 32` handles, tables that started empty say of every handle what
its history says (`Registry.Recorded.tells`), and no handle was issued twice.
-/

set_option autoImplicit false

namespace GuestBridge

/-! ## Tables -/

namespace HandleTable

variable {α : Type}

/-- Empties the slot of a handle, if it has one. -/
def discard (t : HandleTable α) (handle : UInt32) : HandleTable α :=
  { t with slots := t.slots.set handle.toNat none }

theorem toNat_create {t : HandleTable α} (few : t.len < UInt32.size) (x : α) :
    (t.create x).1.toNat = t.slots.length :=
  UInt32.toNat_ofNat_of_lt' few

/-- The next handle is one that was never issued. -/
theorem get_next {t : HandleTable α} (few : t.len < UInt32.size) (x : α) :
    t.get (t.create x).1 = .error (.outOfRange t.kind (t.create x).1) := by
  unfold get
  rw [toNat_create few, List.getElem?_eq_none (Nat.le_refl _)]

theorem get_create {t : HandleTable α} (few : t.len < UInt32.size) (x : α) (h : UInt32) :
    (t.create x).2.get h = if (t.create x).1 = h then .ok x else t.get h := by
  split
  · next he =>
    subst he
    rw [get_eq_ok_iff, toNat_create few]
    exact List.getElem?_concat_length
  · next hne =>
    have hn : h.toNat ≠ t.slots.length := fun hl =>
      hne (UInt32.toNat_inj.1 ((toNat_create few x).trans hl.symm))
    have hs : (t.slots ++ [some x])[h.toNat]? = t.slots[h.toNat]? := by
      rw [List.getElem?_append]
      split
      · rfl
      · rw [List.getElem?_eq_none (by simp; omega), List.getElem?_eq_none (by omega)]
    simp only [get, create, hs]

theorem get_discard (t : HandleTable α) (h h' : UInt32) :
    (t.discard h).get h' =
      if h = h' then (t.get h').bind fun _ => .error (.deleted t.kind h') else t.get h' := by
  by_cases he : h = h'
  · subst he
    have hs : (t.discard h).slots[h.toNat]? = t.slots[h.toNat]?.map fun _ => none :=
      List.getElem?_set_self'
    rw [if_pos rfl]
    unfold get
    rw [hs]
    rcases t.slots[h.toNat]? with _ | _ | x <;> rfl
  · have hs : (t.discard h).slots[h'.toNat]? = t.slots[h'.toNat]? :=
      List.getElem?_set_ne fun hn => he (UInt32.toNat_inj.1 hn)
    rw [if_neg he]
    unfold get
    rw [hs]
    rfl

/-- Deleting resolves the handle and empties its slot. -/
theorem delete_eq (t : HandleTable α) (h : UInt32) :
    t.delete h = (t.get h).map fun x => (x, t.discard h) := by
  unfold delete
  cases t.get h <;> rfl

theorem discard_eq_self {t : HandleTable α} {h : UInt32} {e : RegistryError}
    (hg : t.get h = .error e) : t.discard h = t := by
  unfold get at hg
  have hs : t.slots.set h.toNat none = t.slots := by
    rcases hi : t.slots[h.toNat]? with _ | _ | x
    · exact List.set_eq_of_length_le (List.getElem?_eq_none_iff.1 hi)
    · obtain ⟨hlt, hi⟩ := List.getElem?_eq_some_iff.1 hi
      rw [← hi, List.set_getElem_self]
    · rw [hi] at hg
      cases hg
  unfold discard
  rw [hs]

end HandleTable

/-! ## Handles with their classes -/

/-- A handle of a class. -/
inductive Ref
  | object (c : ObjectClass) (handle : UInt32)
  | location (handle : UInt32)
  deriving DecidableEq, Repr

namespace Ref

def kind : Ref → ResourceClass
  | object c _ => c.resource
  | location _ => .uniformLocation

def handle : Ref → UInt32
  | object _ h => h
  | location h => h

end Ref

/-- What a handle stands for: an object, or the location of a uniform variable, which may be
none. -/
inductive Resource
  | object (c : ObjectClass) (o : Native c)
  | location (l : Option Location)
  deriving DecidableEq, Repr

namespace Resource

/-- A handle of the class of a resource. -/
def ref : Resource → UInt32 → Ref
  | object c _ => .object c
  | location _ => .location

def kind : Resource → ResourceClass
  | object c _ => c.resource
  | location _ => .uniformLocation

end Resource

/-! ## Deeds -/

/-- Something that the guest knows of one of its handles. -/
inductive Deed
  /-- The guest was handed a handle for a resource. -/
  | issued (handle : UInt32) (x : Resource)
  /-- The guest has asked to delete the object of a handle. -/
  | discarded (c : ObjectClass) (handle : UInt32)
  deriving DecidableEq, Repr

namespace Deed

/-- The handle that a deed is about. -/
def ref : Deed → Ref
  | issued h x => x.ref h
  | discarded c h => .object c h

/-- The handle that was issued. -/
def issue? : Deed → Option Ref
  | issued h x => some (x.ref h)
  | discarded _ _ => none

/-- Whether a handle of some class was issued. -/
def issues (k : ResourceClass) : Deed → Bool
  | issued _ x => x.kind = k
  | discarded _ _ => false

/-- How many handles of a class were issued. -/
def count (k : ResourceClass) (ds : List Deed) : Nat := ds.countP (issues k)

/-- What becomes of a handle by one more deed: a deletion matters only to a handle that
resolves. -/
def step (r : Ref) (before : Except RegistryError Resource) (d : Deed) :
    Except RegistryError Resource :=
  if d.ref = r then
    match d with
    | issued _ x => .ok x
    | discarded _ _ => before.bind fun _ => .error (.deleted r.kind r.handle)
  else before

/-- What a handle stands for after some deeds: nothing until it is issued, and nothing any more
once its deletion was asked for. -/
def resolve (r : Ref) (ds : List Deed) : Except RegistryError Resource :=
  ds.foldl (step r) (.error (.outOfRange r.kind r.handle))

variable {ds : List Deed} {d : Deed} {r : Ref} {x : Resource}

@[simp] theorem resolve_concat (r : Ref) (ds : List Deed) (d : Deed) :
    resolve r (ds ++ [d]) = step r (resolve r ds) d := by
  simp [resolve]

theorem count_concat (k : ResourceClass) (ds : List Deed) (d : Deed) :
    count k (ds ++ [d]) = count k ds + (issues k d).toNat := by
  unfold count
  rw [List.countP_append]
  cases h : issues k d <;> simp [h]

theorem count_le_append (k : ResourceClass) (ds es : List Deed) :
    count k ds ≤ count k (ds ++ es) := by
  unfold count
  rw [List.countP_append]
  exact Nat.le_add_right _ _

theorem step_of_ref_ne (h : d.ref ≠ r) (before : Except RegistryError Resource) :
    step r before d = before := if_neg h

theorem step_issued (h : UInt32) (x : Resource) (before : Except RegistryError Resource) :
    step (x.ref h) before (issued h x) = .ok x := if_pos rfl

theorem step_discarded (c : ObjectClass) (h : UInt32) (before : Except RegistryError Resource) :
    step (.object c h) before (discarded c h) =
      before.bind fun _ => .error (.deleted c.resource h) := if_pos rfl

/-- A handle is out of range as long as it was not issued. -/
theorem resolve_eq_outOfRange_iff :
    resolve r ds = .error (.outOfRange r.kind r.handle) ↔ r ∉ ds.filterMap issue? := by
  induction ds using List.reverseRecOn with
  | nil => simp [resolve]
  | append_singleton ds d ih =>
    rw [resolve_concat, List.filterMap_append, List.mem_append, not_or, ← ih]
    by_cases hd : d.ref = r
    · subst hd
      cases d with
      | issued h x => simp [ref, step_issued, issue?]
      | discarded c h =>
        simp only [ref, step_discarded, Ref.kind, Ref.handle]
        rcases resolve (.object c h) ds with e | y <;> simp [issue?, Except.bind]
    · rw [step_of_ref_ne hd]
      cases d with
      | issued h x =>
        have hx : r ≠ x.ref h := Ne.symm hd
        simp [issue?, hx]
      | discarded c h => simp [issue?]

theorem resolve_of_concat_discarded {c : ObjectClass} {h : UInt32}
    (hr : resolve r (ds ++ [.discarded c h]) = .ok x) : resolve r ds = .ok x := by
  rw [resolve_concat] at hr
  by_cases hd : (discarded c h).ref = r
  · subst hd
    simp only [ref, step_discarded] at hr
    rcases he : resolve (.object c h) ds with e | y <;> rw [he] at hr <;> cases hr
  · rwa [step_of_ref_ne hd] at hr

/-- A handle that does not resolve is reported with its class. -/
theorem resolve_eq_error {e : RegistryError} (h : resolve r ds = .error e) :
    e = .outOfRange r.kind r.handle ∨ e = .deleted r.kind r.handle := by
  induction ds using List.reverseRecOn generalizing e with
  | nil => exact .inl (Except.error.inj h).symm
  | append_singleton ds d ih =>
    rw [resolve_concat] at h
    by_cases hd : d.ref = r
    · subst hd
      cases d with
      | issued h' y => cases (step_issued h' y _).symm.trans h
      | discarded c h' =>
        simp only [ref, step_discarded] at h
        rcases hr : resolve (.object c h') ds with e' | y
        · rw [hr] at h
          cases h
          exact ih hr
        · rw [hr] at h
          exact .inr (Except.error.inj h).symm
    · rw [step_of_ref_ne hd] at h
      exact ih h

end Deed

/-! ## Registries -/

namespace Registry

/-- What the tables find for a handle. -/
def find (R : Registry) : Ref → Except RegistryError Resource
  | .object c h => ((R.table c).get h).map (.object c)
  | .location h => (R.locations.get h).map .location

/-- How many handles of a class were issued. -/
def len (R : Registry) : ResourceClass → Nat
  | .shader => R.shaders.len
  | .program => R.programs.len
  | .buffer => R.buffers.len
  | .texture => R.textures.len
  | .vertexArray => R.vertexArrays.len
  | .uniformLocation => R.locations.len

/-- Issues the next handle for a resource. -/
def add (R : Registry) : Resource → UInt32 × Registry
  | .object c o => (((R.table c).create o).1, R.withTable c ((R.table c).create o).2)
  | .location l => ((R.locations.create l).1, { R with locations := (R.locations.create l).2 })

/-- Empties the slot of a handle. -/
def discard (R : Registry) (c : ObjectClass) (h : UInt32) : Registry :=
  R.withTable c ((R.table c).discard h)

/-- The tables `R'` come from `R` by some deeds. -/
inductive Recorded (R : Registry) : List Deed → Registry → Prop
  | nil : Recorded R [] R
  | issued {ds R'} (x : Resource) (before : Recorded R ds R') :
    Recorded R (ds ++ [.issued (R'.add x).1 x]) (R'.add x).2
  | discarded {ds R'} (c : ObjectClass) (h : UInt32) (before : Recorded R ds R') :
    Recorded R (ds ++ [.discarded c h]) (R'.discard c h)

theorem Recorded.trans {R₁ R₂ R₃ : Registry} {ds es : List Deed} (h : Recorded R₁ ds R₂)
    (h' : Recorded R₂ es R₃) : Recorded R₁ (ds ++ es) R₃ := by
  induction h' with
  | nil => rwa [List.append_nil]
  | issued x before ih => exact List.append_assoc .. ▸ ih.issued x
  | discarded c h before ih => exact List.append_assoc .. ▸ ih.discarded c h

theorem withTable_table (R : Registry) (c : ObjectClass) : R.withTable c (R.table c) = R := by
  cases c <;> rfl

theorem withTable_withTable (R : Registry) (c : ObjectClass) (t t' : HandleTable (Native c)) :
    (R.withTable c t).withTable c t' = R.withTable c t' := by
  cases c <;> rfl

/-- Many objects are issued as one after another would be. -/
theorem recorded_createMany (R : Registry) (c : ObjectClass) (os : List (Native c)) :
    R.Recorded
      (List.zipWith .issued ((R.table c).createMany os).1 (os.map (.object c)))
      (R.withTable c ((R.table c).createMany os).2) := by
  induction os generalizing R with
  | nil =>
    rw [HandleTable.createMany, withTable_table]
    exact .nil
  | cons o os ih =>
    have ih := ih (R.add (.object c o)).2
    rw [add, table_withTable, withTable_withTable] at ih
    exact (Recorded.issued (.object c o) .nil).trans ih

/-- The tables say of every handle what its history says. -/
structure Tells (R : Registry) (ds : List Deed) : Prop where
  find : ∀ r, R.find r = Deed.resolve r ds
  len : ∀ k, R.len k = Deed.count k ds
  kind : ∀ c, (R.table c).kind = c.resource
  /-- No handle was issued twice. -/
  once : (ds.filterMap Deed.issue?).Nodup

variable {R : Registry} {ds : List Deed}

theorem tells_start : Tells {} [] where
  find r := by rcases r with ⟨_ | _, h⟩ | h <;> rfl
  len k := by cases k <;> rfl
  kind c := by cases c <;> rfl
  once := List.nodup_nil

@[simp] theorem len_resource (R : Registry) (c : ObjectClass) :
    R.len c.resource = (R.table c).len := by
  cases c <;> rfl

theorem find_add {x : Resource} (few : R.len x.kind < UInt32.size) (r : Ref) :
    (R.add x).2.find r = if x.ref (R.add x).1 = r then .ok x else R.find r := by
  cases x with
  | object c o =>
    have few : (R.table c).len < UInt32.size := by rwa [← len_resource]
    cases r with
    | object d h =>
      by_cases hcd : d = c
      · subst hcd
        simp only [find, add, table_withTable, HandleTable.get_create few, Resource.ref,
          Ref.object.injEq, true_and]
        split <;> rfl
      · simp [find, add, table_withTable_of_ne _ _ hcd, Resource.ref, Ne.symm hcd]
    | location h => simp [find, add, Resource.ref]
  | location l =>
    cases r with
    | object d h => cases d <;> simp [find, add, table, Resource.ref]
    | location h =>
      simp only [find, add, HandleTable.get_create few, Resource.ref, Ref.location.injEq]
      split <;> rfl

theorem find_next {x : Resource} (few : R.len x.kind < UInt32.size) :
    ∃ k h, R.find (x.ref (R.add x).1) = .error (.outOfRange k h) := by
  cases x with
  | object c o =>
    have few : (R.table c).len < UInt32.size := by rwa [← len_resource]
    refine ⟨(R.table c).kind, ((R.table c).create o).1, ?_⟩
    simp only [Resource.ref, add, find, HandleTable.get_next few]
    rfl
  | location l =>
    refine ⟨R.locations.kind, (R.locations.create l).1, ?_⟩
    simp only [Resource.ref, add, find, HandleTable.get_next (t := R.locations) few]
    rfl

theorem len_withTable (R : Registry) (c : ObjectClass) (t : HandleTable (Native c))
    (k : ResourceClass) :
    (R.withTable c t).len k = if c.resource = k then t.len else R.len k := by
  cases c <;> cases k <;> rfl

theorem len_add (R : Registry) (x : Resource) (k : ResourceClass) :
    (R.add x).2.len k = R.len k + if x.kind = k then 1 else 0 := by
  cases x with
  | object c o =>
    show (R.withTable c _).len k = R.len k + if c.resource = k then 1 else 0
    rw [len_withTable]
    by_cases h : c.resource = k
    · subst h
      rw [if_pos rfl, if_pos rfl, len_resource]
      simp [HandleTable.len, HandleTable.create]
    · rw [if_neg h, if_neg h, Nat.add_zero]
  | location l =>
    cases k <;> simp [add, len, Resource.kind, HandleTable.len, HandleTable.create]

theorem len_discard (R : Registry) (c : ObjectClass) (h : UInt32) (k : ResourceClass) :
    (R.discard c h).len k = R.len k := by
  rw [discard, len_withTable]
  split
  · next hk =>
    subst hk
    rw [len_resource]
    simp [HandleTable.len, HandleTable.discard]
  · rfl

theorem kind_withTable {c : ObjectClass} {t : HandleTable (Native c)}
    (h : t.kind = (R.table c).kind) (d : ObjectClass) :
    ((R.withTable c t).table d).kind = (R.table d).kind := by
  by_cases hdc : d = c
  · subst hdc
    rw [table_withTable, h]
  · rw [table_withTable_of_ne _ _ hdc]

theorem kind_add (R : Registry) (x : Resource) (d : ObjectClass) :
    ((R.add x).2.table d).kind = (R.table d).kind := by
  cases x with
  | object c o => exact kind_withTable (t := ((R.table c).create o).2) rfl d
  | location l => cases d <;> rfl

theorem find_discard (c : ObjectClass) (h : UInt32) (kind : (R.table c).kind = c.resource)
    (r : Ref) : (R.discard c h).find r =
      if .object c h = r then (R.find r).bind fun _ => .error (.deleted c.resource h)
      else R.find r := by
  cases r with
  | object d h' =>
    by_cases hcd : d = c
    · subst hcd
      simp only [find, discard, table_withTable, HandleTable.get_discard, kind,
        Ref.object.injEq, true_and]
      split
      · next he =>
        subst he
        cases (R.table d).get h <;> rfl
      · rfl
    · simp [find, discard, table_withTable_of_ne _ _ hcd, Ne.symm hcd]
  | location h' => simp [find, discard]

namespace Tells

theorem add (hR : R.Tells ds) {x : Resource} (few : Deed.count x.kind ds < UInt32.size) :
    (R.add x).2.Tells (ds ++ [.issued (R.add x).1 x]) := by
  have few : R.len x.kind < UInt32.size := by rwa [hR.len]
  refine ⟨fun r => ?_, fun k => ?_, fun c => ?_, ?_⟩
  · rw [find_add few, Deed.resolve_concat, hR.find]
    rfl
  · rw [Deed.count_concat, ← hR.len, len_add]
    by_cases hk : x.kind = k <;> simp [Deed.issues, hk]
  · rw [kind_add, hR.kind]
  · obtain ⟨k, h, hf⟩ := find_next few
    rw [hR.find] at hf
    -- The new handle was out of range, which it would not be had it been issued before.
    have hnew : x.ref (R.add x).1 ∉ ds.filterMap Deed.issue? := by
      rw [← Deed.resolve_eq_outOfRange_iff, hf]
      rcases Deed.resolve_eq_error hf with he | he
      · rw [he]
      · cases he
    rw [List.filterMap_append]
    exact List.nodup_append.2 ⟨hR.once, List.nodup_singleton _, fun r hr r' hr' he =>
      hnew (List.mem_singleton.1 hr' ▸ he ▸ hr)⟩

theorem discard (hR : R.Tells ds) (c : ObjectClass) (h : UInt32) :
    (R.discard c h).Tells (ds ++ [.discarded c h]) := by
  refine ⟨fun r => ?_, fun k => ?_, fun d => ?_, ?_⟩
  · rw [find_discard c h (hR.kind c), Deed.resolve_concat, hR.find]
    by_cases hr : Ref.object c h = r
    · subst hr
      rw [if_pos rfl, Deed.step_discarded]
    · rw [if_neg hr, Deed.step_of_ref_ne (d := .discarded c h) hr]
  · rw [Deed.count_concat, ← hR.len, len_discard]
    rfl
  · exact (kind_withTable (t := (R.table c).discard h) rfl d).trans (hR.kind d)
  · rw [List.filterMap_append]
    exact (List.append_nil _).symm ▸ hR.once

end Tells

/-- Tables that started empty say what their history says, if no class had too many handles. -/
theorem Recorded.tells (h : Recorded {} ds R) (few : ∀ k, Deed.count k ds ≤ UInt32.size) :
    R.Tells ds := by
  induction h with
  | nil => exact tells_start
  | issued x before ih =>
    have few k := Deed.count_concat k _ _ ▸ few k
    refine (ih fun k => Nat.le_of_add_right_le (few k)).add ?_
    have := few x.kind
    simp only [Deed.issues, decide_true, Bool.toNat_true] at this
    omega
  | discarded c h before ih =>
    exact (ih fun k => Nat.le_of_add_right_le (Deed.count_concat k _ _ ▸ few k)).discard c h

end Registry

end GuestBridge
