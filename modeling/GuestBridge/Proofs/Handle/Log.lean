import GuestBridge.Proofs.Handle.Deeds
import GuestBridge.Proofs.Handle.Objects
import Mathlib.Data.List.Basic
import Mathlib.Data.List.Nodup

/-!
# Handle tables as logs

A table says no more of its objects than a log of them: `ObjectLog` has the objects that were ever
stored, in order, and the handles deleted since. `ObjectLog.call` answers the calls of a table
without any slots. `HandleTable.Follows` is the relation that every call keeps, with equal answers
(`Follows.call`), so that whole runs agree (`Follows.callAll`); what a table is worth after any
run is read off its log in `HandleTable.reads_as_log`.
-/

set_option autoImplicit false

namespace GuestBridge

variable {α : Type}

/-! ## Calls -/

inductive TableCall (α : Type)
  | create (x : α)
  | createMany (xs : List α)
  | get (h : UInt32)
  | delete (h : UInt32)
  deriving DecidableEq, Repr

namespace TableCall

/-- What a call is answered: one handle, many, or an object or why there is none. -/
inductive Answer (α : Type)
  | handle (h : UInt32)
  | handles (hs : List UInt32)
  | object (r : Except RegistryError α)

/-- The handles that an answer issues. -/
def Answer.issued : Answer α → List UInt32
  | handle h => [h]
  | handles hs => hs
  | object _ => []

/-- The objects that a call stores. -/
def objects : TableCall α → List α
  | create x => [x]
  | createMany xs => xs
  | get _ | delete _ => []

/-- All objects that some calls store, in order. -/
def stored (cs : List (TableCall α)) : List α := cs.flatMap objects

@[simp] theorem stored_nil : stored ([] : List (TableCall α)) = [] := rfl

@[simp] theorem stored_cons (c : TableCall α) (cs : List (TableCall α)) :
    stored (c :: cs) = c.objects ++ stored cs := rfl

@[simp] theorem stored_append (cs ds : List (TableCall α)) :
    stored (cs ++ ds) = stored cs ++ stored ds := List.flatMap_append

/-- Makes calls one after another. -/
def run {σ : Type} (call : TableCall α → σ → Answer α × σ) :
    List (TableCall α) → σ → List (Answer α) × σ
  | [], s => ([], s)
  | c :: cs, s =>
    let (answer, s) := call c s
    let (answers, s) := run call cs s
    (answer :: answers, s)

/-- The handles with whose deletion the answers agree, in order. -/
def deletions : List (TableCall α) → List (Answer α) → List UInt32
  | .delete h :: cs, .object (.ok _) :: answers => h :: deletions cs answers
  | _ :: cs, _ :: answers => deletions cs answers
  | _, _ => []

theorem run_append {σ : Type} (call : TableCall α → σ → Answer α × σ)
    (cs ds : List (TableCall α)) (s : σ) :
    run call (cs ++ ds) s =
      ((run call cs s).1 ++ (run call ds (run call cs s).2).1,
        (run call ds (run call cs s).2).2) := by
  induction cs generalizing s with
  | nil => rfl
  | cons c cs ih => simp only [List.cons_append, run, ih]

end TableCall

/-- Makes a call of a table. -/
def HandleTable.call : TableCall α → HandleTable α → TableCall.Answer α × HandleTable α
  | .create x, t => (.handle (t.create x).1, (t.create x).2)
  | .createMany xs, t => (.handles (t.createMany xs).1, (t.createMany xs).2)
  | .get h, t => (.object (t.get h), t)
  | .delete h, t =>
    match t.delete h with
    | .ok (x, t) => (.object (.ok x), t)
    | .error e => (.object (.error e), t)

/-! ## The log -/

/-- All objects that were ever stored, in order, and the handles deleted since. -/
structure ObjectLog (α : Type) where
  stored : List α := []
  deleted : List UInt32 := []

namespace ObjectLog

/-- What a handle stands for: the object stored in its turn, unless that was deleted. -/
def find (k : ResourceClass) (l : ObjectLog α) (h : UInt32) : Except RegistryError α :=
  match l.stored[h.toNat]? with
  | some x => if h ∈ l.deleted then .error (.deleted k h) else .ok x
  | none => .error (.outOfRange k h)

/-- Notes the end of an object. -/
def delete (l : ObjectLog α) (h : UInt32) : ObjectLog α := { l with deleted := l.deleted ++ [h] }

/-- Makes a call of a log: objects get the next numbers as their handles. -/
def call (k : ResourceClass) : TableCall α → ObjectLog α → TableCall.Answer α × ObjectLog α
  | .create x, l => (.handle (.ofNat l.stored.length), { l with stored := l.stored ++ [x] })
  | .createMany xs, l =>
    (.handles ((List.range' l.stored.length xs.length).map .ofNat),
      { l with stored := l.stored ++ xs })
  | .get h, l => (.object (l.find k h), l)
  | .delete h, l =>
    (.object (l.find k h), if (l.find k h).isOk then l.delete h else l)

variable {k : ResourceClass} {l : ObjectLog α}

theorem find_eq_ok_iff {h : UInt32} {x : α} :
    l.find k h = .ok x ↔ l.stored[h.toNat]? = some x ∧ h ∉ l.deleted := by
  unfold find
  rcases l.stored[h.toNat]? with _ | y
  · simp
  · by_cases hd : h ∈ l.deleted <;> simp [hd]

theorem find_eq_deleted_iff {h : UInt32} :
    l.find k h = .error (.deleted k h) ↔ h.toNat < l.stored.length ∧ h ∈ l.deleted := by
  unfold find
  rcases hi : l.stored[h.toNat]? with _ | y
  · have := List.getElem?_eq_none_iff.1 hi
    simp
    omega
  · have := (List.getElem?_eq_some_iff.1 hi).1
    by_cases hd : h ∈ l.deleted <;> simp [hd, this]

theorem find_eq_outOfRange_iff {h : UInt32} :
    l.find k h = .error (.outOfRange k h) ↔ l.stored.length ≤ h.toNat := by
  unfold find
  rcases hi : l.stored[h.toNat]? with _ | y
  · simpa using List.getElem?_eq_none_iff.1 hi
  · have := (List.getElem?_eq_some_iff.1 hi).1
    by_cases hd : h ∈ l.deleted <;> simp [hd, this]

/-- One more object, as long as handles are not used up: all older handles are as they were. -/
theorem find_store (few : l.stored.length < UInt32.size)
    (hl : ∀ h ∈ l.deleted, h.toNat < l.stored.length) (x : α) (h : UInt32) :
    ({ l with stored := l.stored ++ [x] } : ObjectLog α).find k h =
      if UInt32.ofNat l.stored.length = h then .ok x else l.find k h := by
  have hn : (UInt32.ofNat l.stored.length).toNat = l.stored.length :=
    UInt32.toNat_ofNat_of_lt' few
  split
  · next he =>
    subst he
    rw [find_eq_ok_iff, hn]
    exact ⟨List.getElem?_concat_length, fun hd => absurd (hl _ hd) (by omega)⟩
  · next hne =>
    have hne : h.toNat ≠ l.stored.length := fun he => hne (UInt32.toNat_inj.1 (hn.trans he.symm))
    have hs : (l.stored ++ [x])[h.toNat]? = l.stored[h.toNat]? := by
      rw [List.getElem?_append]
      split
      · rfl
      · rw [List.getElem?_eq_none (by simp; omega), List.getElem?_eq_none (by omega)]
    unfold find
    rw [hs]

theorem find_delete {h h' : UInt32} {x : α} (hx : l.find k h = .ok x) :
    (l.delete h).find k h' =
      if h = h' then .error (.deleted k h') else l.find k h' := by
  split
  · next he =>
    subst he
    obtain ⟨hs, -⟩ := find_eq_ok_iff.1 hx
    have hlt := (List.getElem?_eq_some_iff.1 hs).1
    exact find_eq_deleted_iff.2 ⟨hlt, List.mem_append_right _ (List.mem_singleton_self h)⟩
  · next hne =>
    have hm : h' ∈ l.deleted ++ [h] ↔ h' ∈ l.deleted := by simp [Ne.symm hne]
    simp only [find, delete, hm]

end ObjectLog

/-! ## Runs of a log -/

namespace ObjectLog

variable {k : ResourceClass}

@[simp] theorem stored_call (c : TableCall α) (l : ObjectLog α) :
    (l.call k c).2.stored = l.stored ++ c.objects := by
  cases c with
  | delete h =>
    simp only [call]
    split <;> simp [delete, TableCall.objects]
  | _ => simp [call, TableCall.objects]

theorem stored_run (cs : List (TableCall α)) (l : ObjectLog α) :
    (TableCall.run (call k) cs l).2.stored = l.stored ++ TableCall.stored cs := by
  induction cs generalizing l with
  | nil => simp [TableCall.run]
  | cons c cs ih =>
    simp only [TableCall.run, ih, stored_call, TableCall.stored_cons, List.append_assoc]

/-- Objects get their handles in order, without gaps. -/
theorem issued_run (cs : List (TableCall α)) (l : ObjectLog α) :
    (TableCall.run (call k) cs l).1.flatMap TableCall.Answer.issued =
      (List.range' l.stored.length (TableCall.stored cs).length).map .ofNat := by
  induction cs generalizing l with
  | nil => rfl
  | cons c cs ih =>
    have hc : (l.call k c).1.issued =
        (List.range' l.stored.length c.objects.length).map .ofNat := by
      cases c <;> rfl
    rw [TableCall.run, List.flatMap_cons, TableCall.stored_cons, List.length_append, ih, hc,
      stored_call, List.length_append, ← List.map_append, List.range'_append_1]

theorem deleted_run (cs : List (TableCall α)) (l : ObjectLog α) :
    (TableCall.run (call k) cs l).2.deleted =
      l.deleted ++ TableCall.deletions cs (TableCall.run (call k) cs l).1 := by
  induction cs generalizing l with
  | nil => simp [TableCall.run, TableCall.deletions]
  | cons c cs ih =>
    simp only [TableCall.run, ih]
    cases c with
    | delete h =>
      rcases hx : l.find k h with e | x
      · simp [call, hx, TableCall.deletions, Except.isOk, Except.toBool]
      · simp [call, hx, TableCall.deletions, Except.isOk, Except.toBool, delete]
    | _ => simp [call, TableCall.deletions]

end ObjectLog

/-! ## Tables follow their logs -/

namespace HandleTable

variable {k : ResourceClass} {t : HandleTable α} {l : ObjectLog α}

theorem live_eq_length_objects (t : HandleTable α) : t.live = t.objects.length := by
  unfold live objects
  induction t.slots with
  | nil => rfl
  | cons s slots ih => cases s <;> simp [ih]

/-- A table answers for every handle as its log does, and keeps count. -/
structure Follows (k : ResourceClass) (t : HandleTable α) (l : ObjectLog α) : Prop where
  kind : t.kind = k
  get : ∀ h, t.get h = l.find k h
  len : t.len = l.stored.length
  live : t.live + l.deleted.length = l.stored.length
  deleted : ∀ h ∈ l.deleted, h.toNat < l.stored.length

namespace Follows

theorem start (k : ResourceClass) : Follows k (⟨k, []⟩ : HandleTable α) {} where
  kind := rfl
  get _ := rfl
  len := rfl
  live := rfl
  deleted _ h := by cases h

theorem create_handle (hf : Follows k t l) (x : α) :
    (t.create x).1 = UInt32.ofNat l.stored.length := by
  rw [← hf.len]
  rfl

theorem create (hf : Follows k t l) (few : l.stored.length < UInt32.size) (x : α) :
    Follows k (t.create x).2 { l with stored := l.stored ++ [x] } where
  kind := hf.kind
  get h := by
    rw [get_create (hf.len ▸ few), hf.create_handle, l.find_store few hf.deleted, hf.get]
  len := by simpa [HandleTable.len, HandleTable.create] using hf.len
  live := by
    have := hf.live
    rw [live_eq_length_objects] at this ⊢
    rw [objects_create]
    simp only [List.length_append, List.length_singleton]
    omega
  deleted h hd := by
    have := hf.deleted h hd
    simp only [List.length_append, List.length_singleton]
    omega

theorem createMany (hf : Follows k t l) {xs : List α}
    (few : l.stored.length + xs.length ≤ UInt32.size) :
    (t.createMany xs).1 = (List.range' l.stored.length xs.length).map .ofNat ∧
      Follows k (t.createMany xs).2 { l with stored := l.stored ++ xs } := by
  induction xs generalizing t l with
  | nil => exact ⟨rfl, by simpa [HandleTable.createMany] using hf⟩
  | cons x xs ih =>
    rw [List.length_cons] at few
    obtain ⟨hh, ht⟩ := ih (hf.create (by omega) x) (by simp; omega)
    rw [List.append_assoc, List.singleton_append] at ht
    refine ⟨?_, ht⟩
    simp only [HandleTable.createMany, hh, hf.create_handle]
    simp [List.range'_succ]

theorem delete (hf : Follows k t l) {h : UInt32} {x : α} (hx : t.get h = .ok x) :
    Follows k (t.discard h) (l.delete h) := by
  have hlog : l.find k h = .ok x := hf.get h ▸ hx
  have hlt := (List.getElem?_eq_some_iff.1 (ObjectLog.find_eq_ok_iff.1 hlog).1).1
  refine ⟨hf.kind, fun h' => ?_, ?_, ?_, fun h' hd => ?_⟩
  · rw [get_discard, ObjectLog.find_delete hlog, hf.get]
    split
    · next he => rw [← he, hlog, hf.kind]; rfl
    · rfl
  · simpa [HandleTable.len, discard, ObjectLog.delete] using hf.len
  · have hp := (objects_delete_perm (delete_eq_ok_iff.2 ⟨hx, rfl⟩)).length_eq
    have := hf.live
    rw [live_eq_length_objects] at this ⊢
    simp only [List.length_cons] at hp
    simp only [ObjectLog.delete, discard, List.length_append, List.length_singleton]
    omega
  · rcases List.mem_append.1 hd with hd | hd
    · exact hf.deleted h' hd
    · exact List.mem_singleton.1 hd ▸ hlt

/-- A call is answered as the log answers it, and the table goes on following its log. -/
theorem call (hf : Follows k t l) {c : TableCall α}
    (few : l.stored.length + c.objects.length ≤ UInt32.size) :
    (t.call c).1 = (l.call k c).1 ∧ Follows k (t.call c).2 (l.call k c).2 := by
  cases c with
  | create x => exact ⟨congrArg _ (hf.create_handle x), hf.create few x⟩
  | createMany xs => exact ⟨congrArg _ (hf.createMany few).1, (hf.createMany few).2⟩
  | get h => exact ⟨congrArg _ (hf.get h), hf⟩
  | delete h =>
    simp only [HandleTable.call, ObjectLog.call, delete_eq, ← hf.get]
    rcases hg : t.get h with e | x
    · exact ⟨rfl, hf⟩
    · exact ⟨rfl, hf.delete hg⟩

theorem run (hf : Follows k t l) {cs : List (TableCall α)}
    (few : l.stored.length + (TableCall.stored cs).length ≤ UInt32.size) :
    (TableCall.run HandleTable.call cs t).1 = (TableCall.run (ObjectLog.call k) cs l).1 ∧
      Follows k (TableCall.run HandleTable.call cs t).2
        (TableCall.run (ObjectLog.call k) cs l).2 := by
  induction cs generalizing t l with
  | nil => exact ⟨rfl, hf⟩
  | cons c cs ih =>
    rw [TableCall.stored_cons, List.length_append] at few
    obtain ⟨ha, ht⟩ := hf.call (c := c) (by omega)
    obtain ⟨has, hts⟩ := ih ht (by rw [ObjectLog.stored_call, List.length_append]; omega)
    exact ⟨congrArg₂ _ ha has, hts⟩

end Follows

/-- Storing many objects is storing one after another. -/
theorem createMany_eq_run (t : HandleTable α) (xs : List α) :
    TableCall.run call (xs.map .create) t =
      ((t.createMany xs).1.map .handle, (t.createMany xs).2) := by
  induction xs generalizing t with
  | nil => rfl
  | cons x xs ih => simp only [List.map_cons, TableCall.run, call, ih, createMany]

/-! ## What a table is worth -/

/-- A new table after some calls. -/
def after (k : ResourceClass) (calls : List (TableCall α)) : HandleTable α :=
  (TableCall.run call calls ⟨k, []⟩).2

/-- What the calls of a new table are answered. -/
def answers (k : ResourceClass) (calls : List (TableCall α)) : List (TableCall.Answer α) :=
  (TableCall.run call calls ⟨k, []⟩).1

/-- The handles with whose deletion a new table has agreed in the course of some calls. -/
def deleted (k : ResourceClass) (calls : List (TableCall α)) : List UInt32 :=
  TableCall.deletions calls (answers k calls)

/-- A new table after some calls is worth the list of all objects stored by then and the list of
the handles deleted since. -/
structure ReadsAsLog (k : ResourceClass) (calls : List (TableCall α)) : Prop where
  /-- The calls were answered as by a log, which has no slots. -/
  answers : answers k calls = (TableCall.run (ObjectLog.call k) calls {}).1
  create : ∀ x, ((after k calls).create x).1.toNat = (TableCall.stored calls).length
  createMany : ∀ xs, TableCall.run call (xs.map .create) (after k calls) =
    (((after k calls).createMany xs).1.map .handle, ((after k calls).createMany xs).2)
  ok : ∀ h x, (after k calls).get h = .ok x ↔
    (TableCall.stored calls)[h.toNat]? = some x ∧ h ∉ deleted k calls
  gone : ∀ h, (after k calls).get h = .error (.deleted k h) ↔
    h.toNat < (TableCall.stored calls).length ∧ h ∈ deleted k calls
  outOfRange : ∀ h, (after k calls).get h = .error (.outOfRange k h) ↔
    (TableCall.stored calls).length ≤ h.toNat
  /-- Looking a handle up and deleting it are answered alike. -/
  answer : ∀ h, ((after k calls).call (.get h)).1 = .object ((after k calls).get h) ∧
    ((after k calls).call (.delete h)).1 = .object ((after k calls).get h)
  get_keeps : ∀ h, ((after k calls).call (.get h)).2 = after k calls
  delete_keeps : ∀ h e, (after k calls).get h = .error e →
    ((after k calls).call (.delete h)).2 = after k calls
  delete_slot : ∀ h x, (after k calls).get h = .ok x →
    let t := ((after k calls).call (.delete h)).2
    t.kind = (after k calls).kind ∧ t.slots[h.toNat]? = some none ∧
      ∀ i, i ≠ h.toNat → t.slots[i]? = (after k calls).slots[i]?
  len : (after k calls).len = (TableCall.stored calls).length
  isEmpty : (after k calls).isEmpty = true ↔ TableCall.stored calls = []
  live : (after k calls).live + (deleted k calls).length = (TableCall.stored calls).length
  /-- The handles issued are the numbers from 0 on, none of them twice. -/
  issued : ((HandleTable.answers k calls).flatMap TableCall.Answer.issued).map UInt32.toNat =
    List.range (TableCall.stored calls).length
  /-- A deleted handle never becomes valid again. -/
  stays_deleted : ∀ more, (TableCall.stored (calls ++ more)).length < UInt32.size →
    ∀ h ∈ deleted k calls, (after k (calls ++ more)).get h = .error (.deleted k h)

variable {calls : List (TableCall α)}

/-- What a table has agreed to delete is what its log says. -/
theorem follows_after (few : (TableCall.stored calls).length ≤ UInt32.size) :
    answers k calls = (TableCall.run (ObjectLog.call k) calls {}).1 ∧
      ∃ l : ObjectLog α, (TableCall.run (ObjectLog.call k) calls {}).2 = l ∧
        Follows k (after k calls) l ∧ l.stored = TableCall.stored calls ∧
        l.deleted = deleted k calls := by
  have few' : (ObjectLog.stored ({} : ObjectLog α)).length + (TableCall.stored calls).length ≤
      UInt32.size := by simpa using few
  obtain ⟨ha, hf⟩ := (Follows.start k).run few'
  refine ⟨ha, _, rfl, hf, ObjectLog.stored_run calls {}, ?_⟩
  rw [ObjectLog.deleted_run, deleted, answers, ha]
  rfl

theorem deleted_subset {more : List (TableCall α)}
    (few : (TableCall.stored (calls ++ more)).length ≤ UInt32.size) :
    deleted k calls ⊆ deleted k (calls ++ more) := by
  have few' : (TableCall.stored calls).length ≤ UInt32.size := by
    rw [TableCall.stored_append, List.length_append] at few
    omega
  obtain ⟨-, l, hl, -, -, hd⟩ := follows_after (k := k) few'
  obtain ⟨-, l', hl', -, -, hd'⟩ := follows_after (k := k) few
  rw [TableCall.run_append] at hl'
  rw [← hd, ← hd', ← hl', ObjectLog.deleted_run, hl]
  exact List.subset_append_left _ _

theorem reads_as_log (k : ResourceClass) (calls : List (TableCall α))
    (few : (TableCall.stored calls).length < UInt32.size) : ReadsAsLog k calls := by
  obtain ⟨ha, l, hl, hf, hs, hd⟩ := follows_after (k := k) (Nat.le_of_lt few)
  have hget h x : (after k calls).get h = .ok x ↔
      (TableCall.stored calls)[h.toNat]? = some x ∧ h ∉ deleted k calls := by
    rw [hf.get, ObjectLog.find_eq_ok_iff, hs, hd]
  have hgone h : (after k calls).get h = .error (.deleted k h) ↔
      h.toNat < (TableCall.stored calls).length ∧ h ∈ deleted k calls := by
    rw [hf.get, ObjectLog.find_eq_deleted_iff, hs, hd]
  refine
    { answers := ha
      create := fun x => by rw [toNat_create (by rw [hf.len, hs]; exact few), ← hs]; exact hf.len
      createMany := createMany_eq_run _
      ok := hget
      gone := hgone
      outOfRange := fun h => by rw [hf.get, ObjectLog.find_eq_outOfRange_iff, hs]
      answer := fun h => ⟨rfl, ?_⟩
      get_keeps := fun h => rfl
      delete_keeps := fun h e he => ?_
      delete_slot := fun h x hx => ?_
      len := by rw [hf.len, hs]
      isEmpty := ?_
      live := by rw [← hd, ← hs]; exact hf.live
      issued := ?_
      stays_deleted := fun more few h hh => ?_ }
  · simp only [call, delete_eq]
    cases (after k calls).get h <;> rfl
  · simp only [call, delete_eq, he]
    rfl
  · have hcall : ((after k calls).call (.delete h)).2 = (after k calls).discard h := by
      simp only [call, delete_eq, hx]
      rfl
    have hlt : h.toNat < (after k calls).slots.length :=
      (List.getElem?_eq_some_iff.1 (get_eq_ok_iff.1 hx)).1
    simp only [hcall]
    exact ⟨rfl, List.getElem?_set_self hlt, fun i hi => List.getElem?_set_ne hi.symm⟩
  · rw [← hs, ← List.length_eq_zero_iff, ← hf.len, HandleTable.isEmpty, List.isEmpty_iff,
      ← List.length_eq_zero_iff]
    rfl
  · rw [ha, ObjectLog.issued_run, List.map_map, List.range_eq_range']
    refine (List.map_congr_left fun i hi => ?_).trans (List.map_id _)
    have hi := List.mem_range'_1.1 hi
    exact UInt32.toNat_ofNat_of_lt' (by simp at hi; omega)
  · have hm := deleted_subset (k := k) (Nat.le_of_lt few) hh
    obtain ⟨-, l', -, hf', hs', hd'⟩ := follows_after (k := k) (Nat.le_of_lt few)
    rw [hf'.get, ObjectLog.find_eq_deleted_iff, hs', hd']
    refine ⟨?_, hm⟩
    rw [← hs']
    exact hf'.deleted h (hd' ▸ hm)

/-- The second of three objects is deleted, its handle is tried again, and so is one that was never
issued. -/
theorem reads_as_log_of_stale_handle :
    let calls : List (TableCall Nat) :=
      [.create 7, .createMany [8, 9], .delete 1, .delete 1, .get 5]
    (TableCall.stored calls).length < UInt32.size ∧ ReadsAsLog .buffer calls ∧
      (after .buffer calls).get 1 = .error (.deleted .buffer 1) ∧
      (after .buffer calls).get 2 = .ok 9 := by
  intro calls
  have h := reads_as_log .buffer calls (by decide)
  exact ⟨by decide, h, (h.gone 1).2 (by decide), (h.ok 2 9).2 (by decide)⟩

end HandleTable

end GuestBridge
