import GuestBridge.Proofs.Capability.Isolation
import GuestBridge.Proofs.Capability.Trace
import GuestBridge.Proofs.Handle.Discards

/-!
# Deleting many objects at once

Deleting the objects of an array of handles goes through them one by one and past those that do not
resolve (`Core.deleteEach_ends`). `Core.Run.deletes_in_bulk` tells from the state before which slots
are empty then, which native objects are deleted and in which order, and which failure is reported.
-/

set_option autoImplicit false

namespace GuestBridge

/-! ## Deleting one after another -/

namespace Core

open Attempt

variable {G : Type} [GraphicsContext G] {s : Core G}

/-- Deleting goes on past the handles that do not resolve. -/
theorem deleteEach_ends (c : ObjectClass) (handles : List UInt32) (s : Core G) :
    ∃ t, deleteEach c handles s =
        (.ok (((s.bridge.registry.table c).refusal? handles).map .registry), t) ∧
      t.bridge = { s.bridge with
        registry := s.bridge.registry.withTable c
          ((s.bridge.registry.table c).discardAll handles) } ∧
      t.memory = s.memory ∧
      t.journal.toList = s.journal.toList ++
        ((s.bridge.registry.table c).taken handles).map fun o => .gl (.delete c o) () := by
  induction handles generalizing s with
  | nil =>
    refine ⟨s, rfl, ?_, rfl, by simp [HandleTable.taken]⟩
    rw [HandleTable.discardAll, List.foldl_nil, Registry.withTable_table]
  | cons h handles ih =>
    have hone := deleteObject_eq c h s
    rcases hg : (s.bridge.registry.table c).get h with e | o <;> rw [hg] at hone
    · obtain ⟨t, heach, hbridge, hmemory, hjournal⟩ := ih s
      have hdiscard := HandleTable.discard_eq_self hg
      have hfirst : (deleteObject c h).outcome s = (.ok (.error (.registry e)), s) := by
        rw [outcome_apply, hone]
      refine ⟨t, ?_, ?_, hmemory, ?_⟩
      · rw [deleteEach, bind_of_ok hfirst, bind_of_ok heach, HandleTable.refusal?, hg]
        rfl
      · rw [hbridge, HandleTable.discardAll_cons, hdiscard]
      · rw [hjournal, HandleTable.taken, hdiscard, hg]
        rfl
    · let u := ((s.withRegistry (s.bridge.registry.discard c h)).perform (.delete c o)).2
      have htable : u.bridge.registry.table c = (s.bridge.registry.table c).discard h :=
        Registry.table_withTable ..
      obtain ⟨t, heach, hbridge, hmemory, hjournal⟩ := ih u
      have hfirst : (deleteObject c h).outcome s = (.ok (.ok ()), u) := by
        rw [outcome_apply, hone]
      refine ⟨t, ?_, ?_, hmemory, ?_⟩
      · rw [deleteEach, bind_of_ok hfirst, bind_of_ok heach, HandleTable.refusal?, hg, htable]
        rfl
      · have hR (table : HandleTable (Native c)) :
            u.bridge.registry.withTable c table = s.bridge.registry.withTable c table :=
          Registry.withTable_withTable ..
        rw [hbridge, HandleTable.discardAll_cons, htable, hR]
        rfl
      · rw [hjournal, htable, journal_perform, HandleTable.taken, hg, List.append_assoc]
        rfl

/-- In a run, the table of a class stays one of its class. -/
theorem Run.kind (h : Run s) (c : ObjectClass) :
    (s.bridge.registry.table c).kind = c.resource := by
  induction h with
  | start registry => rw [registry]; cases c <;> rfl
  | @capability s call before ih =>
    have hc := call.isolated s
    rcases hi : call.issues? with _ | k
    · rcases hd : call.empties? with _ | d
      · rw [(hc.untouched hi hd).1, ih]
      · rw [(hc.emptied d hd).kinds, ih]
    · rw [(hc.issued k hi).kinds, ih]
  | meanwhile before registry journal ih => rw [registry, ih]

end Core

/-! ## The capability -/

namespace Capability

open GuestBridge.Core

variable {G : Type} [GraphicsContext G]

/-- What deleting the objects of `handles` comes to: its result, and the state that it leaves. -/
structure Deletion (c : ObjectClass) (handles : List UInt32) (s : Core G)
    (result : Except BridgeError Result) (t : Core G) : Prop where
  /-- The slots of the handles are empty, as far as there are any, -/
  emptied : ∀ h ∈ handles, (t.bridge.registry.table c).slots[h.toNat]? =
    (s.bridge.registry.table c).slots[h.toNat]?.map fun _ => none
  /-- and no other slot is touched, nor anything but slots of this class. -/
  kept : ∀ i, (∀ h ∈ handles, h.toNat ≠ i) →
    (t.bridge.registry.table c).slots[i]? = (s.bridge.registry.table c).slots[i]?
  bridge : t.bridge = { s.bridge with
    registry := s.bridge.registry.withTable c (t.bridge.registry.table c) }
  memory : t.memory = s.memory
  /-- The objects that the slots held are deleted, each slot's once, in the order in which the
  handles first occur. -/
  journal : t.journal.toList = s.journal.toList ++
    (handles.eraseDups.filterMap fun h =>
      ((s.bridge.registry.table c).get h).toOption).map fun o => .gl (.delete c o) ()
  /-- If every creation was of a new object, none has been deleted twice by now. -/
  once : (s.everCreated c).Nodup → (t.everDeleted c).Nodup
  succeeds : (∃ r, result = .ok r) ↔
    handles.Nodup ∧ ∀ h ∈ handles, (s.bridge.registry.table c).Holds h
  /-- The first handle that was never issued, whose object is deleted already, or that came before,
  is reported. -/
  failed : ∀ before h after, handles = before ++ h :: after → before.Nodup →
    (∀ x ∈ before, (s.bridge.registry.table c).Holds x) →
      ((s.bridge.registry.table c).len ≤ h.toNat →
        result = .error (.registry (.outOfRange c.resource h))) ∧
      (h ∈ before ∨ (s.bridge.registry.table c).slots[h.toNat]? = some none →
        result = .error (.registry (.deleted c.resource h)))

/-- How deleting the objects of an array of handles ends. -/
structure DeletesInBulk (b : BulkClass) (count ptr : UInt32) (s : Core G) : Prop where
  /-- Where the handles cannot be read, nothing is done at all. -/
  refused : ∀ e, s.arrayFault? ptr count = some e →
    (deleteMany b count ptr).run s = (.error e, s)
  done : s.arrayFault? ptr count = none →
    ∃ handles, s.memory.readWords ptr count = .ok handles ∧ handles.length = count.toNat ∧
      Deletion b.objectClass handles s ((deleteMany b count ptr).run s).1
        ((deleteMany b count ptr).run s).2

end Capability

namespace Core

open Attempt

variable {G : Type} [GraphicsContext G] {s t : Core G}

/-- What the handles come to one by one, told from the state before. -/
theorem Run.deletion (h : Run s) {c : ObjectClass} {handles : List UInt32} (ht : Run t)
    (bridge : t.bridge = { s.bridge with
      registry := s.bridge.registry.withTable c
        ((s.bridge.registry.table c).discardAll handles) })
    (memory : t.memory = s.memory)
    (journal : t.journal.toList = s.journal.toList ++
      ((s.bridge.registry.table c).taken handles).map fun o => .gl (.delete c o) ()) :
    Capability.Deletion c handles s
      (match (s.bridge.registry.table c).refusal? handles with
        | none => .ok .nothing
        | some e => .error (.registry e)) t := by
  have htable : t.bridge.registry.table c =
      (s.bridge.registry.table c).discardAll handles := by
    rw [bridge]
    exact Registry.table_withTable ..
  refine ⟨?_, ?_, ?_, memory, ?_, ?_, ?_, ?_⟩
  · intro x hx
    rw [htable]
    exact HandleTable.getElem?_discardAll_of_mem hx
  · intro i hi
    rw [htable]
    exact HandleTable.getElem?_discardAll_of_ne hi
  · rw [htable]
    exact bridge
  · rw [journal, HandleTable.taken_eq]
  · intro fresh
    have hcreated : t.everCreated c = s.everCreated c := by
      rw [everCreated, journal, List.flatMap_append]
      simp [everCreated, Event.created, List.flatMap_map]
    rw [← hcreated] at fresh
    exact (ht.nodup fresh).of_append_left
  · rw [← HandleTable.refusal?_eq_none_iff]
    cases (s.bridge.registry.table c).refusal? handles <;> simp
  · rintro before x after rfl hn hb
    obtain ⟨hout, hdel⟩ := HandleTable.refusal?_of_first hn hb x after
    rw [h.kind c] at hout hdel
    constructor
    · intro hle
      rw [hout hle]
    · intro hx
      rw [hdel hx]

/-- Deleting the objects of many handles, in any state of a run: each handle is dealt with as it
would be alone, and the first failure is reported in the end. -/
theorem Run.deletes_in_bulk (h : Run s) (b : BulkClass) (count ptr : UInt32) :
    Capability.DeletesInBulk b count ptr s := by
  have hfault : (Capability.deleteMany b count ptr).fault? s = s.arrayFault? ptr count :=
    memoryFault?_readWords s ptr count
  rcases Capability.deleteMany_cases b count ptr s with ⟨e, hf, -, hrun⟩ | ⟨hf, hrun⟩
  · constructor
    · intro e' he'
      obtain rfl : e = e' := Option.some.inj (hf.symm.trans (hfault.trans he'))
      exact hrun
    · intro hnone
      cases hf.symm.trans (hfault.trans hnone)
  · constructor
    · intro e he
      cases hf.symm.trans (hfault.trans he)
    · intro _
      have hread := readWords_of_no_fault hf
      obtain ⟨t, heach, hbridge, hmemory, hjournal⟩ :=
        deleteEach_ends b.objectClass (s.words ptr count) s
      have hrun := hrun heach
      have ht : Run t := by
        have hafter := h.capability (.deleteMany b count ptr)
        rwa [hrun] at hafter
      have hdeletion := h.deletion ht hbridge hmemory hjournal
      refine ⟨_, hread, Memory.length_of_readWords hread, ?_⟩
      rw [hrun]
      cases hr : (s.bridge.registry.table b.objectClass).refusal? (s.words ptr count) <;>
        rw [hr] at hdeletion <;> exact hdeletion

/-- Of three buffers the last is deleted, and then an array of five handles: of the second one, of
the last one, of none, of the second one again, and of the first one. The first two buffers are
deleted, and the handle of the last one is reported. -/
theorem Run.deletes_in_bulk_of_stale_handle :
    let start : Core ScriptedContext :=
      { gl := {}, memory := ⟨[1, 2, 7, 1, 0].flatMap wordBytes⟩, bridge := { attached := true } }
    let made := (Capability.run (.create .buffer) (Capability.run (.create .buffer)
      (Capability.run (.create .buffer) start).2).2).2
    let s := (Capability.run (.delete .buffer 2) made).2
    let r := (Capability.deleteMany .buffer 5 0).run s
    Run s ∧ r.1 = .error (.registry (.deleted .buffer 2)) ∧
      r.2.everDeleted .buffer = [⟨102⟩, ⟨101⟩, ⟨100⟩] ∧
      Capability.DeletesInBulk .buffer 5 0 s := by
  intro start made s r
  have hstart : Run start := .start rfl fun d => by cases d <;> exact ⟨rfl, rfl⟩
  have hmade : Run made := .capability _ (.capability _ (.capability _ hstart))
  have hs : Run s := .capability _ hmade
  exact ⟨hs, rfl, by decide, hs.deletes_in_bulk .buffer 5 0⟩

end Core

end GuestBridge
