import GuestBridge.Proofs.Capability.Failure
import GuestBridge.Proofs.Handle.Slots
import GuestBridge.Proofs.Memory.Batch

/-!
# Creating many objects at once

Many objects are created as they would be one after another: native creations that all answer
(`Core.Creations`) give the same handles and the same tables either way (`Core.times_create`). What
is added is an array of the handles in memory, for which the room is checked first, and that a
creation that fails takes all the earlier ones back. `Capability.creates_in_bulk` says all of it.
-/

set_option autoImplicit false

namespace GuestBridge

/-- Makes a call `n` times, up to its first failure, and answers all that it hands back. -/
def Capability.times {G : Type} [GraphicsContext G] (c : Capability) :
    Nat → Action (Core G) (List Result)
  | 0 => pure []
  | n + 1 => do
    let result ← c.run
    let results ← c.times n
    return result :: results

namespace Core

open Attempt

variable {G : Type} [GraphicsContext G] {b : BulkClass} {s t : Core G}
  {os : List (Native b.objectClass)} {n : Nat}

/-- Native creations do not look at the handle tables. -/
theorem run_create_withRegistry (b : BulkClass) (s : Core G) (R : Registry) :
    (Capability.create b).run (s.withRegistry R) =
      match (s.perform (.create b.blueprint)).1 with
      | some o => (.ok (.number ((R.table b.objectClass).create o).1.toNat),
          (s.perform (.create b.blueprint)).2.withRegistry
            (R.withTable b.objectClass ((R.table b.objectClass).create o).2))
      | none => (.error (.native (createCall b.objectClass) "returned null"),
          (s.perform (.create b.blueprint)).2.withRegistry R) := by
  have hnative : native (.create b.blueprint) (s.withRegistry R) =
      (.ok (s.perform (.create b.blueprint)).1,
        (s.perform (.create b.blueprint)).2.withRegistry R) := rfl
  refine (bind_pure_apply (createObject b) (fun w => Capability.Result.number w.toNat) _).trans ?_
  unfold createObject
  rw [bind_of_ok hnative]
  rcases (s.perform (.create b.blueprint)).1 with _ | o <;> rfl

/-- Single creations give the handles of creating many, and leave the same tables. -/
theorem times_create (h : Creations b s os t) (R : Registry) :
    (Capability.create b).times os.length (s.withRegistry R) =
      (.ok (((R.table b.objectClass).createMany os).1.map fun handle => .number handle.toNat),
        t.withRegistry
          (R.withTable b.objectClass ((R.table b.objectClass).createMany os).2)) := by
  induction h generalizing R with
  | nil s =>
    rw [HandleTable.createMany, Registry.withTable_table]
    rfl
  | @cons s t o os answer rest ih =>
    have hone := run_create_withRegistry b s R
    rw [answer] at hone
    have hrest := ih (R.withTable b.objectClass ((R.table b.objectClass).create o).2)
    rw [Registry.table_withTable, Registry.withTable_withTable] at hrest
    rw [List.length_cons, Capability.times, bind_of_ok hone, bind_of_ok hrest]
    rfl

/-- Where a native creation does not answer, single creations fail too. -/
theorem times_create_of_none (h : Creations b s os t) (hlen : os.length < n)
    (hnone : (t.perform (.create b.blueprint)).1 = none) (R : Registry) :
    ∃ e u, (Capability.create b).times n (s.withRegistry R) = (.error e, u) := by
  induction h generalizing n R with
  | nil s =>
    obtain ⟨n, rfl⟩ := Nat.exists_eq_succ_of_ne_zero (Nat.ne_of_gt hlen)
    have hone := run_create_withRegistry b s R
    rw [hnone] at hone
    exact ⟨_, _, bind_of_error hone⟩
  | @cons s t o os answer rest ih =>
    obtain ⟨n, rfl⟩ := Nat.exists_eq_succ_of_ne_zero (Nat.ne_of_gt (Nat.zero_lt_of_lt hlen))
    have hone := run_create_withRegistry b s R
    rw [answer] at hone
    obtain ⟨e, u, hrest⟩ := ih (Nat.lt_of_succ_lt_succ hlen) hnone
      (R.withTable b.objectClass ((R.table b.objectClass).create o).2)
    refine ⟨e, u, ?_⟩
    rw [Capability.times, bind_of_ok hone, bind_of_error hrest]

end Core

namespace Capability

open GuestBridge.Core

variable {G : Type} [GraphicsContext G]

/-- The objects `os` were created at once, and their handles are in an array at `outPtr`. -/
structure Bulk (b : BulkClass) (count outPtr : UInt32) (s t : Core G)
    (os : List (Native b.objectClass)) (handles : List UInt32) : Prop where
  /-- Apart from memory all is as after so many single creations, which hand back the handles. -/
  singly : (create b).times count.toNat s =
    (.ok (handles.map fun handle => .number handle.toNat), { t with memory := s.memory })
  length : os.length = count.toNat
  journal : t.journal.toList =
    s.journal.toList ++ os.map fun o => .gl (.create b.blueprint) (some o)
  slots : (t.bridge.registry.table b.objectClass).slots =
    (s.bridge.registry.table b.objectClass).slots ++ os.map some
  /-- A handle resolves to the object that was created in its place. A table with as many slots as
  there are words has no handles left. -/
  resolves : ∀ i o, os[i]? = some o →
    (s.bridge.registry.table b.objectClass).len + i < UInt32.size →
      ∃ handle, handles[i]? = some handle ∧
        (t.bridge.registry.table b.objectClass).get handle = .ok o
  stored : t.memory.readWords outPtr count = .ok handles
  size : t.memory.size = s.memory.size
  frame : ∀ i, i < outPtr.toNat ∨ outPtr.toNat + count.toNat * 4 ≤ i →
    t.memory.bytes[i]? = s.memory.bytes[i]?

/-- How creating many objects at once ends. -/
structure CreatesInBulk (b : BulkClass) (count outPtr : UInt32) (s : Core G) : Prop where
  /-- Where there is no room for the handles, nothing is done at all. -/
  refused : ∀ e, s.arrayFault? outPtr count = some e →
    (generate b count outPtr).run s = (.error e, s)
  /-- Where there is, it succeeds exactly if so many single creations do. -/
  succeeds : s.arrayFault? outPtr count = none →
    ((∃ r, ((generate b count outPtr).run s).1 = .ok r) ↔
      ∃ rs, ((create b).times count.toNat s).1 = .ok rs)
  created : ∀ r t, (generate b count outPtr).run s = (.ok r, t) →
    ∃ os handles, Bulk b count outPtr s t os handles
  /-- If not, the first creation to fail is reported, and those before it are taken back. -/
  failed : s.arrayFault? outPtr count = none →
    ∀ e t, (generate b count outPtr).run s = (.error e, t) →
      e = .native (createCall b.objectClass) "returned null" ∧
      t.bridge = s.bridge ∧ t.memory = s.memory ∧
      ∃ os : List (Native b.objectClass), os.length < count.toNat ∧
        t.journal.toList =
          s.journal.toList ++ os.map (fun o => .gl (.create b.blueprint) (some o)) ++
            [.gl (.create b.blueprint) none] ++ os.map fun o => .gl (.delete b.objectClass o) ()

/-- Creations that all answer, and their handles written where there is room for them. -/
theorem bulk_of_creations {b : BulkClass} {count outPtr : UInt32} {s t : Core G}
    {os : List (Native b.objectClass)} {range : ByteRange} (h : Creations b s os t)
    (hlen : os.length = count.toNat) (hc : s.memory.check ⟨.u32, outPtr, count⟩ = .ok range) :
    let made := (t.bridge.registry.table b.objectClass).createMany os
    Bulk b count outPtr s
      { t.withRegistry (t.bridge.registry.withTable b.objectClass made.2) with
        memory := t.memory.write range.start (made.1.flatMap wordBytes) } os made.1 := by
  intro made
  have hbridge := h.aside.bridge
  have hmemory := h.aside.memory
  have hmade : made.1.length = count.toNat := by rw [HandleTable.length_createMany, hlen]
  obtain ⟨-, hin, rfl⟩ := View.byteRange_eq_ok_iff.1 hc
  have hbytes : (made.1.flatMap wordBytes).length = count.toNat * 4 := by
    rw [length_flatMap_wordBytes, hmade]
  have hin : outPtr.toNat + (made.1.flatMap wordBytes).length ≤ s.memory.size := by
    rw [hbytes]
    exact hin
  have hslots : ((t.bridge.registry.withTable b.objectClass made.2).table b.objectClass).slots =
      (s.bridge.registry.table b.objectClass).slots ++ os.map some := by
    rw [Registry.table_withTable, HandleTable.slots_createMany, hbridge]
  refine ⟨?_, hlen, h.journal, hslots, ?_, ?_, ?_, ?_⟩
  · have htimes := times_create h s.bridge.registry
    rw [hlen, ← hbridge] at htimes
    have hs : s.withRegistry t.bridge.registry = s := by rw [hbridge]; rfl
    rw [hs] at htimes
    rw [htimes, ← hmemory]
    rfl
  · intro i o hi few
    have hlt : i < os.length := (List.getElem?_eq_some_iff.1 hi).1
    refine ⟨.ofNat ((s.bridge.registry.table b.objectClass).len + i), ?_, ?_⟩
    · show ((t.bridge.registry.table b.objectClass).createMany os).1[i]? = _
      rw [hbridge, HandleTable.handles_createMany, List.getElem?_map, List.getElem?_range' hlt,
        Nat.one_mul]
      rfl
    · have hslot : ((s.bridge.registry.table b.objectClass).slots ++ os.map some)[
          (s.bridge.registry.table b.objectClass).len + i]? = some (some o) := by
        rw [HandleTable.len, List.getElem?_append_right (Nat.le_add_right _ _),
          Nat.add_sub_cancel_left, List.getElem?_map, hi]
        rfl
      apply HandleTable.get_eq_ok_iff.2
      rw [UInt32.toNat_ofNat_of_lt' few]
      exact (congrArg (·[_]?) hslots).trans hslot
  · exact Memory.readWords_write (hmemory ▸ hc) hmade
  · show (Memory.write _ _ _).size = _
    rw [hmemory, Memory.size_write hin]
  · intro i hi
    show (Memory.write _ _ _).bytes[i]? = _
    rw [hmemory, Memory.getElem?_write hin, hbytes, if_neg (by omega)]

/-- Many objects are created at once as they would be one by one, or none is. -/
theorem creates_in_bulk (b : BulkClass) (count outPtr : UInt32) (s : Core G) :
    CreatesInBulk b count outPtr s := by
  rcases generate_cases b count outPtr s with
    ⟨e, hf, hr⟩ | ⟨hf, ⟨range, os, t, -, hc, hos, hlen, hr⟩ | ⟨os, t, hos, hlen, hnone, hr⟩⟩
  · have hrun : (generate b count outPtr).run s = (.error e, s) := Attempt.bind_of_error hr
    refine ⟨?_, ?_, ?_, ?_⟩
    · intro e' he'
      obtain rfl : e = e' := Option.some.inj (hf.symm.trans he')
      exact hrun
    · intro hnone
      cases hf.symm.trans hnone
    · intro r t hr
      cases hrun.symm.trans hr
    · intro hnone
      cases hf.symm.trans hnone
  · have hrun : (generate b count outPtr).run s = (.ok .nothing, _) := Attempt.bind_of_ok hr
    have hbulk := bulk_of_creations hos hlen hc
    refine ⟨?_, ?_, ?_, ?_⟩
    · intro e he
      cases hf.symm.trans he
    · intro _
      rw [hrun, hbulk.singly]
      exact ⟨fun _ => ⟨_, rfl⟩, fun _ => ⟨_, rfl⟩⟩
    · intro r t' hr
      obtain rfl := (Prod.mk.inj (hrun.symm.trans hr)).2
      exact ⟨os, _, hbulk⟩
    · intro _ e t' hr
      cases hrun.symm.trans hr
  · have hrun : (generate b count outPtr).run s =
        (.error (.native (createCall b.objectClass) "returned null"), _) :=
      Attempt.bind_of_error hr
    refine ⟨?_, ?_, ?_, ?_⟩
    · intro e he
      cases hf.symm.trans he
    · intro _
      obtain ⟨e, u, htimes⟩ := times_create_of_none hos hlen hnone s.bridge.registry
      have hs : s.withRegistry s.bridge.registry = s := rfl
      rw [hs] at htimes
      rw [hrun, htimes]
      exact ⟨fun ⟨_, hr⟩ => (by cases hr), fun ⟨_, hr⟩ => (by cases hr)⟩
    · intro r t' hr
      cases hrun.symm.trans hr
    · intro _ e t' hr
      obtain ⟨he, rfl⟩ := Prod.mk.inj (hrun.symm.trans hr)
      have haside := hos.aside_deleteAll
      refine ⟨(Except.error.inj he).symm, haside.bridge, haside.memory, os, hlen, ?_⟩
      rw [journal_deleteAll, journal_perform, hnone, hos.journal]

end Capability

end GuestBridge
