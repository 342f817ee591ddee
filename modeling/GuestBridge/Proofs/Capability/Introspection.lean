import GuestBridge.Capability.Run
import GuestBridge.Proofs.Memory.Regions
import GuestBridge.Proofs.Text.Latin

/-!
# Descriptions of uniform variables

Asking for an active uniform variable stores four things in the guest's memory: how long its name
is, its array size, its type, and the name itself, cut to the room that there is for it.
`Capability.describes_uniform` says exactly when this succeeds, what can be read back, and that
nothing else in memory changes, not even the room that a short name leaves unused.
-/

set_option autoImplicit false

namespace GuestBridge

/-! ## Reading back -/

namespace Memory

variable {m : Memory}

theorem readWords_of_read {ptr v : UInt32} (hal : ptr.toNat % 4 = 0) (hin : ptr.toNat + 4 ≤ m.size)
    (h : m.read ptr.toNat 4 = wordBytes v) : m.readWords ptr 1 = .ok [v] := by
  have hone : m.HasArray ptr (1 : UInt32).toNat := ⟨hal, hin⟩
  have hread : m.read ptr.toNat (4 * (1 : UInt32).toNat) = wordBytes v := h
  rw [readWords_of_hasArray hone, hread, readWords_bytes]

end Memory

/-! ## Descriptions -/

/-- Where the guest wants the description of a uniform variable: pointers to its parts, and the room
for its name. -/
structure DescriptionRequest where
  nameCapacity : UInt32
  lengthPtr : UInt32
  sizePtr : UInt32
  typePtr : UInt32
  namePtr : UInt32

namespace DescriptionRequest

variable (q : DescriptionRequest)

/-- The call that asks for the description of a program's uniform variable. -/
def call (program index : UInt32) : Capability :=
  .activeUniform program index q.nameCapacity q.lengthPtr q.sizePtr q.typePtr q.namePtr

/-- The pointers to numbers. -/
def scalars : List UInt32 := [q.lengthPtr, q.sizePtr, q.typePtr]

/-- There is room for a description in a memory of `size` bytes. -/
def Fits (size : Nat) : Prop :=
  (∀ p ∈ q.scalars, p.toNat % 4 = 0 ∧ p.toNat + 4 ≤ size) ∧
    q.namePtr.toNat + q.nameCapacity.toNat ≤ size

/-- The bytes of a name for which there is room. -/
def cut (name : String) : List UInt8 := name.toUTF8.data.toList.take q.nameCapacity.toNat

/-- The ranges that a description with a name of `n` bytes is written to. -/
def ranges (n : Nat) : List ByteRange :=
  q.scalars.map (fun p => ⟨p.toNat, p.toNat + 4⟩) ++ [⟨q.namePtr.toNat, q.namePtr.toNat + n⟩]

/-- The stores that make a description. -/
def stores (u : ActiveUniform) : List Store :=
  [.word q.lengthPtr (.ofNat (q.cut u.name).length), .word q.sizePtr u.size.toUInt32,
    .int q.typePtr u.kind.toInt32, .bytes q.namePtr (q.cut u.name)]

theorem length_cut (name : String) :
    (q.cut name).length = min name.toUTF8.data.toList.length q.nameCapacity.toNat := by
  rw [cut, List.length_take, Nat.min_comm]

-- There may be room for half a character.
example : DescriptionRequest.cut ⟨3, 0, 4, 8, 12⟩ "größe" = [0x67, 0x72, 0xc3] := by decide

theorem length_cut_le (name : String) : (q.cut name).length ≤ q.nameCapacity.toNat :=
  List.length_take_le _ _

theorem length_cut_lt (name : String) : (q.cut name).length < UInt32.size :=
  Nat.lt_of_le_of_lt (q.length_cut_le name) q.nameCapacity.toNat_lt

theorem length_data_stores (u : ActiveUniform) :
    ∀ w ∈ q.stores u, w.data.length < UInt32.size := by
  have hname : (Store.bytes q.namePtr (q.cut u.name)).data.length < UInt32.size :=
    q.length_cut_lt u.name
  have hword (p v : UInt32) : (Store.word p v).data.length < UInt32.size :=
    show 4 < UInt32.size by decide
  have hint (p : UInt32) (v : Int32) : (Store.int p v).data.length < UInt32.size :=
    show 4 < UInt32.size by decide
  simp [stores, hname, hword, hint]

theorem range_stores (u : ActiveUniform) :
    (q.stores u).map Store.range = q.ranges (q.cut u.name).length := rfl

variable {q}

/-- Where there is room for a description, its stores can be made. -/
theorem Fits.stores {size : Nat} (h : q.Fits size) (u : ActiveUniform) :
    ∀ w ∈ q.stores u, w.Fits size := by
  obtain ⟨hscalar, hname⟩ := h
  have hlength := hscalar q.lengthPtr (by simp [scalars])
  have hsize := hscalar q.sizePtr (by simp [scalars])
  have htype := hscalar q.typePtr (by simp [scalars])
  have hcut := q.length_cut_le u.name
  intro w hw
  simp only [DescriptionRequest.stores, List.mem_cons, List.not_mem_nil, or_false] at hw
  rcases hw with rfl | rfl | rfl | rfl
  · exact hlength
  · exact hsize
  · exact htype
  · have hle : q.namePtr.toNat + (q.cut u.name).length ≤ size :=
      Nat.le_trans (Nat.add_le_add_left hcut _) hname
    exact ⟨Nat.mod_one _, hle⟩

/-- Stores that can be made are made at aligned pointers. -/
theorem scalars_of_stores {size : Nat} {u : ActiveUniform} (h : ∀ w ∈ q.stores u, w.Fits size) :
    ∀ p ∈ q.scalars, p.toNat % 4 = 0 ∧ p.toNat + 4 ≤ size := by
  have hlength := h (.word q.lengthPtr (.ofNat (q.cut u.name).length)) (by simp [stores])
  have hsize := h (.word q.sizePtr u.size.toUInt32) (by simp [stores])
  have htype := h (.int q.typePtr u.kind.toInt32) (by simp [stores])
  intro p hp
  simp only [scalars, List.mem_cons, List.not_mem_nil, or_false] at hp
  rcases hp with rfl | rfl | rfl
  · exact hlength
  · exact hsize
  · exact htype

/-- A description of a uniform variable was written: between the memories, nothing changes outside
of its ranges, and if these are apart its parts can be read back. -/
structure Written (q : DescriptionRequest) (u : ActiveUniform) (m m' : Memory) : Prop where
  size : m'.size = m.size
  frame : ∀ i, (∀ r ∈ q.ranges (q.cut u.name).length, ¬ r.Covers i) → m'.bytes[i]? = m.bytes[i]?
  parts : (q.ranges (q.cut u.name).length).Pairwise ByteRange.Apart →
    m'.readWords q.lengthPtr 1 = .ok [.ofNat (q.cut u.name).length] ∧
    m'.readWords q.sizePtr 1 = .ok [u.size.toUInt32] ∧
    m'.readWords q.typePtr 1 = .ok [u.kind] ∧
    m'.readBytes q.namePtr (.ofNat (q.cut u.name).length) = .ok (q.cut u.name)

theorem Fits.written {m : Memory} (h : q.Fits m.size) (u : ActiveUniform) :
    q.Written u m (m.putAll (q.stores u)) := by
  have hfits := h.stores u
  have hsize : (m.putAll (q.stores u)).size = m.size := Memory.size_putAll hfits
  refine ⟨hsize, fun i hi => ?_, fun hapart => ?_⟩
  · have hnone : Store.last? (q.stores u) i = none := by
      apply Store.last?_eq_none_iff.2
      intro w hw
      apply hi
      rw [← range_stores]
      exact List.mem_map_of_mem hw
    rw [Memory.getElem?_putAll hfits, hnone]
  · have hpair : (q.stores u).Pairwise fun w w' => w.range.Apart w'.range := by
      rw [← range_stores] at hapart
      exact List.pairwise_map.1 hapart
    have hread : ∀ w ∈ q.stores u,
        (m.putAll (q.stores u)).read w.ptr.toNat w.data.length = w.data :=
      fun w hw => Memory.read_putAll hfits hpair hw
    have hword (p v : UInt32) (hp : p ∈ q.scalars) {w : Store} (hw : w ∈ q.stores u)
        (hptr : w.ptr = p) (hdata : w.data = wordBytes v) :
        (m.putAll (q.stores u)).readWords p 1 = .ok [v] := by
      obtain ⟨hal, hin⟩ := h.1 p hp
      have hr := hread w hw
      rw [hptr, hdata] at hr
      exact Memory.readWords_of_read hal (by rwa [hsize]) hr
    refine ⟨?_, ?_, ?_, ?_⟩
    · exact hword q.lengthPtr _ (by simp [scalars])
        (w := .word q.lengthPtr (.ofNat (q.cut u.name).length))
        (by simp [DescriptionRequest.stores]) rfl rfl
    · exact hword q.sizePtr _ (by simp [scalars]) (w := .word q.sizePtr u.size.toUInt32)
        (by simp [DescriptionRequest.stores]) rfl rfl
    · refine hword q.typePtr _ (by simp [scalars]) (w := .int q.typePtr u.kind.toInt32)
        (by simp [DescriptionRequest.stores]) rfl ?_
      show wordBytes u.kind.toInt32.toUInt32 = _
      rw [UInt32.toUInt32_toInt32]
    · have hcut := q.length_cut_le u.name
      have hin : q.namePtr.toNat + (q.cut u.name).length ≤ (m.putAll (q.stores u)).size := by
        rw [hsize]
        exact Nat.le_trans (Nat.add_le_add_left hcut _) h.2
      exact Memory.readBytes_of_read (q.length_cut_lt u.name) hin
        (hread (.bytes q.namePtr (q.cut u.name)) (by simp [DescriptionRequest.stores]))

end DescriptionRequest

/-! ## Asking -/

namespace Core

open Attempt

variable {G : Type} [GraphicsContext G] {s : Core G} {q : DescriptionRequest}
  {program index : UInt32}

/-- The uniform variable that the native context finds at an index of a program. -/
def uniformAt? (s : Core G) (program index : UInt32) : Option ActiveUniform :=
  match (s.bridge.registry.table .program).get program with
  | .ok p => (GraphicsContext.answer (.activeUniform p index) s.gl).1
  | .error _ => none

theorem uniformAt?_of_get {p : Native .program}
    (h : (s.bridge.registry.table .program).get program = .ok p) :
    s.uniformAt? program index = (GraphicsContext.answer (.activeUniform p index) s.gl).1 := by
  unfold uniformAt?
  rw [h]

omit [GraphicsContext G] in
/-- Storing a description, once there is one: all of it, or nothing if there is no guest or no
room. -/
theorem storeDescription_cases (q : DescriptionRequest) (u : ActiveUniform) (t : Core G) :
    let x : Action (Core G) Unit := do
      let memory ← guestMemory
      let _ ← Action.liftMemory (memory.check (View.bytes q.namePtr q.nameCapacity))
      store (q.stores u)
    (t.bridge.attached = true ∧ q.Fits t.memory.size ∧
        x t = (.ok (), { t with memory := t.memory.putAll (q.stores u) })) ∨
      ¬ (t.bridge.attached = true ∧ q.Fits t.memory.size) ∧ ∃ e, x t = (.error e, t) := by
  intro x
  rcases access_cases (fun memory => memory.check (View.bytes q.namePtr q.nameCapacity))
    (fun _ => store (q.stores u)) t with ⟨e, hf, hr⟩ | ⟨range, ha, hc, -, hr⟩
  · refine .inr ⟨?_, e, hr⟩
    rintro ⟨ha, -, hname⟩
    have hc : t.memory.check (View.bytes q.namePtr q.nameCapacity) = .ok _ :=
      View.byteRange_bytes hname
    unfold memoryFault? at hf
    simp only [hc, if_pos ha] at hf
    cases hf
  · have hname : q.namePtr.toNat + q.nameCapacity.toNat ≤ t.memory.size := by
      obtain ⟨-, hle, -⟩ := View.byteRange_eq_ok_iff.1 hc
      rwa [View.byteLen_bytes] at hle
    have hstore := store_eq ha (q.stores u)
    have hok (memory : Memory) : t.memory.writeBatch (q.stores u) = .ok memory ↔ _ :=
      Memory.writeBatch_eq_ok_iff (q.length_data_stores u)
    rcases hw : t.memory.writeBatch (q.stores u) with e | memory <;> rw [hw] at hstore
    · refine .inr ⟨?_, _, hr.trans hstore⟩
      rintro ⟨-, hfits⟩
      cases hw.symm.trans ((hok _).2 ⟨hfits.stores u, rfl⟩)
    · obtain ⟨hfits, rfl⟩ := (hok _).1 hw
      exact .inl ⟨ha, ⟨DescriptionRequest.scalars_of_stores hfits, hname⟩, hr.trans hstore⟩

/-- Asking for a uniform variable: there is one and it is described, or something is missing and
memory is as it was. -/
theorem activeUniform_cases (q : DescriptionRequest) (program index : UInt32) (s : Core G) :
    (∃ u t, s.bridge.attached = true ∧ s.uniformAt? program index = some u ∧
        q.Fits s.memory.size ∧ (q.call program index).run s = (.ok .nothing, t) ∧
        t.memory = s.memory.putAll (q.stores u)) ∨
      ¬ (s.bridge.attached = true ∧ (∃ u, s.uniformAt? program index = some u) ∧
          q.Fits s.memory.size) ∧
        ∃ e t, (q.call program index).run s = (.error e, t) ∧ t.memory = s.memory := by
  let x := Core.activeUniform (G := G) program index q.nameCapacity q.lengthPtr q.sizePtr q.typePtr
    q.namePtr
  have hobject : object .program program s =
      (((s.bridge.registry.table .program).get program).mapError .registry, s) := rfl
  rcases hg : (s.bridge.registry.table .program).get program with e | p <;> rw [hg] at hobject
  · have hx : x s = (.error (.registry e), s) := bind_of_error hobject
    refine .inr ⟨?_, _, _, bind_of_error hx, rfl⟩
    rintro ⟨-, ⟨u, hu⟩, -⟩
    rw [uniformAt?, hg] at hu
    cases hu
  · have hnative : native (.activeUniform p index) s =
        (.ok (s.uniformAt? program index), (s.perform (.activeUniform p index)).2) := by
      rw [uniformAt?_of_get hg]
      rfl
    have hlookup : x s = _ := (bind_of_ok hobject).trans (bind_of_ok hnative)
    rcases hu : s.uniformAt? program index with _ | u <;> rw [hu] at hlookup
    · refine .inr ⟨?_, _, _, bind_of_error hlookup, rfl⟩
      rintro ⟨-, ⟨u, hu'⟩, -⟩
      cases hu'
    · simp only [Text.utf8_eq] at hlookup
      rcases storeDescription_cases q u (s.perform (.activeUniform p index)).2 with
        ⟨ha, hfits, hr⟩ | ⟨hn, e, hr⟩
      · exact .inl ⟨u, _, ha, rfl, hfits, bind_of_ok (hlookup.trans hr), rfl⟩
      · refine .inr ⟨?_, e, _, bind_of_error (hlookup.trans hr), rfl⟩
        rintro ⟨ha, -, hfits⟩
        exact hn ⟨ha, hfits⟩

end Core

namespace Capability

variable {G : Type} [GraphicsContext G]

/-- How asking for the description of a uniform variable ends. -/
structure Introspection (q : DescriptionRequest) (program index : UInt32) (s : Core G) :
    Prop where
  /-- It succeeds exactly if there is a guest, the program's handle resolves, the native context
  knows a uniform variable there, and there is room for its description. -/
  succeeds : (∃ r, ((q.call program index).run s).1 = .ok r) ↔
    s.bridge.attached = true ∧
    (∃ p u, (s.bridge.registry.table .program).get program = .ok p ∧
      (GraphicsContext.answer (.activeUniform p index) s.gl).1 = some u) ∧
    (∀ ptr ∈ [q.lengthPtr, q.sizePtr, q.typePtr],
      ptr.toNat % 4 = 0 ∧ ptr.toNat + 4 ≤ s.memory.size) ∧
    q.namePtr.toNat + q.nameCapacity.toNat ≤ s.memory.size
  /-- Then the description is in memory. -/
  written : ∀ r t, (q.call program index).run s = (.ok r, t) →
    ∀ p u, (s.bridge.registry.table .program).get program = .ok p →
      (GraphicsContext.answer (.activeUniform p index) s.gl).1 = some u →
        q.Written u s.memory t.memory
  /-- Its name is as long as it can be. -/
  length : ∀ u : ActiveUniform,
    (q.cut u.name).length = min u.name.utf8ByteSize q.nameCapacity.toNat
  failed : ∀ e t, (q.call program index).run s = (.error e, t) → t.memory = s.memory

/-- Asking for a uniform variable, in any state and with any pointers, describes it wherever that is
possible, and changes nothing besides. -/
theorem describes_uniform (q : DescriptionRequest) (program index : UInt32) (s : Core G) :
    Introspection q program index s := by
  have hat : (∃ u, s.uniformAt? program index = some u) ↔
      ∃ p u, (s.bridge.registry.table .program).get program = .ok p ∧
        (GraphicsContext.answer (.activeUniform p index) s.gl).1 = some u := by
    unfold Core.uniformAt?
    rcases (s.bridge.registry.table .program).get program with e | p <;> simp
  have hlen (u : ActiveUniform) :
      (q.cut u.name).length = min u.name.utf8ByteSize q.nameCapacity.toNat := by
    rw [q.length_cut]
    rfl
  rcases Core.activeUniform_cases q program index s with
    ⟨u, t, ha, hu, hfits, hrun, hmem⟩ | ⟨hn, e, t, hrun, hmem⟩
  · refine ⟨?_, ?_, hlen, ?_⟩
    · rw [hrun, ← hat]
      exact ⟨fun _ => ⟨ha, ⟨u, hu⟩, hfits⟩, fun _ => ⟨_, rfl⟩⟩
    · intro r t' hr p u' hp hu'
      obtain rfl : t = t' := (Prod.mk.inj (hrun.symm.trans hr)).2
      obtain rfl : u = u' := by
        rw [Core.uniformAt?_of_get hp, hu'] at hu
        exact (Option.some.inj hu).symm
      rw [hmem]
      exact hfits.written u
    · intro e t' hr
      cases hrun.symm.trans hr
  · refine ⟨?_, ?_, hlen, ?_⟩
    · rw [hrun, ← hat]
      exact ⟨fun ⟨_, hr⟩ => (by cases hr), fun h => absurd h hn⟩
    · intro r t' hr
      cases hrun.symm.trans hr
    · intro e' t' hr
      obtain rfl : t = t' := (Prod.mk.inj (hrun.symm.trans hr)).2
      exact hmem

end Capability

end GuestBridge
