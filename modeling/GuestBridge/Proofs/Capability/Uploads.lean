import GuestBridge.Capability.Run
import GuestBridge.Graphics.Scripted
import GuestBridge.Proofs.Capability.Deeds
import GuestBridge.Proofs.Memory.Regions
import GuestBridge.Proofs.Memory.Words

/-!
# Uploads

Three capabilities hand a part of the guest's memory to the native context: numbers for a buffer,
matrices for a uniform variable, and bytes for a texture. `Capability.uploads_exactly` says what
each of them passes on, and which conditions it checks first and in which order
(`Capability.HandsOver`): either all of them hold and there is one native call, or the first that
does not is reported and nothing happens.
-/

set_option autoImplicit false

namespace GuestBridge

/-- A condition, and what is reported where it does not hold. -/
structure Check where
  holds : Prop
  error : BridgeError

/-- The numbers of four bytes each whose bits lie at `ptr`, the least significant byte first. -/
def Memory.Singles (m : Memory) (ptr : Nat) (values : List Ieee.Single) : Prop :=
  ∀ i < values.length, ∃ a b c d v,
    m.bytes[ptr + 4 * i]? = some a ∧ m.bytes[ptr + 4 * i + 1]? = some b ∧
      m.bytes[ptr + 4 * i + 2]? = some c ∧ m.bytes[ptr + 4 * i + 3]? = some d ∧
      values[i]? = some v ∧
      v.bits.toNat = a.toNat + 2 ^ 8 * b.toNat + 2 ^ 16 * c.toNat + 2 ^ 24 * d.toNat

namespace Capability

open GuestBridge.Core Attempt

variable {G : Type} [GraphicsContext G]

/-- What an upload answers: nothing, unless the native context refuses a texture's bytes. -/
def uploaded : (call : GlCall) → call.Answer → Except BridgeError Result
  | .texImage2D _ _, .error message => .error (.native "texImage2D" message)
  | _, _ => .ok .nothing

/-- What it comes to, from `s`, to hand a call over to the native context once all conditions have
been checked in order. `Carries` says which call it is. -/
structure HandsOver (s : Core G) (r : Except BridgeError Result × Core G) (checks : List Check)
    (Carries : GlCall → Prop) : Prop where
  /-- If they hold, there is one native call, and nothing but that. -/
  made : (∀ k ∈ checks, k.holds) →
    ∃ call, Carries call ∧ r = (uploaded call (s.perform call).1, (s.perform call).2)
  /-- The first that does not hold is reported, and nothing has happened. -/
  refused : ∀ before k after, checks = before ++ k :: after → (∀ q ∈ before, q.holds) →
    ¬ k.holds → r = (.error k.error, s)
  called_iff : (∃ call answer, Carries call ∧ s.since r.2 = [.gl call answer]) ↔
    ∀ k ∈ checks, k.holds
  memory : r.2.memory = s.memory
  bridge : r.2.bridge = s.bridge

/-- The conditions on `count` numbers of four bytes each at `ptr`. -/
def singlesChecks (m : Memory) (ptr : UInt32) (count : Nat) : List Check :=
  [⟨ptr.toNat % 4 = 0, .memory (.misaligned ptr .f32)⟩,
    ⟨ptr.toNat + count * 4 ≤ m.size, .memory (.outOfBounds ptr (count * 4) m.size)⟩]

/-- The conditions on the handle of a location: it was issued, and not deleted since. -/
def locationChecks (t : HandleTable (Option Location)) (handle : UInt32) : List Check :=
  [⟨handle.toNat < t.slots.length, .registry (.outOfRange t.kind handle)⟩,
    ⟨t.slots[handle.toNat]? ≠ some none, .registry (.deleted t.kind handle)⟩]

/-- What the uploads of a core pass on, each with what it checks. -/
structure Uploads (s : Core G) : Prop where
  buffer : ∀ target count ptr usage : UInt32,
    HandsOver s ((bufferData target count ptr usage).run s)
      (singlesChecks s.memory ptr count.toNat)
      fun call => ∃ data, call = .bufferData target data usage ∧ data.length = 4 * count.toNat ∧
        ∀ i < 4 * count.toNat, data[i]? = s.memory.bytes[ptr.toNat + i]?
  /-- Sixteen numbers for each matrix. The location may be none. -/
  matrices : ∀ (l count : UInt32) (transpose : Bool) (ptr : UInt32),
    HandsOver s ((uniformMatrix4fv l count transpose ptr).run s)
      (⟨count.toNat * 16 < 2 ^ 32, .memory (.tooLarge count.toNat)⟩ ::
        (singlesChecks s.memory ptr (count.toNat * 16) ++
          locationChecks s.bridge.registry.locations l))
      fun call => ∃ location values, call = .uniformMatrix4fv location transpose values ∧
        s.bridge.registry.locations.slots[l.toNat]? = some (some location) ∧
        values.length = count.toNat * 16 ∧ s.memory.Singles ptr.toNat values
  /-- For no bytes nothing is read, wherever the pointer points, and none are passed. -/
  texture : ∀ (image : TexImage) (ptr len : UInt32),
    HandsOver s ((texImage image ptr len).run s)
      [⟨len.toNat = 0 ∨ ptr.toNat + len.toNat ≤ s.memory.size,
        .memory (.outOfBounds ptr len.toNat s.memory.size)⟩]
      fun call => ∃ data, call = .texImage2D image data ∧
        if len.toNat = 0 then data = none
        else ∃ bytes, data = some bytes ∧ bytes.length = len.toNat ∧
          ∀ i < len.toNat, bytes[i]? = s.memory.bytes[ptr.toNat + i]?

/-! ## One check after another -/

section

variable {s : Core G} {r : Except BridgeError Result × Core G} {checks : List Check}
  {Carries : GlCall → Prop}

theorem handsOver_call {call : GlCall} (h : Carries call)
    (hr : r = (uploaded call (s.perform call).1, (s.perform call).2)) :
    HandsOver s r [] Carries := by
  have hsince : s.since r.2 = [.gl call (s.perform call).1] := by
    apply since_eq
    rw [hr]
    exact Array.toList_push
  refine ⟨fun _ => ⟨call, h, hr⟩, ?_, ?_, hr ▸ rfl, hr ▸ rfl⟩
  · intro before k after hnil
    cases before <;> cases hnil
  · constructor
    · intro _ k hk
      cases hk
    · intro _
      exact ⟨call, _, h, hsince⟩

theorem handsOver_check {k : Check} (hno : ¬ k.holds → r = (.error k.error, s))
    (hyes : k.holds → HandsOver s r checks Carries) : HandsOver s r (k :: checks) Carries := by
  by_cases hk : k.holds
  · obtain ⟨hmade, hrefused, hcalled, hmemory, hbridge⟩ := hyes hk
    refine ⟨?_, ?_, ?_, hmemory, hbridge⟩
    · intro hall
      exact hmade fun q hq => hall q (List.mem_cons_of_mem k hq)
    · intro before q after hsplit hbefore hq
      cases before with
      | nil =>
        obtain ⟨rfl, -⟩ := List.cons.inj hsplit
        exact absurd hk hq
      | cons p before =>
        obtain ⟨-, hrest⟩ := List.cons.inj hsplit
        exact hrefused before q after hrest
          (fun x hx => hbefore x (List.mem_cons_of_mem p hx)) hq
    · rw [hcalled, List.forall_mem_cons]
      exact (and_iff_right hk).symm
  · have hr : r = (.error k.error, s) := hno hk
    refine ⟨?_, ?_, ?_, hr ▸ rfl, hr ▸ rfl⟩
    · intro hall
      exact absurd (hall k List.mem_cons_self) hk
    · intro before q after hsplit hbefore hq
      cases before with
      | nil =>
        obtain ⟨rfl, -⟩ := List.cons.inj hsplit
        exact hr
      | cons p before =>
        obtain ⟨rfl, -⟩ := List.cons.inj hsplit
        exact absurd (hbefore k List.mem_cons_self) hk
    · have hsince : s.since r.2 = [] := by
        apply since_eq
        rw [hr, List.append_nil]
      constructor
      · rintro ⟨call, answer, -, hcall⟩
        rw [hsince] at hcall
        cases hcall
      · intro hall
        exact absurd (hall k List.mem_cons_self) hk

/-- What goes on with numbers from memory, after the conditions on where they lie. -/
theorem handsOver_singles {α : Type} {ptr count : UInt32} (ha : s.bridge.attached = true)
    {access : Memory → Except MemoryError α} {g : List UInt8 → α}
    (haccess : access s.memory = (s.memory.readView ⟨.f32, ptr, count⟩).map g)
    {f : α → Action (Core G) Result}
    (h : ptr.toNat + count.toNat * 4 ≤ s.memory.size →
      HandsOver s (f (g (s.memory.read ptr.toNat (count.toNat * 4))) s) checks Carries) :
    HandsOver s
      ((do
        let memory ← guestMemory
        f (← Action.liftMemory (access memory))) s)
      (singlesChecks s.memory ptr count.toNat ++ checks) Carries := by
  have herror : ∀ e, View.byteRange ⟨.f32, ptr, count⟩ s.memory.size = .error e →
      access s.memory = .error e := by
    intro e he
    rw [haccess, Memory.readView_of_error he]
    rfl
  refine handsOver_check (fun hno => ?_) fun hal => handsOver_check (fun hno => ?_) fun hin => ?_
  · exact access_of_error ha (herror _ (View.byteRange_of_misaligned hno)) f
  · exact access_of_error ha (herror _ (View.byteRange_of_unfit hal (Nat.lt_of_not_le hno))) f
  · have hok : access s.memory = .ok (g (s.memory.read ptr.toNat (count.toNat * 4))) := by
      rw [haccess, Memory.readView_of_fits hal hin]
      rfl
    rw [access_of_ok ha hok f]
    exact h hin

/-- What goes on with a location, after the conditions on its handle. -/
theorem handsOver_location {l : UInt32} {f : Option Location → Action (Core G) Result}
    (h : ∀ location, s.bridge.registry.locations.slots[l.toNat]? = some (some location) →
      HandsOver s (f location s) checks Carries) :
    HandsOver s ((location l >>= f) s)
      (locationChecks s.bridge.registry.locations l ++ checks) Carries := by
  have hlookup : location l s =
      ((s.bridge.registry.locations.get l).mapError .registry, s) := rfl
  unfold HandleTable.get at hlookup
  refine handsOver_check (fun hno => ?_) fun hissued =>
    handsOver_check (fun hno => ?_) fun hkept => ?_
  · rw [List.getElem?_eq_none (Nat.le_of_not_lt hno)] at hlookup
    exact bind_of_error hlookup
  · rw [not_not.1 hno] at hlookup
    exact bind_of_error hlookup
  · rcases hslot : s.bridge.registry.locations.slots[l.toNat]? with _ | _ | location
    · exact absurd (List.getElem?_eq_none_iff.1 hslot) (Nat.not_le.2 hissued)
    · exact absurd hslot hkept
    · rw [hslot] at hlookup
      rw [bind_of_ok hlookup]
      exact h location hslot

end

/-! ## The uploads -/

/-- The numbers that are read from a region of memory. -/
theorem singles_wordsOf {m : Memory} {ptr count : Nat} (h : ptr + count * 4 ≤ m.size) :
    ((wordsOf (m.read ptr (count * 4))).map Ieee.Single.mk).length = count ∧
      m.Singles ptr ((wordsOf (m.read ptr (count * 4))).map Ieee.Single.mk) := by
  have hbytes : (m.read ptr (count * 4)).length = count * 4 := Memory.length_read h
  have hlen : ((wordsOf (m.read ptr (count * 4))).map Ieee.Single.mk).length = count := by
    rw [List.length_map, length_wordsOf, hbytes, Nat.mul_div_cancel _ (by decide)]
  refine ⟨hlen, fun i hi => ?_⟩
  rw [hlen] at hi
  have hroom : 4 * i + 4 ≤ (m.read ptr (count * 4)).length := by omega
  obtain ⟨a, b, c, d, h0, h1, h2, h3, hword⟩ := getElem?_wordsOf hroom
  rw [Memory.getElem?_read (by omega)] at h0 h1 h2 h3
  refine ⟨a, b, c, d, ⟨wordOf a b c d⟩, h0, h1, h2, h3, ?_, toNat_wordOf a b c d⟩
  rw [List.getElem?_map, hword]
  rfl

omit [GraphicsContext G] in
/-- The bytes of an upload to a texture, if there are any. -/
theorem uploadData_of_pos {s : Core G} (ha : s.bridge.attached = true) (ptr : UInt32)
    {len : UInt32} (hlen : len ≠ 0) :
    Core.uploadData ptr len s =
      if ptr.toNat + len.toNat ≤ s.memory.size then
        (.ok (some (s.memory.read ptr.toNat len.toNat)), s)
      else (.error (.memory (.outOfBounds ptr len.toNat s.memory.size)), s) := by
  have hskip : Core.uploadData ptr len s =
      (do
        let memory ← guestMemory
        let bytes ← Action.liftMemory (memory.readBytes ptr len)
        return some bytes : Action (Core G) (Option (List UInt8))) s := by
    unfold Core.uploadData
    rw [if_neg hlen]
  rw [hskip]
  by_cases hin : ptr.toNat + len.toNat ≤ s.memory.size
  · rw [if_pos hin]
    exact access_of_ok ha (Memory.readBytes_eq hin) fun bytes => pure (some bytes)
  · rw [if_neg hin]
    exact access_of_error ha (Memory.readBytes_of_unfit (Nat.lt_of_not_le hin))
      fun bytes => pure (some bytes)

theorem run_texImage {s : Core G} {ptr len : UInt32} {data : Option (List UInt8)}
    (h : Core.uploadData ptr len s = (.ok data, s)) (image : TexImage) :
    (texImage image ptr len).run s =
      (uploaded (.texImage2D image data) (s.perform (.texImage2D image data)).1,
        (s.perform (.texImage2D image data)).2) := by
  simp only [run, silent, Core.texImage, bind_assoc]
  have hnative : native (.texImage2D image data) s =
      (.ok (s.perform (.texImage2D image data)).1, (s.perform (.texImage2D image data)).2) := rfl
  rw [bind_of_ok h, bind_of_ok hnative]
  cases (s.perform (.texImage2D image data)).1 <;> rfl

/-- Each upload passes on precisely what lies in memory, once what it checks holds. -/
theorem uploads_exactly (s : Core G) (ha : s.bridge.attached = true) : Uploads s := by
  refine ⟨?buffer, ?matrices, ?texture⟩
  case buffer =>
    intro target count ptr usage
    have hread : s.memory.readView ⟨.f32, ptr, count⟩ =
        (s.memory.readView ⟨.f32, ptr, count⟩).map id := by
      cases s.memory.readView ⟨.f32, ptr, count⟩ <;> rfl
    simp only [run, silent, Core.bufferData, bind_assoc]
    rw [← List.append_nil (singlesChecks s.memory ptr count.toNat)]
    refine handsOver_singles ha hread fun hin => handsOver_call ⟨_, rfl, ?_, ?_⟩ rfl
    · exact (Memory.length_read hin).trans (Nat.mul_comm ..)
    · intro i hi
      exact Memory.getElem?_read (Nat.mul_comm .. ▸ hi)
  case matrices =>
    intro l count transpose ptr
    refine handsOver_check (fun hno => ?_) fun hsmall => ?_
    · simp only [run, silent, Core.uniformMatrix4fv]
      have hlarge : ¬ count.toNat * 16 < UInt32.size := hno
      rw [if_neg hlarge]
      rfl
    · replace hsmall : count.toNat * 16 < UInt32.size := hsmall
      have hcount : (count * 16).toNat = count.toNat * 16 := by
        rw [UInt32.toNat_mul]
        exact Nat.mod_eq_of_lt hsmall
      have hread : s.memory.readSingles ptr (count * 16) =
          (s.memory.readView ⟨.f32, ptr, count * 16⟩).map
            fun bytes => (wordsOf bytes).map Ieee.Single.mk := by
        unfold Memory.readSingles
        cases s.memory.readView ⟨.f32, ptr, count * 16⟩ <;> rfl
      simp only [run, silent, Core.uniformMatrix4fv]
      rw [if_pos hsmall]
      simp only [bind_assoc]
      rw [← hcount]
      refine handsOver_singles ha hread fun hin => ?_
      rw [← List.append_nil (locationChecks s.bridge.registry.locations l)]
      refine handsOver_location fun location hslot => ?_
      obtain ⟨hlen, hvalues⟩ := singles_wordsOf hin
      exact handsOver_call ⟨location, _, rfl, hslot, hlen, hvalues⟩ rfl
  case texture =>
    intro image ptr len
    by_cases hlen : len = 0
    · have hnone : Core.uploadData ptr len s = (.ok none, s) := by
        unfold Core.uploadData
        rw [if_pos hlen]
        rfl
      have hzero : len.toNat = 0 := congrArg UInt32.toNat hlen
      refine handsOver_check (fun hno => absurd (.inl hzero) hno) fun _ => ?_
      exact handsOver_call ⟨none, rfl, by rw [if_pos hzero]⟩ (run_texImage hnone image)
    · have hpos : len.toNat ≠ 0 := fun h => hlen (UInt32.toNat_inj.1 h)
      have hdata := uploadData_of_pos ha ptr hlen
      refine handsOver_check (fun hno => ?_) fun hin => ?_
      · obtain ⟨-, hout⟩ := not_or.1 hno
        rw [if_neg hout] at hdata
        simp only [run, silent, Core.texImage, bind_assoc]
        exact bind_of_error hdata
      · have hfits : ptr.toNat + len.toNat ≤ s.memory.size := hin.resolve_left hpos
        rw [if_pos hfits] at hdata
        refine handsOver_call ⟨some (s.memory.read ptr.toNat len.toNat), rfl, ?_⟩
          (run_texImage hdata image)
        rw [if_neg hpos]
        exact ⟨_, rfl, Memory.length_read hfits, fun i hi => Memory.getElem?_read hi⟩

/-- One matrix, with a location that is none, and more matrices than can be counted. -/
theorem uploads_exactly_in_small_memory :
    let s : Core ScriptedContext :=
      { gl := {}, memory := ⟨List.range 70 |>.map UInt8.ofNat⟩
        bridge := { attached := true
                    registry := { locations := ⟨.uniformLocation, [some none]⟩ } } }
    s.bridge.attached = true ∧ Uploads s ∧
      s.since ((uniformMatrix4fv 0 1 true 4).run s).2 =
        [.gl (.uniformMatrix4fv none true
          ((List.range 16).map fun i => ⟨.ofNat (0x07060504 + i * 0x04040404)⟩)) ()] ∧
      ((uniformMatrix4fv 7 0x10000000 true 3).run s).1 = .error (.memory (.tooLarge 0x10000000)) ∧
      ((bufferData 1 17 6 2).run s).1 = .error (.memory (.misaligned 6 .f32)) :=
  ⟨rfl, uploads_exactly _ rfl, rfl, rfl, rfl⟩

end Capability

end GuestBridge
