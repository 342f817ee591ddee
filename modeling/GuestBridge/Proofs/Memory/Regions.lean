import GuestBridge.Proofs.Memory.Batch

/-!
# Regions of memory

Bytes that fit are written where they are meant to go (`Memory.writeBatch_bytes`), growing the
memory or writing beyond a region leaves the region as it is, and a text depends on nothing but
the region that it lies in (`Memory.readString_eq`).
-/

set_option autoImplicit false

namespace GuestBridge

theorem View.byteLen_bytes (ptr len : UInt32) : (View.bytes ptr len).byteLen = len.toNat :=
  Nat.mul_one _

theorem View.byteRange_bytes {ptr len : UInt32} {size : Nat} (h : ptr.toNat + len.toNat ≤ size) :
    (View.bytes ptr len).byteRange size = .ok ⟨ptr.toNat, ptr.toNat + len.toNat⟩ := by
  rw [View.byteRange_eq_ok_iff, View.byteLen_bytes]
  exact ⟨Nat.mod_one _, h, rfl⟩

theorem View.byteRange_of_misaligned {v : View} {size : Nat}
    (hal : v.ptr.toNat % v.element.size ≠ 0) :
    v.byteRange size = .error (.misaligned v.ptr v.element) :=
  View.byteRange_eq_misaligned_iff.2 ⟨hal, rfl, rfl⟩

theorem View.byteRange_of_unfit {v : View} {size : Nat} (hal : v.ptr.toNat % v.element.size = 0)
    (h : size < v.ptr.toNat + v.byteLen) :
    v.byteRange size = .error (.outOfBounds v.ptr v.byteLen size) := by
  unfold View.byteRange
  rw [if_neg (not_not_intro hal), if_pos h]

namespace Memory

variable {m : Memory} {n offset : Nat}

theorem size_grow (m : Memory) (n : Nat) : (m.grow n).size = max m.size n := by
  unfold size grow
  rw [List.length_append, List.length_replicate]
  unfold size
  omega

theorem take_grow (h : n ≤ m.size) (size : Nat) : (m.grow size).bytes.take n = m.bytes.take n :=
  List.take_append_of_le_length h

theorem take_write (h : n ≤ offset) (hs : offset ≤ m.size) (data : List UInt8) :
    (m.write offset data).bytes.take n = m.bytes.take n := by
  have hl : (m.bytes.take offset).length = offset := List.length_take_of_le hs
  unfold write
  rw [List.append_assoc, List.take_append_of_le_length (by rw [hl]; exact h), List.take_take,
    Nat.min_eq_left h]

/-- Bytes that fit into the memory are written. -/
theorem writeBatch_bytes {ptr : UInt32} {data : List UInt8} (hd : data.length < UInt32.size)
    (hs : ptr.toNat + data.length ≤ m.size) :
    m.writeBatch [.bytes ptr data] = .ok (m.write ptr.toNat data) := by
  have hfits : (Store.bytes ptr data).Fits m.size := ⟨Nat.mod_one _, hs⟩
  exact writeBatch_of_fits (List.forall_mem_singleton.2 hd) (List.forall_mem_singleton.2 hfits)

theorem writeBatch_bytes_of_unfit {ptr : UInt32} {data : List UInt8}
    (hd : data.length < UInt32.size) (hs : m.size < ptr.toNat + data.length) :
    m.writeBatch [.bytes ptr data] = .error (.outOfBounds ptr data.length m.size) := by
  have few : ∀ w ∈ [] ++ [Store.bytes ptr data], w.data.length < UInt32.size :=
    List.forall_mem_singleton.2 hd
  exact (writeBatch_of_unfit few (by simp)).2 (Nat.mod_one _) hs

/-! ## Reading -/

theorem getElem?_read {i len : Nat} (h : i < len) :
    (m.read offset len)[i]? = m.bytes[offset + i]? := by
  unfold read
  rw [List.getElem?_take_of_lt h, List.getElem?_drop]

/-- The bytes of a view that is aligned and lies within the memory. -/
theorem readView_of_fits {v : View} (hal : v.ptr.toNat % v.element.size = 0)
    (h : v.ptr.toNat + v.byteLen ≤ m.size) :
    m.readView v = .ok (m.read v.ptr.toNat v.byteLen) := by
  have hrange : v.byteRange m.size = .ok ⟨v.ptr.toNat, v.ptr.toNat + v.byteLen⟩ :=
    View.byteRange_eq_ok_iff.2 ⟨hal, h, rfl⟩
  unfold readView check
  rw [hrange]
  exact congrArg (fun k => Except.ok (m.read v.ptr.toNat k)) (Nat.add_sub_cancel_left ..)

theorem readView_of_error {v : View} {e : MemoryError} (h : v.byteRange m.size = .error e) :
    m.readView v = .error e := by
  unfold readView check
  rw [h]
  rfl

/-- The bytes of a region that lies within the memory. -/
theorem readBytes_eq {ptr len : UInt32} (h : ptr.toNat + len.toNat ≤ m.size) :
    m.readBytes ptr len = .ok (m.read ptr.toNat len.toNat) := by
  have hlen : (View.bytes ptr len).byteLen = len.toNat := View.byteLen_bytes ptr len
  rw [← hlen] at h ⊢
  exact readView_of_fits (Nat.mod_one _) h

theorem readBytes_of_unfit {ptr len : UInt32} (h : m.size < ptr.toNat + len.toNat) :
    m.readBytes ptr len = .error (.outOfBounds ptr len.toNat m.size) := by
  have hlen : (View.bytes ptr len).byteLen = len.toNat := View.byteLen_bytes ptr len
  rw [← hlen] at h ⊢
  exact readView_of_error (View.byteRange_of_unfit (Nat.mod_one _) h)

theorem readBytes_of_read {ptr : UInt32} {data : List UInt8} (hd : data.length < UInt32.size)
    (hin : ptr.toNat + data.length ≤ m.size) (h : m.read ptr.toNat data.length = data) :
    m.readBytes ptr (.ofNat data.length) = .ok data := by
  have hlen : (UInt32.ofNat data.length).toNat = data.length := UInt32.toNat_ofNat_of_lt' hd
  rw [readBytes_eq (by rwa [hlen]), hlen, h]

/-- Bytes that were written can be read back. -/
theorem readBytes_of_writeBatch {ptr : UInt32} {data : List UInt8} {m' : Memory}
    (hd : data.length < UInt32.size) (h : m.writeBatch [.bytes ptr data] = .ok m') :
    m'.readBytes ptr (.ofNat data.length) = .ok data := by
  by_cases hs : ptr.toNat + data.length ≤ m.size
  · rw [writeBatch_bytes hd hs] at h
    cases h
    apply readBytes_of_read hd
    · rwa [size_write hs]
    · exact read_write (Nat.le_of_add_right_le hs) data
  · rw [writeBatch_bytes_of_unfit hd (Nat.lt_of_not_le hs)] at h
    cases h

/-- A text that lies within the first `n` bytes is made of them. -/
theorem readString_eq {ptr len : UInt32} (h : ptr.toNat + len.toNat ≤ n) (hn : n ≤ m.size) :
    m.readString ptr len =
      .ok (Text.latin (((m.bytes.take n).drop ptr.toNat).take len.toNat)) := by
  have hread : m.read ptr.toNat len.toNat =
      ((m.bytes.take n).drop ptr.toNat).take len.toNat := by
    unfold read
    rw [List.drop_take, List.take_take, Nat.min_eq_left (by omega)]
  unfold readString
  rw [readBytes_eq (Nat.le_trans h hn), hread]
  rfl

end Memory

end GuestBridge
