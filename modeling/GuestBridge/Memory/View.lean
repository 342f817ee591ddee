import GuestBridge.Text.Basic

/-!
# Views of guest memory

A view names a typed region by a pointer and a count. `View.byteRange` resolves it inside a
memory of a given size; `byteRange_eq_ok_iff` says when that succeeds, and
`byteRange_eq_misaligned_iff` that a pointer off the element's size is reported first.
-/

set_option autoImplicit false

namespace GuestBridge

/-- What the bytes of a view stand for. -/
inductive Element
  | u8
  | i32
  | u32
  | f32
  deriving DecidableEq, Repr

namespace Element

/-- Bytes per element. -/
def size : Element → Nat
  | u8 => 1
  | i32 | u32 | f32 => 4

def name : Element → String
  | u8 => "U8"
  | i32 => "I32"
  | u32 => "U32"
  | f32 => "F32"

end Element

/-- Why a region of guest memory cannot be accessed. -/
inductive MemoryError
  /-- The `len` bytes at `ptr` do not lie in a memory of `size` bytes. -/
  | outOfBounds (ptr : UInt32) (len size : Nat)
  /-- The pointer is no multiple of the element's size. -/
  | misaligned (ptr : UInt32) (element : Element)
  /-- So many bytes cannot be counted by the guest. -/
  | tooLarge (bytes : Nat)
  deriving DecidableEq, Repr

def MemoryError.message : MemoryError → String
  | outOfBounds ptr len size =>
    let place := Text.hex ptr.toNat
    s!"range of {len} bytes at {place} exceeds guest memory of {size} bytes"
  | misaligned ptr element =>
    let place := Text.hex ptr.toNat
    let name := element.name
    s!"{name} view at {place} is not aligned to its element size"
  | tooLarge bytes => s!"buffer of {bytes} bytes cannot be addressed by the guest"

/-- A region of `count` elements at `ptr`. -/
structure View where
  element : Element
  ptr : UInt32
  count : UInt32
  deriving DecidableEq, Repr

/-- The bytes from `start` up to, not including, `stop`. -/
structure ByteRange where
  start : Nat
  stop : Nat
  deriving DecidableEq, Repr

namespace View

/-- A region of single bytes. -/
def bytes (ptr len : UInt32) : View := ⟨.u8, ptr, len⟩

/-- The number of bytes covered. -/
def byteLen (v : View) : Nat := v.count.toNat * v.element.size

/-- The bytes of a view in a memory of `size` bytes; alignment is checked before bounds. -/
def byteRange (v : View) (size : Nat) : Except MemoryError ByteRange :=
  if v.ptr.toNat % v.element.size ≠ 0 then .error (.misaligned v.ptr v.element)
  else if size < v.ptr.toNat + v.byteLen then .error (.outOfBounds v.ptr v.byteLen size)
  else .ok ⟨v.ptr.toNat, v.ptr.toNat + v.byteLen⟩

theorem byteRange_eq_ok_iff {v : View} {size : Nat} {r : ByteRange} :
    v.byteRange size = .ok r ↔
      v.ptr.toNat % v.element.size = 0 ∧ v.ptr.toNat + v.byteLen ≤ size ∧
        r = ⟨v.ptr.toNat, v.ptr.toNat + v.byteLen⟩ := by
  unfold byteRange
  split
  · simp; omega
  · split
    · simp; omega
    · simp_all [eq_comm]

theorem byteRange_eq_misaligned_iff {v : View} {size : Nat} {p : UInt32} {e : Element} :
    v.byteRange size = .error (.misaligned p e) ↔
      v.ptr.toNat % v.element.size ≠ 0 ∧ p = v.ptr ∧ e = v.element := by
  unfold byteRange
  split
  · simp_all [eq_comm]
  · split <;> simp_all

end View

end GuestBridge
