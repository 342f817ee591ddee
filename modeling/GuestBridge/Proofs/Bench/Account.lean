import GuestBridge.Proofs.Bench.Happening
import GuestBridge.Proofs.Memory.Regions

/-!
# Accounts of a guest

What a guest has been called with and asked for, and what it is still to be called with, apart from
the bench that it is on. `Account.copy` is all that copying an image does to it, on a guest whose
allocator always finds room: as long as the allocations are below the end of the address space, the
image goes to where nothing was before (`Account.copy_eq`, `Account.take_fill`).
-/

set_option autoImplicit false

namespace GuestBridge

theorem le_roundUp (n : Nat) : n ≤ roundUp allocationAlign n := by
  unfold roundUp allocationAlign
  omega

theorem Growth.le_newSize (growth : Growth) (stop size : Nat) :
    stop ≤ growth.newSize stop size := by
  have hround : stop ≤ roundUp pageSize stop := by
    unfold roundUp pageSize
    omega
  cases growth with
  | onDemand =>
    show stop ≤ if size < stop then _ else _
    split
    · exact hround
    · omega
  | wholePages => exact Nat.le_trans hround (Nat.le_max_right _ _)

namespace Bench

/-- What the guest has been called with and asked for, and what it is still to be called with. -/
structure Account where
  calls : List EntryPoint
  allocations : List UInt32
  allocator : Allocator
  memory : Memory
  deferred : List Completion

namespace Account

variable (a : Account)

/-- Where the next allocation goes. -/
def pointer (len : UInt32) : UInt32 := (a.allocator.allocate len a.memory).1

/-- After room has been allocated. -/
def allot (len : UInt32) : Account :=
  let (_, allocator, memory) := a.allocator.allocate len a.memory
  { a with allocations := a.allocations ++ [len], allocator, memory }

/-- After bytes have been copied to where the next allocation goes. -/
def fill (bytes : List UInt8) : Account :=
  let allotted := a.allot (.ofNat bytes.length)
  { allotted with
    memory := allotted.memory.write (roundUp allocationAlign a.allocator.next) bytes }

/-- After an image has been copied, if it could be. -/
def copy (fetch : Accepted) (image : DecodedImage) : Account :=
  let len := .ofNat image.pixels.length
  match (a.allot len).memory.writeBatch [.bytes (a.pointer len) image.pixels] with
  | .ok memory =>
    { a.allot len with
      memory, deferred := a.deferred ++ [completion fetch image (a.pointer len)] }
  | .error _ => a.allot len

def call (entry : EntryPoint) : Account := { a with calls := a.calls ++ [entry] }

variable {a} {fetch : Accepted} {image : DecodedImage}

theorem copy_of_ok {memory : Memory} (h : (a.allot (.ofNat image.pixels.length)).memory.writeBatch
    [.bytes (a.pointer (.ofNat image.pixels.length)) image.pixels] = .ok memory) :
    a.copy fetch image = { a.allot (.ofNat image.pixels.length) with
      memory
      deferred := a.deferred ++
        [completion fetch image (a.pointer (.ofNat image.pixels.length))] } := by
  unfold copy
  simp only [h]

theorem copy_of_error {e : MemoryError}
    (h : (a.allot (.ofNat image.pixels.length)).memory.writeBatch
      [.bytes (a.pointer (.ofNat image.pixels.length)) image.pixels] = .error e) :
    a.copy fetch image = a.allot (.ofNat image.pixels.length) := by
  unfold copy
  simp only [h]

/-! ## Room -/

theorem next_allot (a : Account) (len : UInt32) :
    (a.allot len).allocator.next = roundUp allocationAlign a.allocator.next + len.toNat := rfl

theorem next_le_size_allot (a : Account) (len : UInt32) :
    (a.allot len).allocator.next ≤ (a.allot len).memory.size := by
  show _ ≤ (a.memory.grow _).size
  rw [Memory.size_grow]
  exact Nat.le_trans (Growth.le_newSize _ _ _) (Nat.le_max_right _ _)

/-- A copy asks the allocator once, whether or not it is made. -/
theorem allocator_copy (a : Account) (fetch : Accepted) (image : DecodedImage) :
    (a.copy fetch image).allocator = (a.allot (.ofNat image.pixels.length)).allocator := by
  cases hw : (a.allot (.ofNat image.pixels.length)).memory.writeBatch
      [.bytes (a.pointer (.ofNat image.pixels.length)) image.pixels] with
  | ok memory => rw [copy_of_ok hw]
  | error e => rw [copy_of_error hw]

theorem next_le_copy (a : Account) (fetch : Accepted) (image : DecodedImage) :
    a.allocator.next ≤ (a.copy fetch image).allocator.next := by
  have h := le_roundUp a.allocator.next
  rw [allocator_copy, next_allot]
  omega

/-! ## Copies -/

section

variable {bytes : List UInt8} {n : Nat}

theorem stop_le_size_allot (hl : bytes.length < UInt32.size) :
    roundUp allocationAlign a.allocator.next + bytes.length ≤
      (a.allot (.ofNat bytes.length)).memory.size := by
  have hsize := a.next_le_size_allot (.ofNat bytes.length)
  rwa [next_allot, UInt32.toNat_ofNat_of_lt' hl] at hsize

theorem size_le_size_allot (a : Account) (len : UInt32) :
    a.memory.size ≤ (a.allot len).memory.size := by
  show _ ≤ (a.memory.grow _).size
  rw [Memory.size_grow]
  exact Nat.le_max_left _ _

/-- Below the end of the address space bytes can be written where room has been allocated. -/
theorem writeBatch_allot
    (hn : roundUp allocationAlign a.allocator.next + bytes.length < UInt32.size) :
    (a.allot (.ofNat bytes.length)).memory.writeBatch
      [.bytes (a.pointer (.ofNat bytes.length)) bytes] = .ok (a.fill bytes).memory := by
  have hl : bytes.length < UInt32.size := by omega
  have hptr : (a.pointer (.ofNat bytes.length)).toNat = roundUp allocationAlign a.allocator.next :=
    UInt32.toNat_ofNat_of_lt' (by omega)
  have hfits : (a.pointer (.ofNat bytes.length)).toNat + bytes.length ≤
      (a.allot (.ofNat bytes.length)).memory.size := by
    rw [hptr]
    exact stop_le_size_allot hl
  rw [Memory.writeBatch_bytes hl hfits, hptr]
  rfl

theorem size_fill (hl : bytes.length < UInt32.size) :
    (a.fill bytes).memory.size = (a.allot (.ofNat bytes.length)).memory.size :=
  Memory.size_write (stop_le_size_allot hl)

/-- What was allocated before is left as it is. -/
theorem take_fill (hl : bytes.length < UInt32.size) (hn : n ≤ a.allocator.next)
    (hs : n ≤ a.memory.size) : (a.fill bytes).memory.bytes.take n = a.memory.bytes.take n := by
  have hround := le_roundUp a.allocator.next
  have hstart : roundUp allocationAlign a.allocator.next ≤
      (a.allot (.ofNat bytes.length)).memory.size :=
    Nat.le_trans (Nat.le_add_right ..) (stop_le_size_allot hl)
  have hwrite : (a.fill bytes).memory.bytes.take n =
      (a.allot (.ofNat bytes.length)).memory.bytes.take n :=
    Memory.take_write (Nat.le_trans hn hround) hstart bytes
  exact hwrite.trans (Memory.take_grow hs _)

theorem read_fill (hl : bytes.length < UInt32.size) :
    (a.fill bytes).memory.read (roundUp allocationAlign a.allocator.next) bytes.length = bytes :=
  Memory.read_write (Nat.le_trans (Nat.le_add_right ..) (stop_le_size_allot hl)) bytes

end

/-- Below the end of the address space a copy is always made. -/
theorem copy_eq (hl : image.pixels.length < UInt32.size)
    (hn : (a.copy fetch image).allocator.next < UInt32.size) :
    a.copy fetch image = { a.fill image.pixels with
      deferred := a.deferred ++
        [completion fetch image (a.pointer (.ofNat image.pixels.length))] } := by
  rw [allocator_copy, next_allot, UInt32.toNat_ofNat_of_lt' hl] at hn
  rw [copy_of_ok (writeBatch_allot hn)]
  rfl

end Account

end Bench

end GuestBridge
