import GuestBridge.Memory.Basic

/-!
# Bump allocation

An allocator that hands out one region after another and never takes one back. Regions are
aligned, and the guest's memory grows by whole pages.
-/

set_option autoImplicit false

namespace GuestBridge

/-- When the guest's memory grows for an allocation; its size is then rounded up to a multiple
of `pageSize`. -/
inductive Growth
  /-- Only when the allocation does not fit. -/
  | onDemand
  /-- Whenever the allocation does not leave its last page whole. -/
  | wholePages
  deriving DecidableEq, Repr

/-- The alignment of allocations, and where the first of them is. -/
def allocationAlign : Nat := 8

def pageSize : Nat := 64

/-- The next multiple of `unit`. -/
def roundUp (unit n : Nat) : Nat := (n + unit - 1) / unit * unit

/-- The size to which a memory of `size` bytes grows for an allocation that ends at `stop`. -/
def Growth.newSize : Growth → (stop size : Nat) → Nat
  | onDemand, stop, size => if size < stop then roundUp pageSize stop else size
  | wholePages, stop, size => max size (roundUp pageSize stop)

structure Allocator where
  growth : Growth := .wholePages
  /-- The end of the last allocation. -/
  next : Nat := allocationAlign
  deriving DecidableEq, Repr

/-- Allocates `len` bytes after everything allocated before. -/
def Allocator.allocate (a : Allocator) (len : UInt32) (memory : Memory) :
    UInt32 × Allocator × Memory :=
  let ptr := roundUp allocationAlign a.next
  let stop := ptr + len.toNat
  (UInt32.ofNat ptr, { a with next := stop }, memory.grow (a.growth.newSize stop memory.size))

end GuestBridge
