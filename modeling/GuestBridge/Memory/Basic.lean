import GuestBridge.Memory.View
import GuestBridge.Ieee.Number

/-!
# Guest memory

A guest's linear memory is the list of its bytes. `read` and `write` are plain copies; every
access from outside goes through a view that is resolved against the memory's size at that
moment, so the checked operations below never reach past the end.

* `readView` and its typed forms decode little-endian words.
* `writeBatch` performs all of its stores, or none if any one cannot be resolved.
-/

set_option autoImplicit false

namespace GuestBridge

/-- The bytes of a guest's linear memory. -/
structure Memory where
  bytes : List UInt8 := []
  deriving DecidableEq, Repr

/-- The four bytes of a word, least significant first. -/
def wordBytes (w : UInt32) : List UInt8 :=
  [w.toUInt8, (w >>> 8).toUInt8, (w >>> 16).toUInt8, (w >>> 24).toUInt8]

/-- The word of four bytes, least significant first. -/
def wordOf (a b c d : UInt8) : UInt32 :=
  a.toUInt32 ||| b.toUInt32 <<< 8 ||| c.toUInt32 <<< 16 ||| d.toUInt32 <<< 24

/-- Reads bytes four at a time; up to three left over at the end are ignored. -/
def wordsOf : List UInt8 → List UInt32
  | a :: b :: c :: d :: rest => wordOf a b c d :: wordsOf rest
  | _ => []

/-- One store of a batch. -/
inductive Store
  | word (ptr : UInt32) (value : UInt32)
  | int (ptr : UInt32) (value : Int32)
  | bytes (ptr : UInt32) (data : List UInt8)
  deriving DecidableEq, Repr

namespace Store

/-- The bytes that are stored. -/
def data : Store → List UInt8
  | word _ value => wordBytes value
  | int _ value => wordBytes value.toUInt32
  | bytes _ data => data

/-- The number of bytes as the guest counts them. -/
def guestLen (bytes : List UInt8) : Except MemoryError UInt32 :=
  if bytes.length < UInt32.size then .ok (UInt32.ofNat bytes.length)
  else .error (.tooLarge bytes.length)

/-- The region that is written. -/
def view : Store → Except MemoryError View
  | word ptr _ => .ok ⟨.u32, ptr, 1⟩
  | int ptr _ => .ok ⟨.i32, ptr, 1⟩
  | bytes ptr data => do return View.bytes ptr (← guestLen data)

end Store

namespace Memory

def size (m : Memory) : Nat := m.bytes.length

/-- A memory of `n` zero bytes. -/
def zeros (n : Nat) : Memory := ⟨List.replicate n 0⟩

/-- Extends the memory with zeros to `n` bytes; it never shrinks. -/
def grow (m : Memory) (n : Nat) : Memory := ⟨m.bytes ++ List.replicate (n - m.size) 0⟩

/-- The `len` bytes at `offset`. -/
def read (m : Memory) (offset len : Nat) : List UInt8 := (m.bytes.drop offset).take len

/-- Replaces the bytes from `offset` on by `data`. -/
def write (m : Memory) (offset : Nat) (data : List UInt8) : Memory :=
  ⟨m.bytes.take offset ++ data ++ m.bytes.drop (offset + data.length)⟩

/-! ## Checked access -/

/-- The bytes a view covers in this memory. -/
def check (m : Memory) (v : View) : Except MemoryError ByteRange := v.byteRange m.size

def readView (m : Memory) (v : View) : Except MemoryError (List UInt8) := do
  let range ← m.check v
  return m.read range.start (range.stop - range.start)

def readBytes (m : Memory) (ptr len : UInt32) : Except MemoryError (List UInt8) :=
  m.readView (View.bytes ptr len)

/-- The text of `len` bytes at `ptr`, one character per byte. -/
def readString (m : Memory) (ptr len : UInt32) : Except MemoryError String := do
  return Text.latin (← m.readBytes ptr len)

def readWords (m : Memory) (ptr count : UInt32) : Except MemoryError (List UInt32) := do
  return wordsOf (← m.readView ⟨.u32, ptr, count⟩)

def readSingles (m : Memory) (ptr count : UInt32) : Except MemoryError (List Ieee.Single) := do
  return (wordsOf (← m.readView ⟨.f32, ptr, count⟩)).map Ieee.Single.mk

/-- The offset at which a store goes into this memory. -/
def place (m : Memory) (store : Store) : Except MemoryError Nat := do
  return (← m.check (← store.view)).start

/-- Writes one store after another, so that a later one wins where two overlap. -/
def apply (m : Memory) : List (Nat × Store) → Memory
  | [] => m
  | (offset, store) :: rest => (m.write offset store.data).apply rest

/-- Performs all the stores, or none of them if any one is misaligned or out of bounds. -/
def writeBatch (m : Memory) (stores : List Store) : Except MemoryError Memory := do
  let offsets ← stores.mapM m.place
  return m.apply (offsets.zip stores)

def writeBytes (m : Memory) (ptr : UInt32) (data : List UInt8) : Except MemoryError Memory :=
  m.writeBatch [.bytes ptr data]

/-- Writes the words one after another; even no words at all need an aligned pointer. -/
def writeWords (m : Memory) (ptr : UInt32) (values : List UInt32) :
    Except MemoryError Memory := do
  if values.length < UInt32.size then
    let range ← m.check ⟨.u32, ptr, UInt32.ofNat values.length⟩
    return m.write range.start (values.flatMap wordBytes)
  else throw (.tooLarge values.length)

/-! ## Changes -/

/-- The runs of bytes in which two lists differ, with their offsets, in ascending order;
`offset` is that of the lists' heads, and `run` holds the bytes of a run not yet finished,
last first. -/
def changes : (before after : List UInt8) → (offset : Nat) → (run : List UInt8) →
    List (Nat × List UInt8)
  | _, [], offset, run => if run.isEmpty then [] else [(offset - run.length, run.reverse)]
  | before, b :: after, offset, run =>
    if before.headD 0 ≠ b then changes before.tail after (offset + 1) (b :: run)
    else if run.isEmpty then changes before.tail after (offset + 1) []
    else (offset - run.length, run.reverse) :: changes before.tail after (offset + 1) []

/-- What became of `before`: the maximal runs of changed bytes. Bytes past the end of `before`
count as having been zero. -/
def changesSince (m before : Memory) : List (Nat × List UInt8) :=
  changes before.bytes m.bytes 0 []

end Memory

end GuestBridge
