import GuestBridge.Capability.Basic
import GuestBridge.Capability.Program

/-!
# Buffers, textures and vertex arrays

Objects are created singly, or many at once with their handles written to memory; then nothing
is registered unless every creation succeeds. Deleting many goes on past a handle that does not
resolve and reports the first failure in the end.
-/

set_option autoImplicit false

namespace GuestBridge.Core

variable {G : Type} [GraphicsContext G]

def createObject (c : BulkClass) : Action (Core G) UInt32 := do
  register c.objectClass (← created (createCall c.objectClass) (← native (.create c.blueprint)))

/-- Creates so many objects after those already there. Where a creation fails, all of them are
deleted again, in the order of their creation. -/
def createObjects (c : BulkClass) :
    Nat → List (Native c.objectClass) → Action (Core G) (List (Native c.objectClass))
  | 0, done => pure done
  | n + 1, done => do
    match ← native (.create c.blueprint) with
    | some o => createObjects c n (done ++ [o])
    | none =>
      done.forM fun o => native (.delete c.objectClass o)
      .fail (.native (createCall c.objectClass) "returned null")

/-- Creates `count` objects and writes their handles to memory at `outPtr`, which is checked
before anything is created. -/
def generate (c : BulkClass) (count outPtr : UInt32) : Action (Core G) Unit := do
  let memory ← guestMemory
  let _ ← Action.liftMemory (memory.check ⟨.u32, outPtr, count⟩)
  let objects ← createObjects c count.toNat []
  let handles ← registerMany c.objectClass objects
  let memory ← guestMemory
  let memory ← Action.liftMemory (memory.writeWords outPtr handles)
  .modify fun s => { s with memory }

def deleteObject (c : ObjectClass) (handle : UInt32) : Action (Core G) Unit := do
  native (.delete c (← release c handle))

/-- Deletes the objects of all the handles and answers the first failure. -/
def deleteEach (c : ObjectClass) : List UInt32 → Action (Core G) (Option BridgeError)
  | [] => pure none
  | handle :: rest => do
    let first ← Attempt.outcome (deleteObject c handle)
    let later ← deleteEach c rest
    match first with
    | .ok () => return later
    | .error e => return some e

/-- Deletes the objects of the `count` handles in memory at `ptr`. -/
def deleteMany (c : BulkClass) (count ptr : UInt32) : Action (Core G) Unit := do
  let memory ← guestMemory
  let handles ← Action.liftMemory (memory.readWords ptr count)
  match ← deleteEach c.objectClass handles with
  | none => return ()
  | some e => .fail e

def bindBuffer (target buffer : UInt32) : Action (Core G) Unit := do
  native (.bindBuffer target (← object .buffer buffer))

def bindTexture (target texture : UInt32) : Action (Core G) Unit := do
  native (.bindTexture target (← object .texture texture))

def bindVertexArray (vertexArray : UInt32) : Action (Core G) Unit := do
  native (.bindVertexArray (← object .vertexArray vertexArray))

/-! ## Uploads -/

/-- Uploads `count` numbers of four bytes each from memory to the bound buffer. -/
def bufferData (target count dataPtr usage : UInt32) : Action (Core G) Unit := do
  let memory ← guestMemory
  let data ← Action.liftMemory (memory.readView ⟨.f32, dataPtr, count⟩)
  native (.bufferData target data usage)

/-- The bytes of an upload; for none of them the texture is only given its storage. -/
def uploadData (dataPtr dataLen : UInt32) : Action (Core G) (Option (List UInt8)) := do
  if dataLen = 0 then return none
  let memory ← guestMemory
  return some (← Action.liftMemory (memory.readBytes dataPtr dataLen))

/-- Uploads bytes from memory to the bound texture. -/
def texImage (image : TexImage) (dataPtr dataLen : UInt32) : Action (Core G) Unit := do
  let data ← uploadData dataPtr dataLen
  match ← native (.texImage2D image data) with
  | .ok () => return ()
  | .error message => .fail (.native "texImage2D" message)

/-- Makes a call that is passed on as it is; what it answers is of no interest. -/
def forward (p : Passthrough) : Action (Core G) Unit := do
  let _ ← native p.call

end GuestBridge.Core
