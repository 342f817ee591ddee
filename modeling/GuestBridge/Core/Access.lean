import GuestBridge.Core.Action

/-!
# Access to the core

The steps that the capabilities are made of: native calls, the guest's memory, and objects by
their handles.
-/

set_option autoImplicit false

namespace GuestBridge.Core

variable {G : Type}

/-- Makes a native call. -/
def native [GraphicsContext G] (call : GlCall) : Action (Core G) call.Answer :=
  .state fun c => c.perform call

def say (level : Log.Level) (target text : String) : Action (Core G) Unit :=
  .modify fun c => c.log level target text

/-- The memory of the guest, if one is attached. -/
def guestMemory : Action (Core G) Memory := fun c =>
  if c.bridge.attached then (.ok c.memory, c) else (.error .noGuest, c)

/-- Performs stores into the guest's memory, all or none. -/
def store (stores : List Store) : Action (Core G) Unit := do
  let memory ← guestMemory
  let memory ← Action.liftMemory (memory.writeBatch stores)
  .modify fun c => { c with memory }

/-- The text of `len` bytes at `ptr` in the guest's memory. -/
def readString (ptr len : UInt32) : Action (Core G) String := do
  let memory ← guestMemory
  Action.liftMemory (memory.readString ptr len)

/-! ## Handles -/

/-- The object of a handle. -/
def object (c : ObjectClass) (handle : UInt32) : Action (Core G) (Native c) := fun s =>
  Action.liftRegistry ((s.bridge.registry.table c).get handle) s

/-- The location of a handle, which may be none. -/
def location (handle : UInt32) : Action (Core G) (Option Location) := fun s =>
  Action.liftRegistry (s.bridge.registry.locations.get handle) s

/-- Replaces the registry. -/
def withRegistry (s : Core G) (r : Registry) : Core G := { s with bridge.registry := r }

/-- Gives an object a new handle. -/
def register (c : ObjectClass) (o : Native c) : Action (Core G) UInt32 :=
  .state fun s =>
    let r := s.bridge.registry
    let (handle, table) := (r.table c).create o
    (handle, s.withRegistry (r.withTable c table))

/-- Gives every object a new handle, in order. -/
def registerMany (c : ObjectClass) (os : List (Native c)) : Action (Core G) (List UInt32) :=
  .state fun s =>
    let r := s.bridge.registry
    let (handles, table) := (r.table c).createMany os
    (handles, s.withRegistry (r.withTable c table))

/-- Gives a location, or that there is none, a new handle. -/
def registerLocation (l : Option Location) : Action (Core G) UInt32 :=
  .state fun s =>
    let r := s.bridge.registry
    let (handle, locations) := r.locations.create l
    (handle, s.withRegistry { r with locations })

/-- Empties the slot of a handle and hands back its object. -/
def release (c : ObjectClass) (handle : UInt32) : Action (Core G) (Native c) := fun s =>
  let r := s.bridge.registry
  match (r.table c).delete handle with
  | .ok (o, table) => (.ok o, s.withRegistry (r.withTable c table))
  | .error e => (.error (.registry e), s)

end GuestBridge.Core
