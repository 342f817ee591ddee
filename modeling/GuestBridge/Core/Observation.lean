import GuestBridge.Core.State

/-!
# Observations

What can be seen of one step: its reply, what happened during it, and what became of the guest's
memory.
-/

set_option autoImplicit false

namespace GuestBridge

structure Observation where
  reply : Reply
  events : List Event
  /-- The runs of bytes that changed. -/
  changes : List (Nat × List UInt8)
  /-- The size of the memory, if that changed. -/
  newSize : Option Nat

/-- What can be seen of a step, given the journal and the memory before and after it. -/
def Observation.between (reply : Reply) (journal journal' : Array Event)
    (memory memory' : Memory) : Observation where
  reply := reply
  events := (journal'.extract journal.size journal'.size).toList
  changes := memory'.changesSince memory
  newSize := if memory'.size = memory.size then none else some memory'.size

end GuestBridge
