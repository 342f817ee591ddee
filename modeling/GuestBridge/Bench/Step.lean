import GuestBridge.Platform.Operation

/-!
# Steps on the bench

A step either asks something of the bridge, tells the guest, the host or the images how to behave
from now on, or lets the host's queues run. `Step.weight` counts a step together with all the
steps that it has in store for the guest.
-/

set_option autoImplicit false

namespace GuestBridge.Bench

open Ieee

/-- What is known of an image. -/
inductive ImageSource
  /-- Its load has not come back yet. -/
  | pending
  | loadFault (reason : String)
  | decodeFault (reason : String)
  | image (decoded : DecodedImage)
  deriving DecidableEq, Repr

/-- What the load of an image comes to, once it has come back. -/
def ImageSource.result? (url : String) : ImageSource → Option (Except FetchError DecodedImage)
  | pending => none
  | loadFault reason => some (.error (.load url reason))
  | decodeFault reason => some (.error (.decode url reason))
  | image decoded => some (.ok decoded)

/-- A step; `C` is the type of the changes that the graphics context takes. -/
inductive Step (C : Type)
  | bridge (op : Operation)
  /-- Lets the bridge go, and all that it holds. -/
  | drop
  | request (id : Nat)
  | cancelRequest (id : Nat)
  /-- Asks the guest's allocator directly. -/
  | reserve (len : UInt32)
  /-- Copies a text into the guest and answers its region. -/
  | writeText (text : String)
  /-- Copies words into the guest and answers their address. -/
  | writeWords (words : List UInt32)
  | adjustContext (change : C)
  /-- Queues a result of the allocator. -/
  | queueAllocation (result : Except GuestError UInt32)
  /-- Makes an export fail from now on, with a message, or as if it were missing. -/
  | failExport (name : String) (message : Option String)
  | restoreExport (name : String)
  /-- Queues steps that the guest takes during one call of an export. -/
  | interlude (name : String) (steps : List (Step C))
  | growMemory (size : Nat)
  | poke (offset : Nat) (bytes : List UInt8)
  | peek (offset len : Nat)
  | setRandom (values : List Double)
  /-- How often the debugger was paused in. -/
  | breaks
  | setImage (url : String) (source : ImageSource)
  | runTasks
  | runDeferred
  | runOneDeferred
  | runAll
  deriving Inhabited

mutual

/-- The number of steps in a step, itself included. -/
def Step.weight {C : Type} : Step C → Nat
  | .interlude _ steps => 1 + Step.totalWeight steps
  | _ => 1

/-- The number of steps in a list of steps. -/
def Step.totalWeight {C : Type} : List (Step C) → Nat
  | [] => 0
  | step :: rest => step.weight + Step.totalWeight rest

end

end GuestBridge.Bench
