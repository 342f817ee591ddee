import GuestBridge.Graphics.Scripted
import GuestBridge.Page.Script

/-!
# Steps on a page

A step asks something of the running bridge, lets something happen on the page, or tells the page
and the guest how to behave from now on. `PageStep.weight` counts a step together with all the
steps that it has in store for the guest.
-/

set_option autoImplicit false

namespace GuestBridge

open Ieee

/-- What an event brings with it. -/
inductive Payload
  | plain
  | key (code : UInt32) (repeated : Bool) (key : String)
  | mouse (button x y : Int32)
  deriving DecidableEq, Repr

inductive PageStep
  /-- Lets go of the running bridge and starts one with the page's options. -/
  | start
  /-- The same with the default options. -/
  | startDefault
  | running
  | submit (text : String)
  | shutdown
  | drop
  | frame (timestamp : Double)
  | event (target kind : String) (payload : Payload)
  /-- Lets the images that were asked for load, or fail to. -/
  | settleImages
  | runTasks
  | runTimer
  | runAll
  | importCall (name : String) (args : List PageValue)
  | importNames
  | peek (offset len : Nat)
  | poke (offset : Nat) (bytes : List UInt8)
  | interlude (name : String) (steps : List PageStep)
  /-- Makes an export throw from now on. -/
  | throwFrom (name : String) (thrown : PageValue)
  | restoreExport (name : String)
  /-- Queues what the allocator comes to. -/
  | queueAllocation (o : Outcome)
  | adjustContext (change : ScriptedContext.Change)
  | setRandom (values : List Double)
  | breakFault (thrown : PageValue)
  | setOptions (changes : List BridgeOptions.Change)
  | setText (id text : String)
  | setElement (id : String) (kind : Option ElementKind)
  | innerSize (width height : Outcome)
  | noWindow (absent : Bool)
  | noDocument (absent : Bool)
  | graphicsContext (o : Outcome)
  | imageContext (o : Outcome)
  | moduleFetch (f : ModuleFetch)
  | instantiation (i : Instantiation)
  | hideExport (name : String)
  | setImage (url : String) (image : DecodedImage)
  | refuse (call : String) (thrown : PageValue)
  | permit (call : String)
  deriving Inhabited

mutual

/-- The number of steps in a step, itself included. -/
def PageStep.weight : PageStep → Nat
  | .interlude _ steps => 1 + PageStep.totalWeight steps
  | _ => 1

/-- The number of steps in a list of steps. -/
def PageStep.totalWeight : List PageStep → Nat
  | [] => 0
  | step :: rest => step.weight + PageStep.totalWeight rest

end

end GuestBridge
