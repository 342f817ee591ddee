import GuestBridge.Platform.Fetch

/-!
# Operations of a bridge

Everything that can be asked of a bridge from outside, as data, with the reply to it.
-/

set_option autoImplicit false

namespace GuestBridge

open Ieee

inductive Operation
  | capability (c : Capability)
  | attachGuest
  | init (width height : UInt32)
  | animationFrame (timestamp : Double)
  | callGuest (entry : EntryPoint)
  | dispatchInput (event : InputEvent)
  | submitEquation (text : String)
  | copyToGuest (bytes : List UInt8)
  | shutdown
  | phase
  | pendingFetches
  | registry
  | readText (ptr len : UInt32)
  deriving DecidableEq, Repr

def Capability.Result.value : Capability.Result → Value
  | nothing => .nothing
  | number value => .int value
  | document value => .json value
  | accepted fetch => .int fetch.id

namespace Platform

variable {σ G : Type} [GraphicsContext G] (p : Platform σ G)

/-- Runs an action and replies with what it answers. -/
def reply {α : Type} (value : α → Value) (x : Action σ α) (s : σ) : Reply × σ :=
  let (r, s) := x s
  (.ofExcept value r, s)

/-- Performs an operation. -/
def operate : Operation → σ → Reply × σ
  | .capability c, s => reply Capability.Result.value (p.perform c) s
  | .attachGuest, s => reply (fun _ => .nothing) p.attachGuest s
  | .init width height, s => reply (fun _ => .nothing) (p.init width height) s
  | .animationFrame timestamp, s => reply .bool (p.animationFrame timestamp) s
  | .callGuest entry, s => reply (fun _ => .nothing) (p.callGuest entry) s
  | .dispatchInput event, s => reply (fun _ => .nothing) (p.dispatchInput event) s
  | .submitEquation text, s => reply .copy (p.submitEquation text) s
  | .copyToGuest bytes, s => reply .copy (p.copyToGuest bytes) s
  | .shutdown, s => (.ok .nothing, p.shutdown s)
  | .phase, s => (.ok (.phase (p.core s).bridge.phase), s)
  | .pendingFetches, s => (.ok (.int (p.core s).bridge.pending.length), s)
  | .registry, s => (.ok (.registry (p.core s).bridge.registry), s)
  | .readText ptr len, s => reply .text (p.onCore (Core.readString ptr len)) s

end Platform

end GuestBridge
