import GuestBridge.Platform.Basic

/-!
# Entering the guest

Every entry into the guest goes through `Platform.callGuest`, which refuses all but the init
entry point until the bridge runs. The bridge runs from the first init that the guest returns
from, and never stops running.
-/

set_option autoImplicit false

namespace GuestBridge.Platform

open Ieee

variable {σ G : Type} (p : Platform σ G)

/-- Makes the guest available to the bridge. A bridge serves one guest only. -/
def attachGuest : Action σ Unit := do
  let b ← p.bridge
  if b.attached then .fail .guestAlreadyAttached
  else .modify (p.onBridge fun b => { b with attached := true })

def callGuest (entry : EntryPoint) : Action σ Unit := do
  let b ← p.bridge
  if !b.admits entry then .fail .notRunning
  else if !b.attached then .fail .noGuest
  else ofGuest (p.call entry)

/-- Lets the guest set itself up, after which the bridge runs. -/
def init (width height : UInt32) : Action σ Unit := do
  let b ← p.bridge
  if b.phase = .running then .fail .alreadyRunning
  else
    p.callGuest (.init width height)
    .modify (p.onBridge fun b => { b with phase := .running })
    .modify (p.log .debug Log.Target.bridge s!"guest initialized at {width}x{height}")

/-- Delivers a frame. One that does not come after the frame before it is dropped; then the
answer is `false` and the guest is not entered. -/
def animationFrame (timestamp : Double) : Action σ Bool := do
  let b ← p.bridge
  if b.phase ≠ .running then .fail .notRunning
  else
    match b.staleAfter? timestamp with
    | some last =>
      let now := timestamp.text .plain
      let before := last.text .plain
      .modify (p.log .warn Log.Target.bridge
        s!"dropping frame at {now} (previous frame at {before})")
      return false
    | none =>
      .modify (p.onBridge fun b => { b with lastFrame := some timestamp })
      p.callGuest (.animationFrame timestamp)
      return true

def dispatchInput (event : InputEvent) : Action σ Unit := p.callGuest event.entryPoint

/-! ## Copies into the guest -/

/-- Copies bytes into a fresh allocation of the guest. The memory is looked up only after the
allocator has returned, since that may have made it larger. -/
def copyToGuest (bytes : List UInt8) : Action σ CopyResult := do
  let b ← p.bridge
  if !b.attached then .fail .noGuest
  else if bytes.isEmpty then return .empty
  else
    let len ← .liftMemory (Store.guestLen bytes)
    let ptr ← ofGuest (p.alloc len)
    p.onCore (Core.store [.bytes ptr bytes])
    return .copied ptr len

/-- Hands a text to the guest's equation entry point. An empty text cannot be copied; that is
logged and the guest is not called. -/
def submitEquation (text : String) : Action σ CopyResult := do
  let b ← p.bridge
  if b.phase ≠ .running then .fail .notRunning
  else
    let copy ← p.copyToGuest (Text.utf8 text)
    match copy with
    | .copied ptr len => p.callGuest (.equation ptr len)
    | .empty =>
      .modify (p.log .error Log.Target.bridge
        "error copying equation to the guest: empty input")
    return copy

end GuestBridge.Platform
