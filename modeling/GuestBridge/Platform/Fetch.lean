import GuestBridge.Platform.Entry

/-!
# Fetches

A fetch goes through three stages. It is accepted, and a task waits for its load; when the load
has come back, `complete` copies the image into the guest; and on a later tick `deliver` tells
the guest. A fetch that was cancelled stops at the next stage.
-/

set_option autoImplicit false

namespace GuestBridge.Platform

variable {σ G : Type} (p : Platform σ G)

/-- Performs a capability on the platform: only an accepted fetch needs more than the core. -/
def perform [GraphicsContext G] (c : Capability) : Action σ Capability.Result := do
  let result ← p.onCore c.run
  if let .accepted fetch := result then .modify (p.spawn fetch)
  return result

/-- Copies the image of a fetch into the guest and puts off the call that tells it. -/
def copyImage (fetch : Accepted) (image : DecodedImage) (s : σ) : σ :=
  let url := fetch.request.url
  match p.copyToGuest image.pixels s with
  | (.ok (.copied ptr len), s) =>
    let entry := .fetch image.width image.height ptr len fetch.request.token
    p.defer ⟨fetch.id, entry⟩ s
  | (.ok .empty, s) =>
    p.log .error Log.Target.fetch s!"copy to guest failed: `{url}` decoded to no bytes" s
  | (.error e, s) =>
    let reason := e.message
    p.log .error Log.Target.fetch s!"copy to guest failed for `{url}`: {reason}" s

/-- Takes up a fetch whose load has come back. -/
def complete (fetch : Accepted) (result : Except FetchError DecodedImage) (s : σ) : σ :=
  let s := p.onBridge (·.settle fetch.id) s
  let url := fetch.request.url
  if (p.core s).bridge.isCancelled fetch.id then
    p.log .debug Log.Target.fetch s!"dropping cancelled fetch of `{url}`" s
  else
    match result with
    | .ok image => p.copyImage fetch image s
    | .error e => p.log .error Log.Target.fetch e.message s

/-- Tells the guest of an image, unless its fetch has been cancelled. -/
def deliver (c : Completion) (s : σ) : σ :=
  let b := (p.core s).bridge
  if b.isCancelled c.request then s
  else
    match p.callGuest c.entry s with
    | (.ok (), s) => s
    | (.error e, s) =>
      let url := ((b.requests[c.request]?).map (·.url)).getD ""
      let reason := e.message
      p.log .error Log.Target.fetch s!"fetch completion for `{url}` failed: {reason}" s

def shutdown (s : σ) : σ := p.withCore (p.core s).shutdown s

end GuestBridge.Platform
