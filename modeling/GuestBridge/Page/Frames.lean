import GuestBridge.Page.Guest

/-!
# Frame loops

A loop asks the page for a frame, delivers it to the guest when it comes, and asks for the next
one. It ends when it is stopped, or when a request is refused.
-/

set_option autoImplicit false

namespace GuestBridge.Page

/-- Asks for a frame; answers the request's id, or what was thrown. -/
def requestFrame (loop : Nat) (p : Page) : Except PageValue Nat × Page :=
  match p.script.refusal? "requestAnimationFrame" with
  | some thrown => (.error thrown, p)
  | none =>
    let id := p.nextFrame
    let p := p.did (.requestAnimationFrame id)
    (.ok id, { p with frames := p.frames ++ [⟨id, loop⟩], nextFrame := id + 1 })

/-- Starts a loop; there is none if its first request is refused. -/
def startLoop (owner : Nat) : Attempt StartupError Page Nat := fun p =>
  let loop := p.loops.length
  match p.requestFrame loop with
  | (.ok request, p) => (.ok loop, { p with loops := p.loops ++ [{ owner, request }] })
  | (.error thrown, p) => (.error (.context thrown.message), p)

def modifyLoop (loop : Nat) (f : FrameLoop → FrameLoop) (p : Page) : Page :=
  { p with loops := p.loops.modify loop f }

/-- Takes a request back. The page may refuse that, and then the request stands. -/
def cancelFrame (request : Nat) (p : Page) : Page :=
  let p := p.did (.cancelAnimationFrame request)
  match p.script.refusal? "cancelAnimationFrame" with
  | some thrown =>
    p.log .warn Log.Target.animation ("could not cancel animation frame: " ++ thrown.shown)
  | none => { p with frames := p.frames.filter (·.id ≠ request) }

/-- Stops a loop and does away with its callback. -/
def stopLoop (loop : Nat) (p : Page) : Page :=
  match p.loops[loop]? with
  | none => p
  | some l =>
    let p := if l.cancelled then p else p.cancelFrame l.request
    p.modifyLoop loop fun l => { l with cancelled := true, alive := false }

/-- Asks for the next frame of a loop whose callback still exists. -/
def continueLoop (loop : Nat) (p : Page) : Page :=
  match (p.loops[loop]?).filter (·.alive) with
  | none => p
  | some _ =>
    match p.requestFrame loop with
    | (.ok request, p) => p.modifyLoop loop fun l => { l with request }
    | (.error thrown, p) =>
      (p.log .error Log.Target.animation
        ("could not request animation frame: " ++ thrown.shown)).modifyLoop loop
          fun l => { l with cancelled := true }

/-- Calls the callback of a request. -/
def runFrame (inner : Performer) (timestamp : Ieee.Double) (r : FrameRequest) (p : Page) :
    Page :=
  match (p.loops[r.loop]?).filter (·.alive) with
  | none => p.did .uncaught
  | some l =>
    if l.cancelled then p
    else
      let p := match (platform inner l.owner).animationFrame timestamp p with
        | (.ok _, p) => p
        | (.error e, p) =>
          p.log .error Log.Target.animation ("onAnimationFrame failed: " ++ e.message)
      p.continueLoop r.loop

def runFrames (inner : Performer) (timestamp : Ieee.Double) :
    List FrameRequest → Page → Page
  | [], p => p
  | r :: rest, p => runFrames inner timestamp rest (p.runFrame inner timestamp r)

/-- Calls the callbacks of all requests, which are then no longer requested; answers how many. -/
def frame (inner : Performer) (timestamp : Ieee.Double) (p : Page) : Nat × Page :=
  (p.frames.length, runFrames inner timestamp p.frames { p with frames := [] })

end GuestBridge.Page
