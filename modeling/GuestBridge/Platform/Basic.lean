import GuestBridge.Capability.Run

/-!
# Platforms

A platform is what a bridge stands on: something that holds its core, can enter the guest and its
allocator, and keeps the host's queues. The guest may do anything to the state while it is
entered; a bridge therefore reads its core afresh after every call.
-/

set_option autoImplicit false

namespace GuestBridge

/-- What is left to do of a fetch whose image was copied: the call that tells the guest. -/
structure Completion where
  request : Nat
  entry : EntryPoint
  deriving DecidableEq, Repr

/-- The platform of one bridge, as operations on a state `σ`. -/
structure Platform (σ G : Type) where
  core : σ → Core G
  withCore : Core G → σ → σ
  /-- Asks the guest for so many bytes. -/
  alloc : UInt32 → σ → Except GuestError UInt32 × σ
  /-- Enters the guest. -/
  call : EntryPoint → σ → Except GuestError Unit × σ
  /-- Starts the load of an accepted fetch and queues the task that waits for it. -/
  spawn : Accepted → σ → σ
  /-- Queues a completion for a later tick. -/
  defer : Completion → σ → σ

namespace Platform

variable {σ G α : Type} (p : Platform σ G)

/-- Runs an action of the core. -/
def onCore (x : Action (Core G) α) : Action σ α := fun s =>
  let (r, c) := x (p.core s)
  (r, p.withCore c s)

/-- Changes the bridge and nothing else. -/
def onBridge (f : Bridge → Bridge) (s : σ) : σ :=
  let c := p.core s
  p.withCore { c with bridge := f c.bridge } s

def log (level : Log.Level) (target text : String) (s : σ) : σ :=
  p.withCore ((p.core s).log level target text) s

/-- The bridge as it is now. -/
def bridge : Action σ Bridge := fun s => (.ok (p.core s).bridge, s)

/-- What a call of the guest answers, as an action. -/
def ofGuest (x : σ → Except GuestError α × σ) : Action σ α := fun s =>
  let (r, s) := x s
  (r.mapError .guest, s)

end Platform

end GuestBridge
