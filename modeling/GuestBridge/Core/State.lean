import GuestBridge.Core.Reply
import GuestBridge.Guest.Entry
import GuestBridge.Log.Basic
import GuestBridge.Memory.Basic
import GuestBridge.Page.Event

/-!
# The state of a bridge

`Bridge` is what one bridge owns: its handle tables, the fetches it has accepted, and how far its
guest has come. `Core` puts it among what it works on: the native graphics context, the guest's
memory, the host, and the journal of all that happened, oldest first.
-/

set_option autoImplicit false

namespace GuestBridge

/-- Something that happened. -/
inductive Event
  | gl (call : GlCall) (answer : call.Answer)
  | log (record : Log.Record)
  /-- The guest was asked for so many bytes. -/
  | alloc (len : UInt32)
  | call (entry : EntryPoint)
  /-- A load was started. -/
  | load (url : String)
  /-- A task was handed to the host. -/
  | spawn
  /-- A completion was put off to a later tick. -/
  | defer
  | debugBreak
  | page (event : PageEvent)
  /-- A step taken inside a call of the guest has come to this. -/
  | nested (reply : Reply)

structure Bridge where
  registry : Registry := {}
  /-- Every fetch that was ever accepted, in order; its place is its identity. -/
  requests : List FetchRequest := []
  /-- The fetches whose load has not come back, in the order of their acceptance. -/
  pending : List Nat := []
  /-- Whether a guest module is attached. -/
  attached : Bool := false
  phase : Phase := .idle
  /-- When the last frame was delivered. -/
  lastFrame : Option Ieee.Double := none
  deriving Repr

namespace Bridge

/-- Records a fetch as accepted and pending. -/
def accept (b : Bridge) (request : FetchRequest) : Accepted × Bridge :=
  let id := b.requests.length
  (⟨id, request⟩, { b with
    requests := b.requests ++ [request]
    pending := b.pending ++ [id] })

/-- Whether a fetch was cancelled; one that was never accepted was not. -/
def isCancelled (b : Bridge) (id : Nat) : Bool :=
  match b.requests[id]? with
  | some request => request.cancelled
  | none => false

/-- Cancels a fetch. -/
def cancel (b : Bridge) (id : Nat) : Bridge :=
  { b with requests := b.requests.modify id fun request => { request with cancelled := true } }

/-- Takes a fetch off the pending ones. -/
def settle (b : Bridge) (id : Nat) : Bridge := { b with pending := b.pending.filter (· ≠ id) }

/-- Cancels every pending fetch, and none is pending any more. -/
def cancelPending (b : Bridge) : Bridge := { b.pending.foldl cancel b with pending := [] }

/-- Whether the bridge may enter the guest through an entry point. -/
def admits (b : Bridge) (entry : EntryPoint) : Bool := b.phase = .running || entry.isInit

/-- The last frame delivered, if the given time does not come after it. -/
def staleAfter? (b : Bridge) (timestamp : Ieee.Double) : Option Ieee.Double :=
  b.lastFrame.filter fun last => timestamp.le last

end Bridge

/-- The numbers a host draws, over and over in the given order. -/
structure RandomSource where
  values : List Ieee.Double := [.half]
  turn : Nat := 0
  deriving Repr

def RandomSource.draw (r : RandomSource) : Ieee.Double × RandomSource :=
  ((r.values[r.turn % r.values.length]?).getD .half, { r with turn := r.turn + 1 })

/-- The host's services that need no queue. -/
structure Host where
  random : RandomSource := {}
  /-- What pausing in the debugger throws. -/
  breakFault : Option PageValue := none
  deriving Repr

structure Core (G : Type) where
  bridge : Bridge := {}
  gl : G
  memory : Memory := {}
  host : Host := {}
  journal : Array Event := #[]

namespace Core

variable {G : Type}

def note (c : Core G) (e : Event) : Core G := { c with journal := c.journal.push e }

def log (c : Core G) (level : Log.Level) (target text : String) : Core G :=
  c.note (.log ⟨level, target, text⟩)

/-- Cancels every pending fetch. -/
def shutdown (c : Core G) : Core G :=
  { c with bridge := c.bridge.cancelPending }.log .debug Log.Target.bridge "bridge shut down"

/-- Makes a native call and notes it with its answer. -/
def perform [GraphicsContext G] (c : Core G) (call : GlCall) : call.Answer × Core G :=
  let (answer, gl) := GraphicsContext.answer call c.gl
  (answer, { c with gl }.note (.gl call answer))

def draw (c : Core G) : Ieee.Double × Core G :=
  let (x, random) := c.host.random.draw
  (x, { c with host.random := random })

end Core

end GuestBridge
