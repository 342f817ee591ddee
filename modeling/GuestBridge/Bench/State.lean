import GuestBridge.Bench.Step
import GuestBridge.Core.Observation
import GuestBridge.Guest.Allocator
import GuestBridge.Guest.Interlude

/-!
# The bench

A bridge on a platform inside the process. Its guest records how it is entered and follows a
script; its host keeps two queues that only advance when told to; its images come from a table.
`Bench.work` bounds what the queues and the script can still set off.
-/

set_option autoImplicit false

namespace GuestBridge

namespace Bench

/-- How the guest behaves. -/
structure Guest (C : Type) where
  allocator : Allocator := {}
  /-- Results that the allocator gives before it allocates anything. -/
  allocations : List (Except GuestError UInt32) := []
  /-- Exports that fail, with the message of their failure, or as if they were missing. -/
  faults : List (String × Option String) := []
  interludes : Interludes (Step C) := {}

/-- A load that is waited for. -/
structure Task where
  fetch : Accepted
  /-- Whether the table knew the image when its load was started. -/
  known : Bool
  deriving DecidableEq, Repr

end Bench

structure Bench (G C : Type) where
  core : Core G
  /-- Whether the bridge is still owned. -/
  owned : Bool := true
  /-- Whether the guest is entered. -/
  entered : Bool := false
  guest : Bench.Guest C := {}
  images : List (String × Bench.ImageSource) := []
  tasks : List Bench.Task := []
  deferred : List Completion := []

namespace Bench

variable {G C : Type}

def note (b : Bench G C) (e : Event) : Bench G C := { b with core := b.core.note e }

/-- Whether the bridge exists: a call into the guest keeps it for as long as it lasts, whoever
lets go of it meanwhile. -/
def isAlive (b : Bench G C) : Bool := b.owned || b.entered

/-- The number of steps that the guest has yet to take. -/
def Guest.weight (g : Guest C) : Nat := g.interludes.weight Step.totalWeight

/-- A bound on how many tasks and completions can still run, those included that the guest's
steps may add. -/
def work (b : Bench G C) : Nat := b.tasks.length + b.deferred.length + b.guest.weight

/-- The failure that an export is told to have. -/
def Guest.fault? (g : Guest C) (name : String) : Option GuestError :=
  (g.faults.lookup name).map fun
    | some message => .trap name message
    | none => .missingExport name

def Guest.restore (g : Guest C) (name : String) : Guest C :=
  { g with faults := g.faults.filter (·.1 ≠ name) }

def Guest.failOn (g : Guest C) (name : String) (message : Option String) : Guest C :=
  let g := g.restore name
  { g with faults := (name, message) :: g.faults }

/-- Takes an allocation from the guest's allocator. -/
def allocate (len : UInt32) (b : Bench G C) : UInt32 × Bench G C :=
  let (ptr, allocator, memory) := b.guest.allocator.allocate len b.core.memory
  (ptr, { b with guest.allocator := allocator, core.memory := memory })

/-- What the load of a task has come to. -/
def result? (b : Bench G C) (t : Task) : Option (Except FetchError DecodedImage) :=
  let url := t.fetch.request.url
  if t.known then (b.images.lookup url).bind (·.result? url)
  else some (.error (.load url "404"))

/-- Starts a load and queues its task. -/
def spawn (fetch : Accepted) (b : Bench G C) : Bench G C :=
  let url := fetch.request.url
  let b := (b.note (.load url)).note .spawn
  { b with tasks := b.tasks ++ [⟨fetch, (b.images.lookup url).isSome⟩] }

def defer (c : Completion) (b : Bench G C) : Bench G C :=
  let b := b.note .defer
  { b with deferred := b.deferred ++ [c] }

/-- How often the debugger was paused in. -/
def breaks (b : Bench G C) : Nat :=
  b.core.journal.toList.countP fun
    | .debugBreak => true
    | _ => false

end Bench

end GuestBridge
