import GuestBridge.Core.Observation
import GuestBridge.Guest.Allocator
import GuestBridge.Guest.Interlude
import GuestBridge.Page.Step
import GuestBridge.Platform.Fetch

/-!
# The page

A page on which bridges are brought up, one after another or one inside the start of another.
Each of them has its place among `Page.installations`; the graphics context, the guest's memory
and the host are the page's, and all of them share it. What a bridge has left behind on the page
carries the place of its owner: frame loops, listeners, loads and timers.
-/

set_option autoImplicit false

namespace GuestBridge

/-- A bridge that was brought up on the page. -/
structure Installation where
  bridge : Bridge := {}
  /-- Whether the bridge and its imports are still owned. -/
  owned : Bool := true
  canvasId : String
  /-- The exports that its guest does not have. -/
  hidden : List String := []
  deriving Repr

/-- What the page holds of a running bridge. -/
structure PageHandle where
  owner : Nat
  /-- The frame loop, until it is stopped. -/
  loop : Option Nat
  deriving DecidableEq, Repr

/-- A loop that asks for one frame after another. -/
structure FrameLoop where
  owner : Nat
  /-- Its latest request. -/
  request : Nat
  cancelled : Bool := false
  /-- Whether its callback still exists. -/
  alive : Bool := true
  deriving DecidableEq, Repr

structure FrameRequest where
  id : Nat
  loop : Nat
  deriving DecidableEq, Repr

/-- What a listener does when its event comes. -/
inductive Reaction
  | keyDown
  | keyUp
  | mouseDown
  | mouseUp
  | mouseMove
  | resize
  /-- Submits the text of an input, known by its place, on Enter. -/
  | submit (input : Nat)
  deriving DecidableEq, Repr

structure Listener where
  owner : Nat
  target : String
  kind : String
  reaction : Reaction
  deriving DecidableEq, Repr

/-- How far the load of an image has come. -/
inductive LoadStage
  | fresh
  /-- It waits for an image of the page. -/
  | waiting (image : Nat)
  deriving DecidableEq, Repr

/-- The task that loads the image of a fetch. -/
structure ImageLoad where
  owner : Nat
  fetch : Accepted
  stage : LoadStage := .fresh
  deriving DecidableEq, Repr

/-- An image whose source was set. -/
structure PageImage where
  /-- Its natural size, if it loads at all. -/
  size : Option (UInt32 × UInt32)
  /-- Whether it has loaded by now, or failed to. -/
  settled : Bool := false
  deriving DecidableEq, Repr

structure Timer where
  owner : Nat
  completion : Completion
  deriving DecidableEq, Repr

/-- A call of an export of a guest. -/
structure Visit where
  owner : Nat
  name : String
  /-- Whether the page held the bridge, and had not shut it down. -/
  held : Bool
  deriving DecidableEq, Repr

/-- How the guest module behaves. -/
structure PageGuest where
  allocator : Allocator := {}
  /-- What the allocator comes to before it allocates anything. -/
  allocations : List Outcome := []
  /-- Exports that throw, with what they throw. -/
  faults : List (String × PageValue) := []
  interludes : Interludes PageStep := {}

structure Page where
  installations : List Installation := []
  gl : ScriptedContext := {}
  memory : Memory := {}
  host : Host := {}
  journal : Array Event := #[]
  script : PageScript := {}
  guest : PageGuest := {}
  handle : Option PageHandle := none
  /-- The owners of the guests that are entered, the innermost first. -/
  entered : List Nat := []
  /-- All calls of guests so far, the latest first. -/
  visits : List Visit := []
  /-- Whose imports the module was last instantiated with. -/
  importer : Option Nat := none
  loops : List FrameLoop := []
  frames : List FrameRequest := []
  nextFrame : Nat := 1
  listeners : List Listener := []
  loads : List ImageLoad := []
  images : List PageImage := []
  timers : List Timer := []

namespace Page

/-- The core of an installed bridge. -/
def core (owner : Nat) (p : Page) : Core ScriptedContext where
  bridge := ((p.installations[owner]?).map (·.bridge)).getD {}
  gl := p.gl
  memory := p.memory
  host := p.host
  journal := p.journal

def withCore (owner : Nat) (c : Core ScriptedContext) (p : Page) : Page :=
  { p with
    installations := p.installations.modify owner fun i => { i with bridge := c.bridge }
    gl := c.gl
    memory := c.memory
    host := c.host
    journal := c.journal }

def note (p : Page) (e : Event) : Page := { p with journal := p.journal.push e }

def log (level : Log.Level) (target text : String) (p : Page) : Page :=
  p.note (.log ⟨level, target, text⟩)

/-- Notes what was done to the page. -/
def did (e : PageEvent) (p : Page) : Page := p.note (.page e)

def isOwned (p : Page) (owner : Nat) : Bool :=
  ((p.installations[owner]?).map (·.owned)).getD false

/-- Whether a bridge exists: a call into its guest keeps it for as long as it lasts, whoever lets
go of it meanwhile. -/
def isAlive (p : Page) (owner : Nat) : Bool := p.isOwned owner || p.entered.contains owner

/-- Whether the page holds a bridge that it has not shut down. -/
def holds (p : Page) (owner : Nat) : Bool :=
  match p.handle with
  | some ⟨o, some _⟩ => o = owner
  | _ => false

/-- Lets go of a bridge and of its imports. -/
def release (owner : Nat) (p : Page) : Page :=
  { p with installations := p.installations.modify owner fun i => { i with owned := false } }

def resizeCanvas (id : String) (width height : UInt32) (p : Page) : Page :=
  (p.did (.width id width)).did (.height id height)

/-- A bound on how many tasks and timers can still run, those included that the guest's steps may
add. -/
def work (p : Page) : Nat :=
  p.loads.length + p.timers.length + p.guest.interludes.weight PageStep.totalWeight

end Page

end GuestBridge
