import GuestBridge.Page.State

/-!
# The guest module of a page

Entering the guest may take steps on the page, and what such a step throws, the guest throws. A
pointer comes back from the allocator as the signed integer with the same bits.
-/

set_option autoImplicit false

namespace GuestBridge.Page

/-- How a step is performed. -/
abbrev Performer : Type := PageStep → Page → Reply × Page

/-- Takes steps one after another and notes what each one came to; stops at one that throws, and
answers what it has thrown. -/
def takeSteps (inner : Performer) : List PageStep → Page → Option PageValue × Page
  | [], p => (none, p)
  | step :: rest, p =>
    let (reply, p) := inner step p
    let p := p.note (.nested reply)
    match reply with
    | .thrown v => (some v, p)
    | _ => takeSteps inner rest p

/-- Takes the steps queued for a call of an export; while they are taken, the guest of the bridge
is entered. -/
def interlude (inner : Performer) (owner : Nat) (name : String) (p : Page) :
    Option PageValue × Page :=
  let (steps, interludes) := p.guest.interludes.take name
  let entered := { p with
    guest.interludes := interludes
    entered := owner :: p.entered
    visits := ⟨owner, name, p.holds owner⟩ :: p.visits }
  let (thrown, after) := takeSteps inner steps entered
  (thrown, { after with entered := p.entered })

/-- The pointer that an allocator has answered. -/
def pointerOf : Outcome → Except GuestError UInt32
  | .thrown v => .error (.trap allocatorExport v.message)
  | .value v =>
    match v.number? with
    | some x => .ok x.toInt32.toUInt32
    | none => .error (.badAllocation v.message)

/-- Takes an allocation from the guest's allocator. -/
def allocate (len : UInt32) (p : Page) : UInt32 × Page :=
  let (ptr, allocator, memory) := p.guest.allocator.allocate len p.memory
  (ptr, { p with guest.allocator := allocator, memory })

def alloc (inner : Performer) (owner : Nat) (len : UInt32) (p : Page) :
    Except GuestError UInt32 × Page :=
  match interlude inner owner allocatorExport (p.note (.alloc len)) with
  | (some thrown, p) => (pointerOf (.thrown thrown), p)
  | (none, p) =>
    match p.guest.allocations with
    | o :: rest => (pointerOf o, { p with guest.allocations := rest })
    | [] =>
      let (ptr, p) := p.allocate len
      (.ok ptr, p)

/-- Whether the guest of a bridge has an export. -/
def exports (owner : Nat) (name : String) (p : Page) : Bool :=
  match p.installations[owner]? with
  | some i => !i.hidden.contains name
  | none => false

def call (inner : Performer) (owner : Nat) (entry : EntryPoint) (p : Page) :
    Except GuestError Unit × Page :=
  let name := entry.exportName
  if !p.exports owner name then (.error (.missingExport name), p)
  else
    match interlude inner owner name (p.note (.call entry)) with
    | (some thrown, p) => (.error (.trap name thrown.message), p)
    | (none, p) =>
      match p.guest.faults.lookup name with
      | some thrown => (.error (.trap name thrown.message), p)
      | none => (.ok (), p)

/-- Queues the task that loads an image. -/
def spawn (owner : Nat) (fetch : Accepted) (p : Page) : Page :=
  let p := p.note .spawn
  { p with loads := p.loads ++ [{ owner, fetch }] }

/-- Sets a timer for a completion. Where that is refused, the completion is lost. -/
def defer (owner : Nat) (completion : Completion) (p : Page) : Page :=
  match p.script.refusal? "setTimeout" with
  | some thrown =>
    p.log .error Log.Target.host ("could not schedule deferred task: " ++ thrown.message)
  | none =>
    let p := p.note .defer
    { p with timers := p.timers ++ [⟨owner, completion⟩] }

/-- The platform of an installed bridge. -/
def platform (inner : Performer) (owner : Nat) : Platform Page ScriptedContext where
  core := core owner
  withCore := withCore owner
  alloc := alloc inner owner
  call := call inner owner
  spawn := spawn owner
  defer := defer owner

end GuestBridge.Page
