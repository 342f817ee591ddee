import GuestBridge.Bench.State

/-!
# Running the bench

The guest takes steps of its own while it is entered, so performing a step needs a way to perform
the steps inside it. `Bench.performWith` takes that as an argument; `Bench.performFor` ties the
knot, to a given depth; and `Bench.perform` gives it a depth that no step can use up, since every
level takes at least one queued step away.
-/

set_option autoImplicit false

namespace GuestBridge.Bench

variable {G C : Type}

/-- How a step is performed. -/
abbrev Performer (G C : Type) : Type := Step C → Bench G C → Reply × Bench G C

/-! ## The guest -/

/-- Takes steps one after another and notes what each one came to. -/
def takeSteps (inner : Performer G C) : List (Step C) → Bench G C → Bench G C
  | [], b => b
  | step :: rest, b =>
    let (reply, b) := inner step b
    takeSteps inner rest (b.note (.nested reply))

/-- Takes the steps queued for a call of an export; while they are taken, the guest is
entered. -/
def interlude (inner : Performer G C) (name : String) (b : Bench G C) : Bench G C :=
  let (steps, interludes) := b.guest.interludes.take name
  let entered := { b with guest.interludes := interludes, entered := true }
  { takeSteps inner steps entered with entered := b.entered }

def alloc (inner : Performer G C) (len : UInt32) (b : Bench G C) :
    Except GuestError UInt32 × Bench G C :=
  let b := interlude inner allocatorExport (b.note (.alloc len))
  match b.guest.allocations with
  | result :: rest => (result, { b with guest.allocations := rest })
  | [] =>
    let (ptr, b) := b.allocate len
    (.ok ptr, b)

def call (inner : Performer G C) (entry : EntryPoint) (b : Bench G C) :
    Except GuestError Unit × Bench G C :=
  let b := interlude inner entry.exportName (b.note (.call entry))
  match b.guest.fault? entry.exportName with
  | some e => (.error e, b)
  | none => (.ok (), b)

def platform (inner : Performer G C) : Platform (Bench G C) G where
  core := Bench.core
  withCore core b := { b with core }
  alloc := alloc inner
  call := call inner
  spawn := spawn
  defer := defer

/-! ## The queues -/

/-- Polls each task once, in order. Answers those that still wait, and whether any one ended. -/
def pollEach (inner : Performer G C) : List Task → Bench G C → List Task × Bool × Bench G C
  | [], b => ([], false, b)
  | t :: rest, b =>
    match b.result? t with
    | none =>
      let (waiting, ended, b) := pollEach inner rest b
      (t :: waiting, ended, b)
    | some result =>
      let b := if b.isAlive then (platform inner).complete t.fetch result b else b
      let (waiting, _, b) := pollEach inner rest b
      (waiting, true, b)

/-- Polls all tasks, over and over until a round ends none of them. -/
def runTasksFor (inner : Performer G C) : Nat → Bench G C → Bench G C
  | 0, b => b
  | n + 1, b =>
    let (waiting, ended, b) := pollEach inner b.tasks { b with tasks := [] }
    let b := { b with tasks := waiting ++ b.tasks }
    if ended then runTasksFor inner n b else b

def runTasks (inner : Performer G C) (b : Bench G C) : Bench G C :=
  runTasksFor inner (b.work + 1) b

/-- Runs the oldest completion; answers whether there was one. -/
def runOneDeferred (inner : Performer G C) (b : Bench G C) : Bool × Bench G C :=
  match b.deferred with
  | [] => (false, b)
  | c :: rest =>
    let b := { b with deferred := rest }
    (true, if b.isAlive then (platform inner).deliver c b else b)

/-- Runs completions, those included that are added meanwhile, until none is left. -/
def runDeferredFor (inner : Performer G C) : Nat → Bench G C → Bench G C
  | 0, b => b
  | n + 1, b =>
    match runOneDeferred inner b with
    | (true, b) => runDeferredFor inner n b
    | (false, b) => b

def runDeferred (inner : Performer G C) (b : Bench G C) : Bench G C :=
  runDeferredFor inner (b.work + 1) b

/-- Runs tasks and completions in turn until no completion is waiting. -/
def runAllFor (inner : Performer G C) : Nat → Bench G C → Bench G C
  | 0, b => b
  | n + 1, b =>
    let b := runTasks inner b
    if b.deferred.isEmpty then b else runAllFor inner n (runDeferred inner b)

def runAll (inner : Performer G C) (b : Bench G C) : Bench G C :=
  runAllFor inner (b.work + 1) b

/-! ## Steps -/

/-- The reply with the region of a copy. -/
def regionReply (value : UInt32 → UInt32 → Value) (r : CopyResult) : Value :=
  match r with
  | .copied ptr len => value ptr len
  | .empty => .nothing

variable [GraphicsContext G] [AdjustableContext G C]

/-- Something that only the owner of a bridge can ask for. -/
def whileOwned (b : Bench G C) (f : Bench G C → Reply × Bench G C) : Reply × Bench G C :=
  if b.owned then f b else (.bridgeDropped, b)

def performWith (inner : Performer G C) : Step C → Bench G C → Reply × Bench G C
  | .bridge op, b => b.whileOwned ((platform inner).operate op)
  | .drop, b => (.ok .nothing, { b with owned := false })
  | .request id, b =>
    (.ok ((b.core.bridge.requests[id]?).elim .nothing .request), b)
  | .cancelRequest id, b =>
    (.ok .nothing, { b with core.bridge := b.core.bridge.cancel id })
  | .reserve len, b =>
    b.whileOwned (Platform.reply (fun ptr => .int ptr.toNat)
      (Platform.ofGuest (alloc inner len)))
  | .writeText text, b =>
    b.whileOwned (Platform.reply (regionReply .region)
      ((platform inner).copyToGuest (Text.utf8 text)))
  | .writeWords words, b =>
    b.whileOwned (Platform.reply (regionReply fun ptr _ => .int ptr.toNat)
      ((platform inner).copyToGuest (words.flatMap wordBytes)))
  | .adjustContext change, b =>
    (.ok .nothing, { b with core.gl := AdjustableContext.adjust change b.core.gl })
  | .queueAllocation result, b =>
    (.ok .nothing, { b with guest.allocations := b.guest.allocations ++ [result] })
  | .failExport name message, b =>
    (.ok .nothing, { b with guest := b.guest.failOn name message })
  | .restoreExport name, b => (.ok .nothing, { b with guest := b.guest.restore name })
  | .interlude name steps, b =>
    (.ok .nothing, { b with guest.interludes := b.guest.interludes.add name steps })
  | .growMemory size, b =>
    (.ok .nothing, { b with core.memory := b.core.memory.grow size })
  | .poke offset bytes, b =>
    (.ok .nothing, { b with core.memory := b.core.memory.write offset bytes })
  | .peek offset len, b => (.ok (.bytes (b.core.memory.read offset len)), b)
  | .setRandom values, b => (.ok .nothing, { b with core.host.random := ⟨values, 0⟩ })
  | .breaks, b => (.ok (.int b.breaks), b)
  | .setImage url source, b => (.ok .nothing, { b with images := (url, source) :: b.images })
  | .runTasks, b => (.ok .nothing, runTasks inner b)
  | .runDeferred, b => (.ok .nothing, runDeferred inner b)
  | .runOneDeferred, b =>
    let (ran, b) := runOneDeferred inner b
    (.ok (.bool ran), b)
  | .runAll, b => (.ok .nothing, runAll inner b)

/-- Performs a step whose guest takes steps within steps down to the given depth. -/
def performFor : Nat → Performer G C
  | 0 => fun _ b => (.ok .nothing, b)
  | depth + 1 => performWith (performFor depth)

/-- Performs a step. -/
def perform (step : Step C) (b : Bench G C) : Reply × Bench G C :=
  performFor (b.guest.weight + step.weight + 1) step b

/-- Performs a step and answers what can be seen of it. -/
def observe (step : Step C) (b : Bench G C) : Observation × Bench G C :=
  let (reply, after) := perform step b
  let before := b.core
  let core := after.core
  (.between reply before.journal core.journal before.memory core.memory, after)

/-- Performs steps one after another. -/
def observeAll : List (Step C) → Bench G C → List Observation
  | [], _ => []
  | step :: rest, b =>
    let (o, b) := observe step b
    o :: observeAll rest b

end GuestBridge.Bench
