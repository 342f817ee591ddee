import GuestBridge.Proofs.Bench.Cause
import GuestBridge.Proofs.Bench.Rounds

/-!
# Telling what happens

`Bench.chronicle` tells what happens in a run, from beginning to end and in order. It goes along
with the functions of the bench: every function has a namesake in `Teller` that tells what happens
while it runs, with the same recursion and on the same states. What happens is read off the state at
hand: the result to which a load has come there, the room that the allocator has given, whether the
guest can be called. So a run has one chronicle, and nothing in it is left open.
-/

set_option autoImplicit false

namespace GuestBridge.Bench

variable {G C : Type}

/-- The bench when the guest has been entered for a call of an export. -/
def enter (name : String) (b : Bench G C) : Bench G C :=
  { b with guest.interludes := (b.guest.interludes.take name).2, entered := true }

/-- Tells what happens when a step is performed. -/
abbrev Teller (G C : Type) : Type := Step C → Bench G C → List Happening

namespace Teller

variable (inner : Performer G C) (tell : Teller G C)

/-! ## The guest -/

def takeSteps : List (Step C) → Bench G C → List Happening
  | [], _ => []
  | step :: rest, b =>
    let (reply, after) := inner step b
    tell step b ++ takeSteps rest (after.note (.nested reply))

def interlude (name : String) (b : Bench G C) : List Happening :=
  takeSteps inner tell (b.guest.interludes.take name).1 (b.enter name)

def alloc (len : UInt32) (b : Bench G C) : List Happening :=
  .allocated len :: interlude inner tell allocatorExport (b.note (.alloc len))

/-- The guest is called only if the bridge admits it. -/
def callGuest (entry : EntryPoint) (b : Bench G C) : List Happening :=
  if b.core.bridge.admits entry && b.core.bridge.attached then
    .called entry :: interlude inner tell entry.exportName (b.note (.call entry))
  else []

/-! ## Operations -/

def attachGuest (b : Bench G C) : List Happening :=
  if b.core.bridge.attached then [] else [.attached]

def init (width height : UInt32) (b : Bench G C) : List Happening :=
  if b.core.bridge.phase = .running then []
  else
    callGuest inner tell (.init width height) b ++
      match ((platform inner).callGuest (.init width height) b).1 with
      | .ok () => [.started]
      | .error _ => []

def animationFrame (timestamp : Ieee.Double) (b : Bench G C) : List Happening :=
  if b.core.bridge.phase = .running ∧ b.core.bridge.attached ∧
      b.core.bridge.staleAfter? timestamp = none then
    let framed := b.withBridge fun bridge => { bridge with lastFrame := some timestamp }
    let entry := EntryPoint.animationFrame timestamp
    .frame timestamp :: interlude inner tell entry.exportName (framed.note (.call entry))
  else []

/-- The allocator is asked only for bytes that there are, of a guest that there is. -/
def copyToGuest (bytes : List UInt8) (b : Bench G C) : List Happening :=
  if b.core.bridge.attached && !bytes.isEmpty then
    match Store.guestLen bytes with
    | .ok len => alloc inner tell len b
    | .error _ => []
  else []

def submitEquation (text : String) (b : Bench G C) : List Happening :=
  if b.core.bridge.phase = .running then
    copyToGuest inner tell (Text.utf8 text) b ++
      match (platform inner).copyToGuest (Text.utf8 text) b with
      | (.ok (.copied ptr len), copied) => callGuest inner tell (.equation ptr len) copied
      | _ => []
  else []

def capability [GraphicsContext G] (c : Capability) (b : Bench G C) : List Happening :=
  match (c.run b.core).1 with
  | .ok (.accepted fetch) => [.accepted fetch]
  | _ => [.performed c]

def operate [GraphicsContext G] : Operation → Bench G C → List Happening
  | .capability c, b => capability c b
  | .attachGuest, b => attachGuest b
  | .init width height, b => init inner tell width height b
  | .animationFrame timestamp, b => animationFrame inner tell timestamp b
  | .callGuest entry, b => callGuest inner tell entry b
  | .dispatchInput event, b => callGuest inner tell event.entryPoint b
  | .submitEquation text, b => submitEquation inner tell text b
  | .copyToGuest bytes, b => copyToGuest inner tell bytes b
  | .shutdown, _ => [.shutDown]
  | .phase, _ | .pendingFetches, _ | .registry, _ | .readText _ _, _ => []

/-! ## Loads -/

/-- What ends the copy of an image, by what the copy has come to. -/
def endOfCopy (fetch : Accepted) (image : DecodedImage) :
    Except BridgeError CopyResult → Happening
  | .ok (.copied ptr _) => .copied fetch image ptr
  | _ => .failed fetch image

/-- The allocator is asked for room, and when the guest has taken its steps there, the image is
copied or the copy fails. -/
def copyImage (fetch : Accepted) (image : DecodedImage) (b : Bench G C) : List Happening :=
  .asked fetch image :: interlude inner tell allocatorExport
      (b.note (.alloc (.ofNat image.pixels.length))) ++
    [endOfCopy fetch image ((platform inner).copyToGuest image.pixels b).1]

def complete (fetch : Accepted) (result : Except FetchError DecodedImage) (b : Bench G C) :
    List Happening :=
  match ending? b.core.bridge fetch.id result with
  | some why => [.ended fetch why]
  | none =>
    match result with
    | .ok image => copyImage inner tell fetch image (b.withBridge (·.settle fetch.id))
    | .error _ => []

def takeUp (t : Task) (result : Except FetchError DecodedImage) (b : Bench G C) :
    List Happening :=
  if b.isAlive then complete inner tell t.fetch result b else [.lost t.fetch]

def pollEach : List Task → Bench G C → List Happening
  | [], _ => []
  | t :: rest, b =>
    match b.result? t with
    | none => pollEach rest b
    | some result =>
      takeUp inner tell t result b ++ pollEach rest (Bench.takeUp inner t result b)

def runTasksFor : Nat → Bench G C → List Happening
  | 0, _ => []
  | n + 1, b =>
    let (ended, polled) := poll inner b
    pollEach inner tell b.tasks { b with tasks := [] } ++
      if ended then runTasksFor n polled else []

def runTasks (b : Bench G C) : List Happening := runTasksFor inner tell (b.work + 1) b

/-! ## Completions -/

def handle (c : Completion) (b : Bench G C) : List Happening :=
  match omission? b c with
  | none => .told c :: interlude inner tell c.entry.exportName (b.note (.call c.entry))
  | some why => [.omitted c why]

def runOneDeferred (b : Bench G C) : List Happening :=
  match b.deferred with
  | [] => []
  | c :: rest => handle inner tell c { b with deferred := rest }

def runDeferredFor : Nat → Bench G C → List Happening
  | 0, _ => []
  | n + 1, b =>
    runOneDeferred inner tell b ++
      match Bench.runOneDeferred inner b with
      | (true, after) => runDeferredFor n after
      | (false, _) => []

def runDeferred (b : Bench G C) : List Happening := runDeferredFor inner tell (b.work + 1) b

def runAllFor : Nat → Bench G C → List Happening
  | 0, _ => []
  | n + 1, b =>
    let polled := Bench.runTasks inner b
    runTasks inner tell b ++
      if polled.deferred.isEmpty then []
      else runDeferred inner tell polled ++ runAllFor n (Bench.runDeferred inner polled)

def runAll (b : Bench G C) : List Happening := runAllFor inner tell (b.work + 1) b

/-! ## Steps -/

variable [GraphicsContext G]

/-- What only the owner of a bridge can ask for happens only while there is one. -/
def whileOwned (b : Bench G C) (hs : List Happening) : List Happening := if b.owned then hs else []

def performWith : Teller G C
  | .bridge op, b => whileOwned b (operate inner tell op b)
  | .drop, _ => [.dropped]
  | .cancelRequest id, _ => [.cancelled id]
  | .reserve len, b => whileOwned b (alloc inner tell len b)
  | .writeText text, b => whileOwned b (copyToGuest inner tell (Text.utf8 text) b)
  | .writeWords words, b => whileOwned b (copyToGuest inner tell (words.flatMap wordBytes) b)
  | .runTasks, b => runTasks inner tell b
  | .runDeferred, b => runDeferred inner tell b
  | .runOneDeferred, b => runOneDeferred inner tell b
  | .runAll, b => runAll inner tell b
  | _, _ => []

variable [AdjustableContext G C]

def performFor : Nat → Teller G C
  | 0 => fun _ _ => []
  | depth + 1 => performWith (Bench.performFor depth) (performFor depth)

def perform : Teller G C := fun step b => performFor (b.guest.weight + step.weight + 1) step b

omit [GraphicsContext G] [AdjustableContext G C] in
theorem endsCopy_endOfCopy (fetch : Accepted) (image : DecodedImage)
    (r : Except BridgeError CopyResult) : (endOfCopy fetch image r).EndsCopy fetch image := by
  rcases r with e | ⟨ptr, len⟩ | _
  · exact .inl rfl
  · exact .inr ⟨ptr, rfl⟩
  · exact .inl rfl

end Teller

variable [GraphicsContext G] [AdjustableContext G C]

/-- What happens in a run of steps. -/
def chronicle : List (Step C) → Bench G C → List Happening
  | [], _ => []
  | step :: rest, b => Teller.perform step b ++ chronicle rest (perform step b).2

end GuestBridge.Bench
