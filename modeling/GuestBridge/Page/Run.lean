import GuestBridge.Page.Images
import GuestBridge.Page.Startup

/-!
# Running a page

As on the bench, the guest takes steps of its own while it is entered. `Page.performWith` is
given a way to perform them, `Page.performFor` ties the knot to a given depth, and `Page.perform`
gives it a depth that no step can use up.
-/

set_option autoImplicit false

namespace GuestBridge.Page

/-! ## Imports -/

/-- What an import throws once its bridge is gone. -/
def closureDropped : String := "closure invoked recursively or after being dropped"

/-- Calls an import. The misuse of a handle is logged and answered with the import's fallback;
any other error is thrown. -/
def runImport (inner : Performer) (owner : Nat) (i : Import) (args : Arguments) (p : Page) :
    Reply × Page :=
  match (platform inner owner).perform (i.capability args) p with
  | (.ok result, p) => (.ok (.page result.pageValue), p)
  | (.error e, p) =>
    let message := i.name ++ ": " ++ e.message
    if e.isFatal then (.thrown (.text message), p)
    else (.ok (.page i.fallback), p.log .warn Log.Target.imports message)

/-- Calls an import that the module was last instantiated with. -/
def callImport (inner : Performer) (name : String) (args : Arguments) (p : Page) :
    Reply × Page :=
  match p.importer.filter p.isOwned with
  | none => (.thrown (.text closureDropped), p)
  | some owner =>
    match Import.find? name with
    | some i => runImport inner owner i args p
    | none => (.ok (.page .undefined), p)

/-! ## Steps -/

/-- Something that only a handle can be asked for. -/
def withHandle (p : Page) (f : PageHandle → Page → Reply × Page) : Reply × Page :=
  match p.handle with
  | some h => f h p
  | none => (.noHandle, p)

/-- What becomes of a page that is told something. -/
def told (p : Page) : Reply × Page := (.ok .nothing, p)

def performWith (inner : Performer) : PageStep → Page → Reply × Page
  | .start, p =>
    match start inner p.script.options p with
    | (.ok (), p) => (.ok .nothing, p)
    | (.error e, p) => (.error e, p)
  | .startDefault, p =>
    match start inner {} p with
    | (.ok (), p) => (.ok .nothing, p)
    | (.error e, p) => (.thrown (.text e.message), p)
  | .running, p => p.withHandle fun h p => (.ok (.bool (p.isRunning h)), p)
  | .submit text, p => p.withHandle (submit inner text)
  | .shutdown, p => p.withHandle fun h p => told (p.shutdown h)
  | .drop, p => told p.dropHandle
  | .frame timestamp, p =>
    let (count, p) := frame inner timestamp p
    (.ok (.int count), p)
  | .event target kind payload, p =>
    let (count, p) := dispatch inner target kind payload p
    (.ok (.int count), p)
  | .settleImages, p => told p.settleImages
  | .runTasks, p => told (runTasks inner p)
  | .runTimer, p =>
    let (ran, p) := runTimer inner p
    (.ok (.bool ran), p)
  | .runAll, p => told (runAll inner p)
  | .importCall name args, p => callImport inner name args p
  | .importNames, p => (.ok (.names (p.importer.map fun _ => Import.names)), p)
  | .peek offset len, p => (.ok (.bytes (p.memory.read offset len)), p)
  | .poke offset bytes, p => told { p with memory := p.memory.write offset bytes }
  | .interlude name steps, p =>
    told { p with guest.interludes := p.guest.interludes.add name steps }
  | .throwFrom name thrown, p =>
    told { p with guest.faults := (name, thrown) :: p.guest.faults }
  | .restoreExport name, p =>
    told { p with guest.faults := p.guest.faults.filter (·.1 ≠ name) }
  | .queueAllocation o, p => told { p with guest.allocations := p.guest.allocations ++ [o] }
  | .adjustContext change, p => told { p with gl := AdjustableContext.adjust change p.gl }
  | .setRandom values, p => told { p with host.random := ⟨values, 0⟩ }
  | .breakFault thrown, p => told { p with host.breakFault := some thrown }
  | .setOptions changes, p => told { p with script.options := .build changes }
  | .setText id text, p => told { p with script := p.script.setText id text }
  | .setElement id kind, p => told { p with script := p.script.setElement id kind }
  | .innerSize width height, p =>
    told { p with script.innerWidth := width, script.innerHeight := height }
  | .noWindow absent, p => told { p with script.noWindow := absent }
  | .noDocument absent, p => told { p with script.noDocument := absent }
  | .graphicsContext o, p => told { p with script.graphicsContext := some o }
  | .imageContext o, p => told { p with script.imageContext := some o }
  | .moduleFetch f, p => told { p with script.moduleFetch := f }
  | .instantiation i, p => told { p with script.instantiation := i }
  | .hideExport name, p => told { p with script.hidden := name :: p.script.hidden }
  | .setImage url image, p => told { p with script.images := (url, image) :: p.script.images }
  | .refuse call thrown, p => told { p with script := p.script.refuse call thrown }
  | .permit call, p => told { p with script := p.script.permit call }

/-- Performs a step whose guest takes steps within steps down to the given depth. -/
def performFor : Nat → Performer
  | 0 => fun _ p => told p
  | depth + 1 => performWith (performFor depth)

/-- Performs a step. -/
def perform (step : PageStep) (p : Page) : Reply × Page :=
  performFor (p.guest.interludes.weight PageStep.totalWeight + step.weight + 1) step p

/-- Performs a step and answers what can be seen of it. -/
def observe (step : PageStep) (p : Page) : Observation × Page :=
  let (reply, after) := perform step p
  (.between reply p.journal after.journal p.memory after.memory, after)

/-- Performs steps one after another. -/
def observeAll : List PageStep → Page → List Observation
  | [], _ => []
  | step :: rest, p =>
    let (o, p) := observe step p
    o :: observeAll rest p

/-- A fresh page, whose guest has so many bytes of memory. -/
def fresh (memory : Nat) : Page := { memory := .zeros memory }

end GuestBridge.Page
