import GuestBridge.Page.Frames
import GuestBridge.Page.Import
import GuestBridge.Page.Listeners

/-!
# Bringing a bridge up and down

`Page.start` sets a bridge up from the canvas to the first frame request. Whatever fails on the
way, the bridge is let go again and its listeners are removed. The page holds one handle; shutting
it down stops frames and input and cancels the pending fetches, and letting it go also takes the
imports away.
-/

set_option autoImplicit false

namespace GuestBridge.Page

/-! ## Down -/

/-- Stops what a handle stands for. -/
def stop (h : PageHandle) (p : Page) : Page :=
  let p := match h.loop with
    | some loop => p.stopLoop loop
    | none => p
  let p := p.removeListeners h.owner
  p.withCore h.owner (p.core h.owner).shutdown

/-- Lets go of a handle. -/
def discard (h : PageHandle) (p : Page) : Page := (p.stop h).release h.owner

/-- Lets go of the handle that the page holds, if there is one. -/
def dropHandle (p : Page) : Page :=
  match p.handle with
  | some h => { p with handle := none }.discard h
  | none => p

/-! ## Up -/

/-- Finds the canvas, fits it to the window and gets its graphics context; answers the size. -/
def prepareCanvas (o : BridgeOptions) : Attempt StartupError Page (UInt32 × UInt32) := do
  let p ← .get
  if p.script.noWindow || p.script.noDocument then .fail .noWindow
  else
    match p.script.elementKind? o.canvasId with
    | none => .fail (.missingElement o.canvasId)
    | some .canvas =>
      let (width, height) := p.script.innerSize
      .modify (resizeCanvas o.canvasId width height)
      .modify (did (.contextAttributes o.context))
      .modify (did (.getContext o.canvasId "webgl2"))
      match contextFault? "WebGL2 is not supported" "unexpected context type"
          p.script.graphicsContext with
      | some reason => .fail (.context reason)
      | none => return (width, height)
    | some _ => .fail (.notACanvas o.canvasId)

/-- Makes a place for a new bridge. -/
def install (canvasId : String) : Attempt StartupError Page Nat := .state fun p =>
  (p.installations.length, { p with installations := p.installations ++ [{ canvasId }] })

/-- The code of the module that the page serves. -/
def moduleCode : List UInt8 := [0x00, 0x61, 0x73, 0x6d]

/-- Fetches the module and instantiates it with the imports of a bridge. -/
def instantiate (owner : Nat) (url : String) : Attempt StartupError Page Unit := do
  let count := Import.all.length
  .modify (log .debug Log.Target.imports s!"registered {count} guest imports")
  .modify (did (.fetch url))
  let p ← .get
  match p.script.moduleFetch.fault? with
  | some reason => .fail (.instantiate url reason)
  | none =>
    .modify (did (.instantiate moduleCode))
    .modify fun p => { p with
      importer := some owner
      installations := p.installations.modify owner fun i =>
        { i with hidden := p.script.hidden } }
    match p.script.instantiation.fault? with
    | some reason => .fail (.instantiate url reason)
    | none => return ()

/-- Makes sure that the guest has an export that no bridge can do without. -/
def requireExport (owner : Nat) (name : String) : Attempt StartupError Page Unit := do
  let p ← .get
  if p.exports owner name then return ()
  else .fail (.bridge (.guest (.missingExport name)))

/-- Finds the input for equations, if there is to be one; answers its id and its place. -/
def findInput : Option String → Attempt StartupError Page (Option (String × Nat))
  | none => return none
  | some id => do
    let p ← .get
    match p.script.input? id with
    | some place => return some (id, place)
    | none => .fail (.missingElement id)

/-- Sets up a bridge that has its place, and starts forwarding to it. -/
def launch (inner : Performer) (o : BridgeOptions) (owner : Nat) (width height : UInt32) :
    Attempt StartupError Page PageHandle := do
  let bridge := platform inner owner
  instantiate owner o.moduleUrl
  requireExport owner memoryExport
  requireExport owner allocatorExport
  bridge.attachGuest.mapError .bridge
  (bridge.init width height).mapError .bridge
  let input ← findInput o.equationInputId
  listenAll (listenersOf owner input)
  let loop ← startLoop owner
  let url := o.moduleUrl
  .modify (log .info Log.Target.startup s!"running `{url}` at {width}x{height}")
  return ⟨owner, some loop⟩

/-- Undoes a start that has failed. -/
def abandon (owner : Nat) (p : Page) : Page := (p.removeListeners owner).release owner

def bringUp (inner : Performer) (o : BridgeOptions) : Attempt StartupError Page PageHandle := do
  let (width, height) ← prepareCanvas o
  let owner ← install o.canvasId
  (launch inner o owner width height).onError fun _ => abandon owner

/-- Takes a handle in place of the one that the page holds, which is then let go. -/
def keep (h : PageHandle) (p : Page) : Page :=
  let p' := { p with handle := some h }
  match p.handle with
  | some old => p'.discard old
  | none => p'

/-- Lets go of the handle there is and brings a bridge up. -/
def start (inner : Performer) (o : BridgeOptions) : Attempt StartupError Page Unit := do
  .modify dropHandle
  let h ← (bringUp inner o).onError fun e =>
    log .error Log.Target.startup ("startup failed: " ++ e.message)
  .modify (keep h)

/-! ## The handle -/

/-- Whether the frame loop of a handle goes on. -/
def isRunning (h : PageHandle) (p : Page) : Bool :=
  match h.loop.bind (p.loops[·]?) with
  | some l => !l.cancelled
  | none => false

/-- Hands a text to the guest's equation entry point; answers whether there was anything to
hand over. -/
def submit (inner : Performer) (text : String) (h : PageHandle) (p : Page) : Reply × Page :=
  match (platform inner h.owner).submitEquation text p with
  | (.ok copy, p) => (.ok (.bool copy.success), p)
  | (.error e, p) => (.thrown (.text e.message), p)

/-- Shuts the running bridge down; the handle stays. -/
def shutdown (h : PageHandle) (p : Page) : Page :=
  { p.stop h with handle := some { h with loop := none } }

end GuestBridge.Page
