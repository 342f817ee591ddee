import GuestBridge.Page.Guest

/-!
# Listeners

The events of the page that are forwarded to the guest. A listener that is given an event of
another sort than it expects does nothing.
-/

set_option autoImplicit false

namespace GuestBridge

/-- The number by which the page knows a mouse button: the low sixteen bits of any number. -/
def Payload.pageButton (button : Int32) : Int32 := button.toInt16.toInt32

/-- The event of the guest that a reaction makes of what an event of the page brings. -/
def Reaction.inputEvent? : Reaction → Payload → Option InputEvent
  | keyDown, .key code repeated _ => some (.keyDown code repeated)
  | keyUp, .key code _ _ => some (.keyUp code)
  | mouseDown, .mouse button x y => some (.mouseDown (Payload.pageButton button) x y)
  | mouseUp, .mouse button x y => some (.mouseUp (Payload.pageButton button) x y)
  | mouseMove, .mouse _ x y => some (.mouseMove x y)
  | _, _ => none

/-- Whether the Enter key was typed. -/
def Payload.isEnter : Payload → Bool
  | key _ _ name => name = "Enter"
  | _ => false

namespace Page

/-- Logs that an export could not be called. -/
def report (name : String) (e : BridgeError) (p : Page) : Page :=
  p.log .error Log.Target.input (name ++ " failed: " ++ e.message)

/-- Forwards an event to the guest. -/
def forward (inner : Performer) (owner : Nat) (event : InputEvent) (p : Page) : Page :=
  match (platform inner owner).dispatchInput event p with
  | (.ok (), p) => p
  | (.error e, p) => p.report event.entryPoint.exportName e

def canvasId (p : Page) (owner : Nat) : String :=
  ((p.installations[owner]?).map (·.canvasId)).getD ""

/-- Fits the canvas to the window and tells the guest. -/
def resize (inner : Performer) (owner : Nat) (p : Page) : Page :=
  let (width, height) := p.script.innerSize
  forward inner owner (.resize width height) (p.resizeCanvas (p.canvasId owner) width height)

/-- Submits the text of an input. -/
def submitInput (inner : Performer) (owner input : Nat) (p : Page) : Page :=
  match (platform inner owner).submitEquation (p.script.text input) p with
  | (.ok _, p) => p
  | (.error e, p) => p.report "onEquation" e

def react (inner : Performer) (payload : Payload) (l : Listener) (p : Page) : Page :=
  match l.reaction with
  | .resize => resize inner l.owner p
  | .submit input => if payload.isEnter then submitInput inner l.owner input p else p
  | reaction =>
    match reaction.inputEvent? payload with
    | some event => forward inner l.owner event p
    | none => p

/-- Has listeners react in order, except for those that are removed before their turn comes. -/
def reactAll (inner : Performer) (payload : Payload) : List Listener → Page → Page
  | [], p => p
  | l :: rest, p =>
    let p := if p.listeners.contains l then react inner payload l p else p
    reactAll inner payload rest p

/-- Has an event come to its listeners, in the order of their installation; answers how many
there are. -/
def dispatch (inner : Performer) (target kind : String) (payload : Payload) (p : Page) :
    Nat × Page :=
  let due := p.listeners.filter fun l => l.target = target && l.kind = kind
  (due.length, reactAll inner payload due p)

/-! ## Installation -/

/-- The listeners of a bridge, in the order in which they are installed. The input for equations
comes with its id and its place. -/
def listenersOf (owner : Nat) (input : Option (String × Nat)) : List Listener :=
  [⟨owner, "document", "keydown", .keyDown⟩,
    ⟨owner, "document", "keyup", .keyUp⟩,
    ⟨owner, "document", "mousedown", .mouseDown⟩,
    ⟨owner, "document", "mouseup", .mouseUp⟩,
    ⟨owner, "document", "mousemove", .mouseMove⟩,
    ⟨owner, "window", "resize", .resize⟩] ++
    input.toList.map fun (id, place) => ⟨owner, id, "keyup", .submit place⟩

/-- Installs a listener, unless the page refuses that. -/
def listen (l : Listener) : Attempt StartupError Page Unit := fun p =>
  match p.script.refusal? ("addEventListener " ++ l.kind) with
  | some thrown => (.error (.context thrown.message), p)
  | none =>
    let p := p.did (.addEventListener l.target l.kind)
    (.ok (), { p with listeners := p.listeners ++ [l] })

/-- Installs listeners in order, up to one that is refused. -/
def listenAll : List Listener → Attempt StartupError Page Unit
  | [] => return ()
  | l :: rest => do
    listen l
    listenAll rest

/-- Removes all listeners of a bridge, in the order of their installation. -/
def removeListeners (owner : Nat) (p : Page) : Page :=
  let (own, others) := p.listeners.partition (·.owner = owner)
  let p := own.foldl (fun p l => p.did (.removeEventListener l.target l.kind)) p
  { p with listeners := others }

end Page

end GuestBridge
