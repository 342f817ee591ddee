import GuestBridge.Fetch.Image
import GuestBridge.Page.Options
import GuestBridge.Page.Value

/-!
# How a page behaves

What the page has and how it answers: its elements, the size of its window, the contexts of its
canvases, the module it serves, its images, and the calls that it refuses.
-/

set_option autoImplicit false

namespace GuestBridge

inductive ElementKind
  | canvas
  | input
  | other
  deriving DecidableEq, Repr

/-- An element that the page has, or had once. -/
structure PageElement where
  id : String
  kind : ElementKind
  /-- Whether it can be found under its id. -/
  attached : Bool := true
  /-- The text in an input. -/
  text : String := ""
  deriving DecidableEq, Repr

/-- The value that came out, returned or thrown, as a message. -/
def Outcome.message : Outcome → String
  | value v | thrown v => v.message

/-- What is wrong with what a canvas answers to a request for a context, if it is told to answer
anything else than one. Only null says that there is none. -/
def contextFault? (absent unexpected : String) : Option Outcome → Option String
  | none => none
  | some (.thrown v) => some v.message
  | some (.value .null) => some absent
  | some (.value _) => some unexpected

/-- The body of a response. -/
inductive ModuleBody
  | code
  /-- Asking for it is refused. -/
  | refused (thrown : PageValue)
  | outcome (o : Outcome)
  deriving DecidableEq, Repr

/-- What fetching the module comes to. -/
inductive ModuleFetch
  | response (status : Nat) (body : ModuleBody)
  | outcome (o : Outcome)
  deriving DecidableEq, Repr

/-- What instantiating the module comes to. -/
inductive Instantiation
  | module
  /-- An object that holds no instance. -/
  | hollow
  | outcome (o : Outcome)
  deriving DecidableEq, Repr

/-- Why there is no code in a body; a value that is none is reported like a thrown one. -/
def ModuleBody.fault? : ModuleBody → Option String
  | code => none
  | refused v => some v.message
  | outcome o => some o.message

/-- Why a fetch has not brought the module. -/
def ModuleFetch.fault? : ModuleFetch → Option String
  | response status body =>
    if 200 ≤ status ∧ status ≤ 299 then body.fault? else some s!"HTTP {status}"
  | outcome o => some o.message

/-- Why there is no instance. -/
def Instantiation.fault? : Instantiation → Option String
  | module => none
  | hollow => some PageValue.undefined.message
  | outcome (.thrown v) => some v.message
  | outcome (.value _) => some "Reflect.get called on non-object"

structure PageScript where
  noWindow : Bool := false
  noDocument : Bool := false
  innerWidth : Outcome := .value (.number (.ofInt 640))
  innerHeight : Outcome := .value (.number (.ofInt 480))
  /-- All elements that there ever were, in the order of their creation. -/
  elements : List PageElement :=
    [{ id := "webgl", kind := .canvas }, { id := "equation-input", kind := .input },
      { id := "div", kind := .other }]
  /-- What a canvas answers instead of a graphics context. -/
  graphicsContext : Option Outcome := none
  /-- What a canvas answers instead of a context to draw images with. -/
  imageContext : Option Outcome := none
  moduleFetch : ModuleFetch := .response 200 .code
  instantiation : Instantiation := .module
  /-- The exports that the module does not have, or not as they should be. -/
  hidden : List String := []
  /-- Calls that throw, with what they throw. -/
  refusals : List (String × PageValue) := []
  /-- The images that load, by their address, the latest first. -/
  images : List (String × DecodedImage) := []
  options : BridgeOptions := {}
  deriving DecidableEq, Repr

namespace PageScript

/-- The kind of the element that is found under an id. -/
def elementKind? (s : PageScript) (id : String) : Option ElementKind :=
  (s.elements.find? fun e => e.attached && e.id = id).map (·.kind)

/-- The place of the input that is found under an id. -/
def input? (s : PageScript) (id : String) : Option Nat :=
  s.elements.findIdx? fun e => e.attached && e.id = id && e.kind = .input

/-- Puts a new element in the place of the one with its id, or takes that away. -/
def setElement (s : PageScript) (id : String) (kind : Option ElementKind) : PageScript :=
  let others := s.elements.map fun e => if e.id = id then { e with attached := false } else e
  { s with elements := others ++ kind.toList.map fun kind => { id, kind } }

/-- Types a text into the element that is found under an id. -/
def setText (s : PageScript) (id text : String) : PageScript :=
  { s with elements := s.elements.map fun e =>
      if e.attached && e.id = id then { e with text } else e }

/-- The text in the input at a place; an input that was replaced keeps its own. -/
def text (s : PageScript) (input : Nat) : String :=
  ((s.elements[input]?).map (·.text)).getD ""

/-- What a call is refused with, if it is. -/
def refusal? (s : PageScript) (call : String) : Option PageValue := s.refusals.lookup call

def permit (s : PageScript) (call : String) : PageScript :=
  { s with refusals := s.refusals.filter (·.1 ≠ call) }

def refuse (s : PageScript) (call : String) (thrown : PageValue) : PageScript :=
  { s with refusals := (call, thrown) :: (s.permit call).refusals }

/-- One side of the window; it counts as nothing where it is no number. -/
def side : Outcome → UInt32
  | .value (.number x) => x.toUInt32
  | _ => 0

/-- The inner size of the window. -/
def innerSize (s : PageScript) : UInt32 × UInt32 := (side s.innerWidth, side s.innerHeight)

end PageScript

end GuestBridge
