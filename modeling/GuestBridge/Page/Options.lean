import GuestBridge.Log.Basic

/-!
# Options of the bridge on a page

Where the bridge finds its page elements and guest module, and how the graphics context is set
up. The defaults are those of the page's usual layout; every option can be set by itself.
-/

set_option autoImplicit false

namespace GuestBridge

inductive PowerPreference
  | default
  | highPerformance
  | lowPower
  deriving DecidableEq, Repr

/-- The preference as a context's attributes spell it. -/
def PowerPreference.name : PowerPreference → String
  | default => "default"
  | highPerformance => "high-performance"
  | lowPower => "low-power"

/-- The attributes of the graphics context; by default an opaque, antialiased one with depth and
stencil buffers, whose drawing is kept between frames. -/
structure ContextOptions where
  alpha : Bool := false
  antialias : Bool := true
  depth : Bool := true
  stencil : Bool := true
  premultipliedAlpha : Bool := true
  preserveDrawingBuffer : Bool := true
  failIfMajorPerformanceCaveat : Bool := false
  powerPreference : PowerPreference := .default
  deriving DecidableEq, Repr

/-- One setting of a context. -/
inductive ContextOptions.Change
  | alpha (value : Bool)
  | antialias (value : Bool)
  | depth (value : Bool)
  | stencil (value : Bool)
  | premultipliedAlpha (value : Bool)
  | preserveDrawingBuffer (value : Bool)
  | failIfMajorPerformanceCaveat (value : Bool)
  | powerPreference (value : PowerPreference)
  deriving DecidableEq, Repr

def ContextOptions.set (o : ContextOptions) : ContextOptions.Change → ContextOptions
  | .alpha value => { o with alpha := value }
  | .antialias value => { o with antialias := value }
  | .depth value => { o with depth := value }
  | .stencil value => { o with stencil := value }
  | .premultipliedAlpha value => { o with premultipliedAlpha := value }
  | .preserveDrawingBuffer value => { o with preserveDrawingBuffer := value }
  | .failIfMajorPerformanceCaveat value => { o with failIfMajorPerformanceCaveat := value }
  | .powerPreference value => { o with powerPreference := value }

structure BridgeOptions where
  canvasId : String := "webgl"
  moduleUrl : String := "main_web.wasm"
  /-- The text input whose value is submitted to the guest on Enter, if there is one. -/
  equationInputId : Option String := some "equation-input"
  logLevel : Log.Filter := some .info
  context : ContextOptions := {}
  deriving DecidableEq, Repr

/-- One setting of the bridge. -/
inductive BridgeOptions.Change
  | canvasId (id : String)
  | moduleUrl (url : String)
  | equationInputId (id : String)
  | withoutEquationInput
  | logLevel (filter : Log.Filter)
  /-- A context with these settings, made on the defaults. -/
  | context (changes : List ContextOptions.Change)
  deriving DecidableEq, Repr

namespace BridgeOptions

def set (o : BridgeOptions) : BridgeOptions.Change → BridgeOptions
  | .canvasId id => { o with canvasId := id }
  | .moduleUrl url => { o with moduleUrl := url }
  | .equationInputId id => { o with equationInputId := some id }
  | .withoutEquationInput => { o with equationInputId := none }
  | .logLevel filter => { o with logLevel := filter }
  | .context changes => { o with context := changes.foldl ContextOptions.set {} }

/-- The defaults with the given settings. -/
def build (changes : List BridgeOptions.Change) : BridgeOptions := changes.foldl set {}

end BridgeOptions

end GuestBridge
