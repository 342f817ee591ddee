import GuestBridge.Ieee.Number

/-!
# Entry points of the guest

`EntryPoint` is a call of one of the guest's exports, `InputEvent` an event of the page that
becomes one. `EntryPoint.args` gives the numbers that are passed: unsigned words are read as the
signed ones the guest declares, flags as 0 and 1.
-/

set_option autoImplicit false

namespace GuestBridge

open Ieee

inductive EntryPoint
  | init (width height : UInt32)
  | keyDown (code : UInt32) (down repeated : Bool)
  | keyUp (code : UInt32) (down : Bool)
  | mouseDown (button x y : Int32)
  | mouseUp (button x y : Int32)
  | mouseMove (x y : Int32)
  | resize (width height : UInt32)
  | animationFrame (timestamp : Double)
  | equation (ptr len : UInt32)
  | fetch (width height ptr len token : UInt32)
  deriving DecidableEq, Repr

namespace EntryPoint

/-- The name under which the guest exports the entry point. -/
def exportName : EntryPoint → String
  | init .. => "onInit"
  | keyDown .. => "onKeyDown"
  | keyUp .. => "onKeyUp"
  | mouseDown .. => "onMouseDown"
  | mouseUp .. => "onMouseUp"
  | mouseMove .. => "onMouseMove"
  | resize .. => "onResize"
  | animationFrame .. => "onAnimationFrame"
  | equation .. => "onEquation"
  | fetch .. => "onFetch"

/-- The arguments of the call, in the order of the parameters. -/
def args : EntryPoint → List Double
  | init width height | resize width height => [.ofWord32 width, .ofWord32 height]
  | keyDown code down repeated => [.ofWord32 code, .ofBool down, .ofBool repeated]
  | keyUp code down => [.ofWord32 code, .ofBool down]
  | mouseDown button x y | mouseUp button x y => [.ofInt32 button, .ofInt32 x, .ofInt32 y]
  | mouseMove x y => [.ofInt32 x, .ofInt32 y]
  | animationFrame timestamp => [timestamp]
  | equation ptr len => [.ofWord32 ptr, .ofWord32 len]
  | fetch width height ptr len token =>
    [.ofWord32 width, .ofWord32 height, .ofWord32 ptr, .ofWord32 len, .ofWord32 token]

/-- Whether this is the entry point that may be called before the bridge runs. -/
def isInit : EntryPoint → Bool
  | init .. => true
  | _ => false

end EntryPoint

/-- An event of the page that is forwarded to the guest. -/
inductive InputEvent
  | keyDown (code : UInt32) (repeated : Bool)
  | keyUp (code : UInt32)
  | mouseDown (button x y : Int32)
  | mouseUp (button x y : Int32)
  | mouseMove (x y : Int32)
  | resize (width height : UInt32)
  deriving DecidableEq, Repr

def InputEvent.entryPoint : InputEvent → EntryPoint
  | keyDown code repeated => .keyDown code true repeated
  | keyUp code => .keyUp code false
  | mouseDown button x y => .mouseDown button x y
  | mouseUp button x y => .mouseUp button x y
  | mouseMove x y => .mouseMove x y
  | resize width height => .resize width height

/-- The name of the guest's allocator. -/
def allocatorExport : String := "_wasm_alloc"

/-- The name of the guest's memory. -/
def memoryExport : String := "memory"

end GuestBridge
