import GuestBridge.Page.Options

/-!
# What is done to the page

One event for each thing that the bridge does to the page or asks of it.
-/

set_option autoImplicit false

namespace GuestBridge

inductive PageEvent
  /-- A canvas was resized. -/
  | width (id : String) (value : UInt32)
  | height (id : String) (value : UInt32)
  | contextAttributes (options : ContextOptions)
  | getContext (id kind : String)
  | fetch (url : String)
  | instantiate (module : List UInt8)
  | addEventListener (target kind : String)
  | removeEventListener (target kind : String)
  | requestAnimationFrame (id : Nat)
  | cancelAnimationFrame (id : Nat)
  | createElement (kind : String)
  | crossOrigin (value : String)
  /-- A handler of an image was set, or removed. -/
  | onload (present : Bool)
  | onerror (present : Bool)
  | src (url : String)
  | drawImage (url : String) (x y : Nat)
  | getImageData (x y width height : UInt32)
  /-- A frame callback was called whose loop no longer exists. -/
  | uncaught
  deriving DecidableEq, Repr

end GuestBridge
