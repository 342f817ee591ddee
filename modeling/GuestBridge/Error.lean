import GuestBridge.Handle.Table
import GuestBridge.Json.Value
import GuestBridge.Memory.View

/-!
# Errors of the bridge

Each kind of failure with the text that is shown for it. `BridgeError.isFatal` singles out the
misuse of handles, which the guest is told as a value instead of being stopped.
-/

set_option autoImplicit false

namespace GuestBridge

/-- A call into the guest module failed. -/
inductive GuestError
  | missingExport (name : String)
  | trap (name message : String)
  /-- The allocator answered something that is no pointer, shown here. -/
  | badAllocation (shown : String)
  deriving DecidableEq, Repr

def GuestError.message : GuestError → String
  | missingExport name => s!"guest module does not export `{name}`"
  | trap name message => s!"guest call `{name}` failed: {message}"
  | badAllocation shown => s!"guest allocator returned an invalid pointer: {shown}"

/-- A resource could not be fetched. -/
inductive FetchError
  | load (url reason : String)
  | decode (url reason : String)
  deriving DecidableEq, Repr

def FetchError.message : FetchError → String
  | load url reason => s!"failed to load image `{url}`: {reason}"
  | decode url reason => s!"failed to decode image `{url}`: {reason}"

/-- An operation of the bridge failed. -/
inductive BridgeError
  | memory (e : MemoryError)
  | registry (e : RegistryError)
  | guest (e : GuestError)
  | shaderCompilation (info : String)
  | shaderLinking (info : String)
  | native (call message : String)
  | unimplemented (url : String)
  | json (fault : Json.Fault)
  | noGuest
  | guestAlreadyAttached
  | notRunning
  | alreadyRunning
  deriving DecidableEq, Repr

namespace BridgeError

/-- The text of an error; what is wrong with a malformed document is not spelled out. -/
def message : BridgeError → String
  | memory e => e.message
  | registry e => e.message
  | guest e => e.message
  | shaderCompilation info => s!"error compiling shader: {info}"
  | shaderLinking info => s!"error linking program: {info}"
  | native call message => s!"native graphics call `{call}` failed: {message}"
  | unimplemented url => s!"fetching `{url}` is not implemented"
  | json _ => "malformed equation result: "
  | noGuest => "no guest module is attached to the bridge"
  | guestAlreadyAttached => "a guest module is already attached to the bridge"
  | notRunning => "the bridge is not running"
  | alreadyRunning => "the bridge is already running"

/-- All errors abort the call that met them, but for the misuse of a handle. -/
def isFatal : BridgeError → Bool
  | registry _ => false
  | _ => true

end BridgeError

/-- The bridge could not be brought up. -/
inductive StartupError
  | noWindow
  | missingElement (id : String)
  | notACanvas (id : String)
  | context (reason : String)
  | instantiate (url reason : String)
  | bridge (e : BridgeError)
  deriving DecidableEq, Repr

def StartupError.message : StartupError → String
  | noWindow => "no window is available"
  | missingElement id => s!"no element with id `{id}`"
  | notACanvas id => s!"element `{id}` is not a canvas"
  | context reason => s!"could not create a WebGL2 context: {reason}"
  | instantiate url reason => s!"could not instantiate guest module `{url}`: {reason}"
  | bridge e => e.message

end GuestBridge
