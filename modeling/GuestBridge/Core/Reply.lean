import GuestBridge.Page.Value
import GuestBridge.Fetch.Image
import GuestBridge.Handle.Registry

/-!
# Replies

What the operations of a session answer: a value, an error, a thrown value, or that there is
nothing to operate on.
-/

set_option autoImplicit false

namespace GuestBridge

/-- Whether the guest has returned from its init entry point. -/
inductive Phase
  | idle
  | running
  deriving DecidableEq, Repr

/-- How a copy into the guest went. -/
inductive CopyResult
  /-- The bytes are in an allocation of `len` bytes at `ptr`. -/
  | copied (ptr len : UInt32)
  /-- There were none, and nothing was allocated. -/
  | empty
  deriving DecidableEq, Repr

/-- The region a copy went to. -/
def CopyResult.region : CopyResult → Option (UInt32 × UInt32)
  | copied ptr len => some (ptr, len)
  | empty => none

def CopyResult.success (r : CopyResult) : Bool := r.region.isSome

inductive Value
  | nothing
  | bool (value : Bool)
  | int (value : Int)
  | text (value : String)
  | bytes (value : List UInt8)
  | copy (result : CopyResult)
  /-- A region of guest memory. -/
  | region (ptr len : UInt32)
  | request (request : FetchRequest)
  | registry (registry : Registry)
  | phase (phase : Phase)
  | json (document : Json.Value)
  | page (value : PageValue)
  | names (names : Option (List String))
  deriving Repr

inductive Reply
  | ok (value : Value)
  | error (e : StartupError)
  | thrown (value : PageValue)
  /-- The bridge was dropped before. -/
  | bridgeDropped
  /-- No running bridge is held. -/
  | noHandle
  deriving Repr

/-- The reply of an operation of the bridge. -/
def Reply.ofExcept {α : Type} (value : α → Value) : Except BridgeError α → Reply
  | .ok a => .ok (value a)
  | .error e => .error (.bridge e)

end GuestBridge
