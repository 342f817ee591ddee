import GuestBridge.Ieee.Shortest

/-!
# Values of the page

The values that pass between the bridge and the page's scripts: whatever an import is called
with, an export throws or a query answers. An `Outcome` is a value or a thrown one.
-/

set_option autoImplicit false

namespace GuestBridge

inductive PageValue
  | undefined
  | null
  | bool (value : Bool)
  | number (value : Ieee.Double)
  | text (value : String)
  /-- An object, of which only the class can be seen. -/
  | object (kind : String)
  deriving DecidableEq, Repr

namespace PageValue

/-- The value as it is shown inside a message. A text stands between quotes just as it is. -/
def shown : PageValue → String
  | undefined => "JsValue(undefined)"
  | null => "JsValue(null)"
  | bool value => "JsValue(" ++ (if value then "true" else "false") ++ ")"
  | number value => "JsValue(" ++ value.text .plain ++ ")"
  | text value => "JsValue(\"" ++ value ++ "\")"
  | object kind => "JsValue(" ++ kind ++ ")"

/-- The message of a thrown value: a text as it is, anything else as it is shown. -/
def message : PageValue → String
  | text value => value
  | other => other.shown

def isTrue : PageValue → Bool
  | bool true => true
  | _ => false

/-- The number itself, if it is one. -/
def number? : PageValue → Option Ieee.Double
  | number value => some value
  | _ => none

/-- Flags count as 0 and 1, and everything else that is no number as 0. -/
def toNumber : PageValue → Ieee.Double
  | bool value => .ofBool value
  | number value => value
  | _ => .zero

end PageValue

/-- What a call into the page's scripts comes to. -/
inductive Outcome
  | value (v : PageValue)
  | thrown (v : PageValue)
  deriving DecidableEq, Repr

end GuestBridge
