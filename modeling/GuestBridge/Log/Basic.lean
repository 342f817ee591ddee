/-!
# Log records and the console

A record has a level, the target it comes from and a text. The console shows the records up to a
given level, one line each, by the method of its level.
-/

set_option autoImplicit false

namespace GuestBridge.Log

inductive Level
  | error
  | warn
  | info
  | debug
  | trace
  deriving DecidableEq, Repr

/-- Which levels are shown: none, or those down to the given one. -/
abbrev Filter := Option Level

/-- More severe levels come first. -/
def Level.rank : Level → Nat
  | error => 1
  | warn => 2
  | info => 3
  | debug => 4
  | trace => 5

/-- The console method of a level; the two lowest share one. -/
def Level.method : Level → String
  | error => "error"
  | warn => "warn"
  | info => "info"
  | debug | trace => "debug"

def Filter.name : Filter → String
  | none => "OFF"
  | some .error => "ERROR"
  | some .warn => "WARN"
  | some .info => "INFO"
  | some .debug => "DEBUG"
  | some .trace => "TRACE"

def Filter.allows (filter : Filter) (level : Level) : Bool :=
  match filter with
  | none => false
  | some most => level.rank ≤ most.rank

structure Record where
  level : Level
  target : String
  text : String
  deriving DecidableEq, Repr

/-- The line of a record on the console. -/
def Record.line (r : Record) : String := "[" ++ r.target ++ "] " ++ r.text

/-- What the console is asked to do for a record: a method and its argument. -/
def Record.console (r : Record) (filter : Filter) : Option (String × String) :=
  if filter.allows r.level then some (r.level.method, r.line) else none

/-! ## Targets -/

namespace Target

/-- Messages of the guest itself. -/
def guest : String := "guest"

def bridge : String := "wasm_gl_bridge::bridge"

def fetch : String := "wasm_gl_bridge::fetch"

def imports : String := "wasm_gl_bridge::runtime::imports"

def startup : String := "wasm_gl_bridge::runtime::startup"

def input : String := "wasm_gl_bridge::runtime::input"

def animation : String := "wasm_gl_bridge::runtime::animation_loop"

def host : String := "wasm_gl_bridge::runtime::host"

end Target

end GuestBridge.Log
