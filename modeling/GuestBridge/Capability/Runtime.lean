import GuestBridge.Core.Access
import GuestBridge.Json.Reader

/-!
# Logging, randomness and fetches

The capabilities that concern the host rather than the native context. A fetch is only accepted
here; the load that it waits for is the platform's to start.
-/

set_option autoImplicit false

namespace GuestBridge.Core

open Ieee

variable {G : Type}

def consoleLog (value : Double) : Action (Core G) Unit :=
  say .info Log.Target.guest ("consoleLog " ++ value.text .plain)

def consoleLogText (ptr len : UInt32) : Action (Core G) Unit := do
  say .info Log.Target.guest (← readString ptr len)

/-- Reads a document that the guest has made of an equation, and logs it. -/
def logEquationResult (ptr len : UInt32) : Action (Core G) Json.Value := do
  match Json.Value.read (← readString ptr len) with
  | .ok value =>
    say .info Log.Target.guest ("onEquationResult " ++ value.print)
    return value
  | .error fault => .fail (.json fault)

/-! ## Randomness -/

/-- One past the greatest seed. -/
def seedRange : Double := .ofInt Int32.maxValue.toInt

def randomSeed : Action (Core G) Int32 := do
  let x ← Attempt.state Core.draw
  return (x.mul seedRange).floorInt32

/-- The most digits of a random string. -/
def randomStringLen : Nat := 20

/-- The byte of a digit in base 36; there is none past `z`. -/
def base36 (digit : Nat) : UInt8 :=
  let digit := min digit 35
  if digit < 10 then '0'.toUInt8 + UInt8.ofNat digit else 'a'.toUInt8 + UInt8.ofNat (digit - 10)

/-- The digit that a number drawn from `[0, 1)` stands for. -/
def digitOf (x : Double) : UInt8 := base36 (x.mul (.ofInt 36)).toIndex

/-- Draws so many digits. -/
def drawDigits : Nat → Core G → List UInt8 × Core G
  | 0, c => ([], c)
  | n + 1, c =>
    let (x, c) := c.draw
    let (rest, c) := drawDigits n c
    (digitOf x :: rest, c)

/-- Fills up to `capacity` bytes with random digits and answers how many. -/
def randomString (ptr capacity : UInt32) : Action (Core G) Nat := do
  let n := min randomStringLen capacity.toNat
  let digits ← Attempt.state (drawDigits n)
  store [.bytes ptr digits]
  return n

/-- Pauses in the debugger; that this fails is only logged. -/
def debugBreak : Action (Core G) Unit := .modify fun c =>
  let c := c.note .debugBreak
  match c.host.breakFault with
  | some thrown => c.log .warn Log.Target.host ("debugBreak failed: " ++ thrown.message)
  | none => c

/-! ## Fetches -/

/-- Accepts a fetch of the image at the address given by a text in memory. Anything else is
refused, and nothing is fetched. -/
def acceptFetch (urlPtr urlLen token : UInt32) : Action (Core G) Accepted := do
  let url ← readString urlPtr urlLen
  if isImageUrl url then
    say .debug Log.Target.fetch s!"fetching `{url}` for token {token}"
    .state fun c =>
      let (accepted, bridge) := c.bridge.accept ⟨token, url, false⟩
      (accepted, { c with bridge })
  else .fail (.unimplemented url)

end GuestBridge.Core
