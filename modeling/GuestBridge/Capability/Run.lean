import GuestBridge.Capability.Object
import GuestBridge.Capability.Runtime

/-!
# Running a capability

`Capability.run` is what each capability does to the core. None of them enters the guest.
-/

set_option autoImplicit false

namespace GuestBridge.Capability

open GuestBridge.Core

variable {G : Type} [GraphicsContext G]

/-- An action that hands back nothing. -/
def silent (x : Action (Core G) Unit) : Action (Core G) Result := do
  x
  return .nothing

/-- An action that hands back a handle or another word. -/
def word (x : Action (Core G) UInt32) : Action (Core G) Result := do
  return .number (← x).toNat

/-- An action that hands back a signed number. -/
def int (x : Action (Core G) Int32) : Action (Core G) Result := do
  return .number (← x).toInt

/-- An action that hands back a count. -/
def count (x : Action (Core G) Nat) : Action (Core G) Result := do
  return .number (← x)

def run : Capability → Action (Core G) Result
  | consoleLog value => silent (Core.consoleLog value)
  | consoleLogText ptr len => silent (Core.consoleLogText ptr len)
  | randomSeed => int Core.randomSeed
  | randomString ptr capacity => count (Core.randomString ptr capacity)
  | debugBreak => silent Core.debugBreak
  | logEquationResult ptr len => do return .document (← Core.logEquationResult ptr len)
  | fetchBytes urlPtr urlLen token => do
    return .accepted (← Core.acceptFetch urlPtr urlLen token)
  | initShader sourcePtr sourceLen kind => word (Core.initShader sourcePtr sourceLen kind)
  | linkProgram vertex fragment => word (Core.linkProgram vertex fragment)
  | detachShader program shader => silent (Core.detachShader program shader)
  | useProgram program => silent (Core.useProgram program)
  | programParameter program name => int (Core.programParameter program name)
  | attribLocation program ptr len => int (Core.attribLocation program ptr len)
  | uniformLocation program ptr len => word (Core.uniformLocation program ptr len)
  | activeUniform program index capacity lengthPtr sizePtr typePtr namePtr =>
    silent (Core.activeUniform program index capacity lengthPtr sizePtr typePtr namePtr)
  | uniform1f location x => silent (Core.uniform1f location x)
  | uniform1i location x => silent (Core.uniform1i location x)
  | uniform2fv location x y => silent (Core.uniform2fv location x y)
  | uniform3fv location x y z => silent (Core.uniform3fv location x y z)
  | uniform4fv location x y z w => silent (Core.uniform4fv location x y z w)
  | uniformMatrix4fv location count transpose ptr =>
    silent (Core.uniformMatrix4fv location count transpose ptr)
  | create c => word (Core.createObject c)
  | generate c count outPtr => silent (Core.generate c count outPtr)
  | delete c handle => silent (Core.deleteObject c handle)
  | deleteMany c count ptr => silent (Core.deleteMany c count ptr)
  | bindBuffer target buffer => silent (Core.bindBuffer target buffer)
  | bindTexture target texture => silent (Core.bindTexture target texture)
  | bindVertexArray vertexArray => silent (Core.bindVertexArray vertexArray)
  | bufferData target count ptr usage => silent (Core.bufferData target count ptr usage)
  | texImage image ptr len => silent (Core.texImage image ptr len)
  | forward call => silent (Core.forward call)
  | getError => word (native .getError)

end GuestBridge.Capability
