import GuestBridge.Page.Value
import GuestBridge.Graphics.Supply

/-!
# The scripted context

The graphics context of a page. Its queries answer values of the page: a status counts only if it is
the flag true, and a parameter is read as a number. A script decides what they are, when objects
run out and what an upload throws.
-/

set_option autoImplicit false

namespace GuestBridge

structure ScriptedContext where
  supply : ObjectSupply := {}
  vars : Variables := {}
  /-- Set when shaders do not compile, to their log. -/
  compileFault : Option (Option String) := none
  /-- Set when programs do not link, to their log. -/
  linkFault : Option (Option String) := none
  /-- Answers that take the place of the usual ones. -/
  parameters : List (UInt32 × PageValue) := []
  /-- What an upload to a texture throws. -/
  uploadFault : Option PageValue := none
  errorCode : UInt32 := 0
  deriving Repr

namespace ScriptedContext

/-- What a query of a parameter answers. -/
def parameter (g : ScriptedContext) (name : UInt32) : PageValue :=
  match g.parameters.lookup name with
  | some value => value
  | none =>
    if name = compileStatus then .bool g.compileFault.isNone
    else if name = linkStatus then .bool g.linkFault.isNone
    else .null

def answer : (call : GlCall) → ScriptedContext → call.Answer × ScriptedContext
  | .create _, g =>
    let (id, supply) := g.supply.take
    (id.map Native.mk, { g with supply })
  | .shaderCompiled _, g => ((g.parameter compileStatus).isTrue, g)
  | .programLinked _, g => ((g.parameter linkStatus).isTrue, g)
  | .shaderInfoLog _, g => (g.compileFault.getD none, g)
  | .programInfoLog _, g => (g.linkFault.getD none, g)
  | .programParameter _ name, g => ((g.parameter name).toNumber, g)
  | .attribLocation _ name, g => (g.vars.attribLocation name, g)
  | .uniformLocation _ name, g => (g.vars.uniformLocation name, g)
  | .activeUniform _ index, g => (g.vars.activeUniform index, g)
  | .texImage2D _ _, g =>
    (match g.uploadFault with
      | some thrown => .error thrown.message
      | none => .ok (), g)
  | .getError, g => (g.errorCode, g)
  | .delete _ _, g | .shaderSource _ _, g | .compileShader _, g | .attachShader _ _, g
  | .detachShader _ _, g | .linkProgram _, g | .useProgram _, g | .uniform1f _ _, g
  | .uniform1i _ _, g | .uniform2fv _ _ _, g | .uniform3fv _ _ _ _, g
  | .uniform4fv _ _ _ _ _, g | .uniformMatrix4fv _ _ _, g | .bindBuffer _ _, g
  | .bufferData _ _ _, g | .bindTexture _ _, g | .texParameteri _ _ _, g | .activeTexture _, g
  | .bindVertexArray _, g | .enableVertexAttribArray _, g | .vertexAttribPointer _ _ _ _ _ _, g
  | .drawArrays _ _ _, g | .viewport _ _ _ _, g | .clearColor _ _ _ _, g | .clear _, g
  | .enable _, g | .disable _, g | .depthFunc _, g | .blendFunc _ _, g | .pixelStorei _ _, g =>
    ((), g)

instance : GraphicsContext ScriptedContext := ⟨answer⟩

/-- One change of the script. -/
inductive Change
  | limit (remaining : Option Nat)
  | compile (fault : Option (Option String))
  | link (fault : Option (Option String))
  | uniform (u : ActiveUniform)
  | attrib (name : String) (location : Int32)
  | parameter (name : UInt32) (value : PageValue)
  | upload (fault : Option PageValue)
  | errorCode (code : UInt32)
  deriving Repr

def set : Change → ScriptedContext → ScriptedContext
  | .limit remaining, g => { g with supply.remaining := remaining }
  | .compile fault, g => { g with compileFault := fault }
  | .link fault, g => { g with linkFault := fault }
  | .uniform u, g => { g with vars := g.vars.addUniform u }
  | .attrib name location, g => { g with vars := g.vars.addAttrib name location }
  | .parameter name value, g => { g with parameters := (name, value) :: g.parameters }
  | .upload fault, g => { g with uploadFault := fault }
  | .errorCode code, g => { g with errorCode := code }

instance : AdjustableContext ScriptedContext Change := ⟨set⟩

end ScriptedContext

end GuestBridge
