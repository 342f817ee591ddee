import GuestBridge.Graphics.Supply
import GuestBridge.Ieee.Shortest
import GuestBridge.Text.Basic

/-!
# The numbered context

A graphics context for trials. Shaders and programs fail with a given log, objects can run out,
and an upload needs as many bytes as its size asks for. `GlCall.transcript` is the line that it
notes for a call; queries and calls that fail leave none.
-/

set_option autoImplicit false

namespace GuestBridge

open Ieee

structure NumberedContext where
  supply : ObjectSupply := {}
  vars : Variables := {}
  compileFault : Option String := none
  linkFault : Option String := none
  deriving Repr

namespace NumberedContext

/-- The bytes of an upload of the given size; the product is one of 64-bit words, into which
negative sizes wrap. -/
def expectedBytes (image : TexImage) : Nat :=
  (image.width.toInt * image.height.toInt * 4 % UInt64.size).toNat

def upload (image : TexImage) : Option (List UInt8) → Except String Unit
  | none => .ok ()
  | some data =>
    let expected := expectedBytes image
    if data.length < expected then
      let got := data.length
      .error s!"expected {expected} bytes of pixel data, got {got}"
    else .ok ()

def parameter (g : NumberedContext) (name : UInt32) : Double :=
  if name = linkStatus then .one
  else if name = activeUniformCount then .ofInt g.vars.uniforms.length
  else .zero

def answer : (call : GlCall) → NumberedContext → call.Answer × NumberedContext
  | .create _, g =>
    let (id, supply) := g.supply.take
    (id.map Native.mk, { g with supply })
  | .shaderCompiled _, g => (g.compileFault.isNone, g)
  | .programLinked _, g => (g.linkFault.isNone, g)
  | .shaderInfoLog _, g => (g.compileFault, g)
  | .programInfoLog _, g => (g.linkFault, g)
  | .programParameter _ name, g => (g.parameter name, g)
  | .attribLocation _ name, g => (g.vars.attribLocation name, g)
  | .uniformLocation _ name, g => (g.vars.uniformLocation name, g)
  | .activeUniform _ index, g => (g.vars.activeUniform index, g)
  | .texImage2D image data, g => (upload image data, g)
  | .getError, g => (0, g)
  | .delete _ _, g | .shaderSource _ _, g | .compileShader _, g | .attachShader _ _, g
  | .detachShader _ _, g | .linkProgram _, g | .useProgram _, g | .uniform1f _ _, g
  | .uniform1i _ _, g | .uniform2fv _ _ _, g | .uniform3fv _ _ _ _, g
  | .uniform4fv _ _ _ _ _, g | .uniformMatrix4fv _ _ _, g | .bindBuffer _ _, g
  | .bufferData _ _ _, g | .bindTexture _ _, g | .texParameteri _ _ _, g | .activeTexture _, g
  | .bindVertexArray _, g | .enableVertexAttribArray _, g | .vertexAttribPointer _ _ _ _ _ _, g
  | .drawArrays _ _ _, g | .viewport _ _ _ _, g | .clearColor _ _ _ _, g | .clear _, g
  | .enable _, g | .disable _, g | .depthFunc _, g | .blendFunc _ _, g | .pixelStorei _ _, g =>
    ((), g)

instance : GraphicsContext NumberedContext := ⟨answer⟩

/-- One change of how the context behaves. -/
inductive Change
  | failCompile (log : String)
  | failLink (log : String)
  | limit (remaining : Nat)
  | uniform (u : ActiveUniform)
  | attrib (name : String) (location : Int32)
  deriving Repr

def set : Change → NumberedContext → NumberedContext
  | .failCompile log, g => { g with compileFault := some log }
  | .failLink log, g => { g with linkFault := some log }
  | .limit remaining, g => { g with supply.remaining := some remaining }
  | .uniform u, g => { g with vars := g.vars.addUniform u }
  | .attrib name location, g => { g with vars := g.vars.addAttrib name location }

instance : AdjustableContext NumberedContext Change := ⟨set⟩

end NumberedContext

/-! ## Transcript -/

namespace Transcript

/-- A call with its arguments. -/
def call (name : String) (args : List String) : String :=
  name ++ "(" ++ ", ".intercalate args ++ ")"

/-- A value that may be missing. -/
def optional : Option String → String
  | some text => "Some(" ++ text ++ ")"
  | none => "None"

def location (l : Option Location) : String := optional (l.map fun l => toString l.id)

def list (items : List String) : String := "[" ++ ", ".intercalate items ++ "]"

def singles (values : List Single) : String := list (values.map (·.text .listed))

def flag (b : Bool) : String := if b then "true" else "false"

def word (n : UInt32) : String := toString n

def wordHex (n : UInt32) : String := Text.hex n.toNat

def int (i : Int32) : String := toString i.toInt

end Transcript

open Transcript in
/-- The line noted for a call, given what it answered. -/
def GlCall.transcript : (c : GlCall) → c.Answer → Option String
  | .create what, object =>
    object.map fun o => s!"create{what.objectClass.callName}() = {o.id}"
  | .delete c o, _ => some (call ("delete" ++ c.callName) [toString o.id])
  | .shaderSource s source, _ => some (call "shaderSource" [toString s.id, Text.quoted source])
  | .compileShader s, _ => some (call "compileShader" [toString s.id])
  | .attachShader p s, _ => some (call "attachShader" [toString p.id, toString s.id])
  | .detachShader p s, _ => some (call "detachShader" [toString p.id, toString s.id])
  | .linkProgram p, _ => some (call "linkProgram" [toString p.id])
  | .useProgram p, _ => some (call "useProgram" [toString p.id])
  | .uniform1f l x, _ => some (call "uniform1f" [location l, x.text .plain])
  | .uniform1i l x, _ => some (call "uniform1i" [location l, int x])
  | .uniform2fv l x y, _ => some (call "uniform2fv" [location l, singles [x, y]])
  | .uniform3fv l x y z, _ => some (call "uniform3fv" [location l, singles [x, y, z]])
  | .uniform4fv l x y z w, _ => some (call "uniform4fv" [location l, singles [x, y, z, w]])
  | .uniformMatrix4fv l t values, _ =>
    some (call "uniformMatrix4fv" [location l, flag t, singles values])
  | .bindBuffer target b, _ => some (call "bindBuffer" [wordHex target, toString b.id])
  | .bufferData target data usage, _ =>
    some (call "bufferData" [wordHex target, list (data.map toString), wordHex usage])
  | .bindTexture target t, _ => some (call "bindTexture" [wordHex target, toString t.id])
  | .texImage2D image data, uploaded =>
    match uploaded with
    | .ok () =>
      let size := int image.width ++ "x" ++ int image.height
      some (call "texImage2D" [size, optional (data.map fun d => toString d.length)])
    | .error _ => none
  | .texParameteri target name value, _ =>
    some (call "texParameteri" [wordHex target, wordHex name, wordHex value.toUInt32])
  | .activeTexture unit, _ => some (call "activeTexture" [wordHex unit])
  | .bindVertexArray v, _ => some (call "bindVertexArray" [toString v.id])
  | .enableVertexAttribArray i, _ => some (call "enableVertexAttribArray" [word i])
  | .vertexAttribPointer i size kind normalized stride offset, _ =>
    some (call "vertexAttribPointer"
      [word i, int size, wordHex kind, flag normalized, int stride, int offset])
  | .drawArrays mode first count, _ => some (call "drawArrays" [word mode, int first, int count])
  | .viewport x y w h, _ => some (call "viewport" [int x, int y, int w, int h])
  | .clearColor r g b a, _ => some (call "clearColor" ([r, g, b, a].map (·.text .plain)))
  | .clear mask, _ => some (call "clear" [wordHex mask])
  | .enable feature, _ => some (call "enable" [wordHex feature])
  | .disable feature, _ => some (call "disable" [wordHex feature])
  | .depthFunc func, _ => some (call "depthFunc" [wordHex func])
  | .blendFunc source destination, _ =>
    some (call "blendFunc" [wordHex source, wordHex destination])
  | .pixelStorei name value, _ => some (call "pixelStorei" [wordHex name, int value])
  | .shaderCompiled _, _ | .shaderInfoLog _, _ | .programLinked _, _ | .programInfoLog _, _
  | .programParameter _ _, _ | .attribLocation _ _, _ | .uniformLocation _ _, _
  | .activeUniform _ _, _ | .getError, _ => none

end GuestBridge
