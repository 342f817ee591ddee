import GuestBridge.Fetch.Image
import GuestBridge.Guest.Entry
import GuestBridge.Graphics.Call
import GuestBridge.Json.Value

/-!
# Capabilities

The calls that a guest can make on its host, as data: `Capability` has one case per import, with
its arguments decoded. Pointers, lengths and handles are words.
-/

set_option autoImplicit false

namespace GuestBridge

open Ieee

/-- The classes whose objects are created without further ado, singly or many at once. -/
inductive BulkClass
  | buffer
  | texture
  | vertexArray
  deriving DecidableEq, Repr

def BulkClass.blueprint : BulkClass → Blueprint
  | buffer => .buffer
  | texture => .texture
  | vertexArray => .vertexArray

abbrev BulkClass.objectClass (b : BulkClass) : ObjectClass := b.blueprint.objectClass

/-- The calls that go to the native context as they are. -/
inductive Passthrough
  | texParameteri (target name : UInt32) (value : Int32)
  | activeTexture (unit : UInt32)
  | enableVertexAttribArray (index : UInt32)
  | vertexAttribPointer (index : UInt32) (size : Int32) (kind : UInt32) (normalized : Bool)
      (stride offset : Int32)
  | drawArrays (mode : UInt32) (first count : Int32)
  | viewport (x y width height : Int32)
  | clearColor (r g b a : Single)
  | clear (mask : UInt32)
  | enable (feature : UInt32)
  | disable (feature : UInt32)
  | depthFunc (func : UInt32)
  | blendFunc (source destination : UInt32)
  | pixelStorei (name : UInt32) (value : Int32)
  deriving DecidableEq, Repr

def Passthrough.call : Passthrough → GlCall
  | texParameteri target name value => .texParameteri target name value
  | activeTexture unit => .activeTexture unit
  | enableVertexAttribArray index => .enableVertexAttribArray index
  | vertexAttribPointer index size kind normalized stride offset =>
    .vertexAttribPointer index size kind normalized stride offset
  | drawArrays mode first count => .drawArrays mode first count
  | viewport x y width height => .viewport x y width height
  | clearColor r g b a => .clearColor r g b a
  | clear mask => .clear mask
  | enable feature => .enable feature
  | disable feature => .disable feature
  | depthFunc func => .depthFunc func
  | blendFunc source destination => .blendFunc source destination
  | pixelStorei name value => .pixelStorei name value

inductive Capability
  | consoleLog (value : Double)
  | consoleLogText (ptr len : UInt32)
  | randomSeed
  | randomString (ptr capacity : UInt32)
  | debugBreak
  | logEquationResult (ptr len : UInt32)
  | fetchBytes (urlPtr urlLen token : UInt32)
  | initShader (sourcePtr sourceLen kind : UInt32)
  | linkProgram (vertexShader fragmentShader : UInt32)
  | detachShader (program shader : UInt32)
  | useProgram (program : UInt32)
  | programParameter (program name : UInt32)
  | attribLocation (program namePtr nameLen : UInt32)
  | uniformLocation (program namePtr nameLen : UInt32)
  | activeUniform (program index nameCapacity lengthPtr sizePtr typePtr namePtr : UInt32)
  | uniform1f (location : UInt32) (x : Single)
  | uniform1i (location : UInt32) (x : Int32)
  | uniform2fv (location : UInt32) (x y : Single)
  | uniform3fv (location : UInt32) (x y z : Single)
  | uniform4fv (location : UInt32) (x y z w : Single)
  | uniformMatrix4fv (location count : UInt32) (transpose : Bool) (dataPtr : UInt32)
  | create (c : BulkClass)
  | generate (c : BulkClass) (count outPtr : UInt32)
  | delete (c : ObjectClass) (handle : UInt32)
  | deleteMany (c : BulkClass) (count ptr : UInt32)
  | bindBuffer (target buffer : UInt32)
  | bindTexture (target texture : UInt32)
  | bindVertexArray (vertexArray : UInt32)
  | bufferData (target count dataPtr usage : UInt32)
  | texImage (image : TexImage) (dataPtr dataLen : UInt32)
  | forward (call : Passthrough)
  | getError
  deriving DecidableEq, Repr

/-- What a capability hands back. -/
inductive Capability.Result
  | nothing
  | number (value : Int)
  | document (value : Json.Value)
  | accepted (fetch : Accepted)
  deriving Repr

end GuestBridge
