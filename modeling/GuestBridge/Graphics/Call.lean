import GuestBridge.Handle.Table
import GuestBridge.Ieee.Number

/-!
# Native graphics calls

`GlCall` is a call of the native graphics context and `GlCall.Answer` the type of what it
answers. Objects carry their class in their type, so no call can be made on an object of another
class. Enumerants are passed through as they are.
-/

set_option autoImplicit false

namespace GuestBridge

open Ieee

/-- The classes of objects that are created and deleted. -/
inductive ObjectClass
  | shader
  | program
  | buffer
  | texture
  | vertexArray
  deriving DecidableEq, Repr

namespace ObjectClass

def resource : ObjectClass → ResourceClass
  | shader => .shader
  | program => .program
  | buffer => .buffer
  | texture => .texture
  | vertexArray => .vertexArray

/-- The class as it is spelled in the names of calls. -/
def callName : ObjectClass → String
  | shader => "Shader"
  | program => "Program"
  | buffer => "Buffer"
  | texture => "Texture"
  | vertexArray => "VertexArray"

end ObjectClass

/-- A native object of a class. -/
structure Native (c : ObjectClass) where
  id : Nat
  deriving DecidableEq, Repr

/-- Where a uniform variable of a program is set. -/
structure Location where
  id : Nat
  deriving DecidableEq, Repr

/-- What is asked for when an object is created. -/
inductive Blueprint
  | shader (kind : UInt32)
  | program
  | buffer
  | texture
  | vertexArray
  deriving DecidableEq, Repr

def Blueprint.objectClass : Blueprint → ObjectClass
  | shader _ => .shader
  | program => .program
  | buffer => .buffer
  | texture => .texture
  | vertexArray => .vertexArray

/-- A uniform variable that a program uses. -/
structure ActiveUniform where
  name : String
  size : Int32
  kind : UInt32
  deriving DecidableEq, Repr

/-- The parameters of an upload to a texture. -/
structure TexImage where
  target : UInt32
  level : Int32
  internalFormat : Int32
  width : Int32
  height : Int32
  border : Int32
  format : UInt32
  kind : UInt32
  deriving DecidableEq, Repr

inductive GlCall
  | create (what : Blueprint)
  | delete (c : ObjectClass) (object : Native c)
  | shaderSource (shader : Native .shader) (source : String)
  | compileShader (shader : Native .shader)
  | shaderCompiled (shader : Native .shader)
  | shaderInfoLog (shader : Native .shader)
  | attachShader (program : Native .program) (shader : Native .shader)
  | detachShader (program : Native .program) (shader : Native .shader)
  | linkProgram (program : Native .program)
  | programLinked (program : Native .program)
  | programInfoLog (program : Native .program)
  | programParameter (program : Native .program) (name : UInt32)
  | useProgram (program : Native .program)
  | attribLocation (program : Native .program) (name : String)
  | uniformLocation (program : Native .program) (name : String)
  | activeUniform (program : Native .program) (index : UInt32)
  | uniform1f (location : Option Location) (x : Single)
  | uniform1i (location : Option Location) (x : Int32)
  | uniform2fv (location : Option Location) (x y : Single)
  | uniform3fv (location : Option Location) (x y z : Single)
  | uniform4fv (location : Option Location) (x y z w : Single)
  | uniformMatrix4fv (location : Option Location) (transpose : Bool) (values : List Single)
  | bindBuffer (target : UInt32) (buffer : Native .buffer)
  | bufferData (target : UInt32) (data : List UInt8) (usage : UInt32)
  | bindTexture (target : UInt32) (texture : Native .texture)
  | texImage2D (image : TexImage) (data : Option (List UInt8))
  | texParameteri (target name : UInt32) (value : Int32)
  | activeTexture (unit : UInt32)
  | bindVertexArray (vertexArray : Native .vertexArray)
  | enableVertexAttribArray (index : UInt32)
  | vertexAttribPointer (index : UInt32) (size : Int32) (kind : UInt32) (normalized : Bool)
      (stride offset : Int32)
  | drawArrays (mode : UInt32) (first count : Int32)
  | viewport (x y width height : Int32)
  | clearColor (r g b a : Single)
  | clear (mask : UInt32)
  | enable (feature : UInt32)
  | disable (feature : UInt32)
  | depthFunc (func : UInt32)
  | blendFunc (source destination : UInt32)
  | pixelStorei (name : UInt32) (value : Int32)
  | getError
  deriving DecidableEq, Repr

/-- What a call answers; a failed upload answers its message. -/
abbrev GlCall.Answer : GlCall → Type
  | create what => Option (Native what.objectClass)
  | shaderCompiled _ | programLinked _ => Bool
  | shaderInfoLog _ | programInfoLog _ => Option String
  | programParameter _ _ => Double
  | attribLocation _ _ => Int32
  | uniformLocation _ _ => Option Location
  | activeUniform _ _ => Option ActiveUniform
  | texImage2D _ _ => Except String Unit
  | getError => UInt32
  | _ => Unit

/-- A native graphics context, as a state that answers calls. -/
class GraphicsContext (G : Type) where
  answer : (call : GlCall) → G → call.Answer × G

/-- A context whose later answers can be told in advance, by changes of type `C`. -/
class AdjustableContext (G : Type) (C : outParam Type) where
  adjust : C → G → G

end GuestBridge
