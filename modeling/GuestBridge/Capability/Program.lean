import GuestBridge.Core.Access

/-!
# Shaders, programs and uniform variables

A shader that does not compile and a program that does not link are deleted again and get no
handle; the error carries the native log. What the guest passes in memory is read before any
handle is looked up.
-/

set_option autoImplicit false

namespace GuestBridge.Core

open Ieee

variable {G : Type} [GraphicsContext G]

/-- The object that a native creation has answered. -/
def created {c : ObjectClass} (call : String) : Option (Native c) → Action (Core G) (Native c)
  | some o => pure o
  | none => .fail (.native call "returned null")

/-- The name of the call that creates an object of a class. -/
def createCall (c : ObjectClass) : String := "create" ++ c.callName

/-- Compiles a shader from the source in memory. -/
def initShader (sourcePtr sourceLen kind : UInt32) : Action (Core G) UInt32 := do
  let source ← readString sourcePtr sourceLen
  let shader ← created (createCall .shader) (← native (.create (.shader kind)))
  native (.shaderSource shader source)
  native (.compileShader shader)
  if ← native (.shaderCompiled shader) then register .shader shader
  else
    let info ← native (.shaderInfoLog shader)
    native (.delete .shader shader)
    .fail (.shaderCompilation (info.getD ""))

def linkProgram (vertexShader fragmentShader : UInt32) : Action (Core G) UInt32 := do
  let vertex ← object .shader vertexShader
  let fragment ← object .shader fragmentShader
  let program ← created (createCall .program) (← native (.create .program))
  native (.attachShader program vertex)
  native (.attachShader program fragment)
  native (.linkProgram program)
  if ← native (.programLinked program) then register .program program
  else
    let info ← native (.programInfoLog program)
    native (.delete .program program)
    .fail (.shaderLinking (info.getD ""))

def detachShader (program shader : UInt32) : Action (Core G) Unit := do
  let program ← object .program program
  let shader ← object .shader shader
  native (.detachShader program shader)

def useProgram (program : UInt32) : Action (Core G) Unit := do
  native (.useProgram (← object .program program))

def programParameter (program name : UInt32) : Action (Core G) Int32 := do
  let value ← native (.programParameter (← object .program program) name)
  return value.toInt32

/-- The native location of an attribute; -1 if the program has none of the name. -/
def attribLocation (program namePtr nameLen : UInt32) : Action (Core G) Int32 := do
  let name ← readString namePtr nameLen
  native (.attribLocation (← object .program program) name)

/-- Looks a uniform variable up and gives its location a new handle, even if it has none. -/
def uniformLocation (program namePtr nameLen : UInt32) : Action (Core G) UInt32 := do
  let name ← readString namePtr nameLen
  registerLocation (← native (.uniformLocation (← object .program program) name))

/-- Stores the description of a program's active uniform variable: its name, cut to
`nameCapacity` bytes, how many bytes that is, its array size and its type. All of it is written
or nothing. -/
def activeUniform (program index nameCapacity lengthPtr sizePtr typePtr namePtr : UInt32) :
    Action (Core G) Unit := do
  match ← native (.activeUniform (← object .program program) index) with
  | none => .fail (.native "getActiveUniform" s!"no active uniform {index}")
  | some info =>
    let name := (Text.utf8 info.name).take nameCapacity.toNat
    let memory ← guestMemory
    let _ ← Action.liftMemory (memory.check (View.bytes namePtr nameCapacity))
    store
      [.word lengthPtr (UInt32.ofNat name.length), .word sizePtr info.size.toUInt32,
        .int typePtr info.kind.toInt32, .bytes namePtr name]

/-! ## Uniform variables -/

def uniform1f (l : UInt32) (x : Single) : Action (Core G) Unit := do
  native (.uniform1f (← location l) x)

def uniform1i (l : UInt32) (x : Int32) : Action (Core G) Unit := do
  native (.uniform1i (← location l) x)

def uniform2fv (l : UInt32) (x y : Single) : Action (Core G) Unit := do
  native (.uniform2fv (← location l) x y)

def uniform3fv (l : UInt32) (x y z : Single) : Action (Core G) Unit := do
  native (.uniform3fv (← location l) x y z)

def uniform4fv (l : UInt32) (x y z w : Single) : Action (Core G) Unit := do
  native (.uniform4fv (← location l) x y z w)

/-- Sets `count` matrices of sixteen numbers each, read from memory. -/
def uniformMatrix4fv (l count : UInt32) (transpose : Bool) (dataPtr : UInt32) :
    Action (Core G) Unit := do
  if count.toNat * 16 < UInt32.size then
    let memory ← guestMemory
    let values ← Action.liftMemory (memory.readSingles dataPtr (count * 16))
    native (.uniformMatrix4fv (← location l) transpose values)
  else .fail (.memory (.tooLarge count.toNat))

end GuestBridge.Core
