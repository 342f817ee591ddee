import GuestBridge.Capability.Basic
import GuestBridge.Page.Value

/-!
# The imports of a guest module

Each import is a capability under the name by which the guest imports it. The guest passes plain
values of the page: `Arguments` reads them as the numbers, words and flags that a capability
takes, and `Import.fallback` is what a guest is given that misuses a handle.
-/

set_option autoImplicit false

namespace GuestBridge

open Ieee

/-- The arguments of a call; those that are missing are undefined. -/
abbrev Arguments := List PageValue

namespace Arguments

def value (args : Arguments) (i : Nat) : PageValue := args.getD i .undefined

def number (args : Arguments) (i : Nat) : Double := (args.value i).toNumber

def int (args : Arguments) (i : Nat) : Int32 := (args.number i).toInt32

/-- A word is passed as the signed integer with the same bits. -/
def word (args : Arguments) (i : Nat) : UInt32 := (args.int i).toUInt32

def single (args : Arguments) (i : Nat) : Single := (args.number i).toSingle

/-- Whatever is not zero counts as true. -/
def flag (args : Arguments) (i : Nat) : Bool := !(args.number i).isZero

end Arguments

structure Import where
  name : String
  /-- What the guest is given when it passes a handle that does not resolve. -/
  fallback : PageValue
  capability : Arguments → Capability

/-- What an import answers for the result of its capability: a number, if it has one to give. -/
def Capability.Result.pageValue : Capability.Result → PageValue
  | number value => .number (.ofInt value)
  | nothing | document _ | accepted _ => .undefined

namespace Import

/-- An import that answers nothing. -/
def silent (name : String) (capability : Arguments → Capability) : Import :=
  ⟨name, .undefined, capability⟩

/-- An import that answers a number. -/
def numeric (name : String) (capability : Arguments → Capability) : Import :=
  ⟨name, .number .zero, capability⟩

/-- The imports that concern the host. -/
def hostImports : List Import := [
  silent "consoleLog" fun a => .consoleLog (a.number 0),
  silent "consoleLogS" fun a => .consoleLogText (a.word 0) (a.word 1),
  numeric "getRandomSeed" fun _ => .randomSeed,
  numeric "getRandomString" fun a => .randomString (a.word 0) (a.word 1),
  silent "debugBreak" fun _ => .debugBreak,
  silent "fetchBytes" fun a => .fetchBytes (a.word 0) (a.word 1) (a.word 2),
  silent "onEquationResultJSON" fun a => .logEquationResult (a.word 0) (a.word 1)]

/-- The imports on shaders and programs. -/
def programImports : List Import := [
  numeric "glInitShader" fun a => .initShader (a.word 0) (a.word 1) (a.word 2),
  numeric "glLinkShaderProgram" fun a => .linkProgram (a.word 0) (a.word 1),
  silent "glDeleteProgram" fun a => .delete .program (a.word 0),
  silent "glDetachShader" fun a => .detachShader (a.word 0) (a.word 1),
  silent "glDeleteShader" fun a => .delete .shader (a.word 0),
  silent "glUseProgram" fun a => .useProgram (a.word 0),
  numeric "glGetProgramParameter" fun a => .programParameter (a.word 0) (a.word 1),
  ⟨"glGetAttribLocation", .number (.ofInt (-1)),
    fun a => .attribLocation (a.word 0) (a.word 1) (a.word 2)⟩,
  numeric "glGetUniformLocation" fun a => .uniformLocation (a.word 0) (a.word 1) (a.word 2),
  silent "glGetActiveUniform" fun a =>
    .activeUniform (a.word 0) (a.word 1) (a.word 2) (a.word 3) (a.word 4) (a.word 5) (a.word 6)]

/-- The imports that set uniform variables. -/
def uniformImports : List Import := [
  silent "glUniform1f" fun a => .uniform1f (a.word 0) (a.single 1),
  silent "glUniform1i" fun a => .uniform1i (a.word 0) (a.int 1),
  silent "glUniform2fv" fun a => .uniform2fv (a.word 0) (a.single 1) (a.single 2),
  silent "glUniform3fv" fun a => .uniform3fv (a.word 0) (a.single 1) (a.single 2) (a.single 3),
  silent "glUniform4fv" fun a =>
    .uniform4fv (a.word 0) (a.single 1) (a.single 2) (a.single 3) (a.single 4),
  silent "glUniformMatrix4fv" fun a =>
    .uniformMatrix4fv (a.word 0) (a.word 1) (a.flag 2) (a.word 3)]

/-- The imports on buffers, textures and vertex arrays. -/
def objectImports : List Import := [
  numeric "glCreateBuffer" fun _ => .create .buffer,
  silent "glGenBuffers" fun a => .generate .buffer (a.word 0) (a.word 1),
  silent "glDeleteBuffer" fun a => .delete .buffer (a.word 0),
  silent "glDeleteBuffers" fun a => .deleteMany .buffer (a.word 0) (a.word 1),
  silent "glBindBuffer" fun a => .bindBuffer (a.word 0) (a.word 1),
  silent "glBufferData" fun a => .bufferData (a.word 0) (a.word 1) (a.word 2) (a.word 3),
  numeric "glCreateTexture" fun _ => .create .texture,
  silent "glGenTextures" fun a => .generate .texture (a.word 0) (a.word 1),
  silent "glDeleteTexture" fun a => .delete .texture (a.word 0),
  silent "glDeleteTextures" fun a => .deleteMany .texture (a.word 0) (a.word 1),
  silent "glBindTexture" fun a => .bindTexture (a.word 0) (a.word 1),
  silent "glTexImage2D" fun a =>
    .texImage
      ⟨a.word 0, a.int 1, a.int 2, a.int 3, a.int 4, a.int 5, a.word 6, a.word 7⟩
      (a.word 8) (a.word 9),
  numeric "glCreateVertexArray" fun _ => .create .vertexArray,
  silent "glGenVertexArrays" fun a => .generate .vertexArray (a.word 0) (a.word 1),
  silent "glDeleteVertexArray" fun a => .delete .vertexArray (a.word 0),
  silent "glDeleteVertexArrays" fun a => .deleteMany .vertexArray (a.word 0) (a.word 1),
  silent "glBindVertexArray" fun a => .bindVertexArray (a.word 0)]

/-- The imports whose calls are passed on as they are. -/
def forwardImports : List Import := [
  silent "glTexParameteri" fun a => .forward (.texParameteri (a.word 0) (a.word 1) (a.int 2)),
  silent "glActiveTexture" fun a => .forward (.activeTexture (a.word 0)),
  silent "glEnableVertexAttribArray" fun a => .forward (.enableVertexAttribArray (a.word 0)),
  silent "glVertexAttribPointer" fun a =>
    .forward (.vertexAttribPointer (a.word 0) (a.int 1) (a.word 2) (a.flag 3) (a.int 4)
      (a.int 5)),
  silent "glDrawArrays" fun a => .forward (.drawArrays (a.word 0) (a.int 1) (a.int 2)),
  silent "glViewport" fun a =>
    .forward (.viewport (a.int 0) (a.int 1) (a.int 2) (a.int 3)),
  silent "glClearColor" fun a =>
    .forward (.clearColor (a.single 0) (a.single 1) (a.single 2) (a.single 3)),
  silent "glClear" fun a => .forward (.clear (a.word 0)),
  silent "glEnable" fun a => .forward (.enable (a.word 0)),
  silent "glDisable" fun a => .forward (.disable (a.word 0)),
  silent "glDepthFunc" fun a => .forward (.depthFunc (a.word 0)),
  silent "glBlendFunc" fun a => .forward (.blendFunc (a.word 0) (a.word 1)),
  silent "glPixelStorei" fun a => .forward (.pixelStorei (a.word 0) (a.int 1)),
  numeric "glGetError" fun _ => .getError]

/-- Every import there is. -/
def all : List Import :=
  hostImports ++ programImports ++ uniformImports ++ objectImports ++ forwardImports

def find? (name : String) : Option Import := all.find? (·.name = name)

/-- The names of all imports, sorted. -/
def names : List String := (all.map (·.name)).mergeSort (· ≤ ·)

end Import

end GuestBridge
