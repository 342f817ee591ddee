import GuestBridge.Graphics.Call

/-!
# The registry

One handle table per class of objects, and one for the locations of uniform variables. A
location slot may hold no location, as a name that the program does not use has none; its handle
is valid all the same.
-/

set_option autoImplicit false

namespace GuestBridge

structure Registry where
  shaders : HandleTable (Native .shader) := ⟨.shader, []⟩
  programs : HandleTable (Native .program) := ⟨.program, []⟩
  buffers : HandleTable (Native .buffer) := ⟨.buffer, []⟩
  textures : HandleTable (Native .texture) := ⟨.texture, []⟩
  vertexArrays : HandleTable (Native .vertexArray) := ⟨.vertexArray, []⟩
  locations : HandleTable (Option Location) := ⟨.uniformLocation, []⟩
  deriving DecidableEq, Repr

namespace Registry

/-- The table of a class of objects. -/
def table (r : Registry) : (c : ObjectClass) → HandleTable (Native c)
  | .shader => r.shaders
  | .program => r.programs
  | .buffer => r.buffers
  | .texture => r.textures
  | .vertexArray => r.vertexArrays

/-- Replaces the table of a class. -/
def withTable (r : Registry) : (c : ObjectClass) → HandleTable (Native c) → Registry
  | .shader, t => { r with shaders := t }
  | .program, t => { r with programs := t }
  | .buffer, t => { r with buffers := t }
  | .texture, t => { r with textures := t }
  | .vertexArray, t => { r with vertexArrays := t }

@[simp] theorem table_withTable (r : Registry) (c : ObjectClass) (t : HandleTable (Native c)) :
    (r.withTable c t).table c = t := by cases c <;> rfl

theorem table_withTable_of_ne (r : Registry) {c d : ObjectClass} (t : HandleTable (Native c))
    (h : d ≠ c) : (r.withTable c t).table d = r.table d := by
  cases c <;> cases d <;> first | rfl | exact absurd rfl h

@[simp] theorem locations_withTable (r : Registry) (c : ObjectClass)
    (t : HandleTable (Native c)) : (r.withTable c t).locations = r.locations := by
  cases c <;> rfl

end Registry

end GuestBridge
