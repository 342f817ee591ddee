/-!
# Handle tables

A handle is the index of a slot in the table of its class. Deleting an object empties its slot
and never frees the index, so a handle never comes to name another object than the one it was
issued for. `get_eq_ok_iff` and `delete_eq_ok_iff` say when a handle resolves.
-/

set_option autoImplicit false

namespace GuestBridge

/-- The class of host object that a handle refers to. -/
inductive ResourceClass
  | shader
  | program
  | buffer
  | texture
  | vertexArray
  | uniformLocation
  deriving DecidableEq, Repr

def ResourceClass.name : ResourceClass → String
  | shader => "shader"
  | program => "program"
  | buffer => "buffer"
  | texture => "texture"
  | vertexArray => "vertex array"
  | uniformLocation => "uniform location"

/-- Why a handle does not resolve. -/
inductive RegistryError
  /-- The handle was never issued. -/
  | outOfRange (kind : ResourceClass) (handle : UInt32)
  /-- The handle's object was deleted. -/
  | deleted (kind : ResourceClass) (handle : UInt32)
  deriving DecidableEq, Repr

def RegistryError.message : RegistryError → String
  | outOfRange kind handle =>
    let name := kind.name
    s!"{name} handle {handle} is out of range"
  | deleted kind handle =>
    let name := kind.name
    s!"{name} handle {handle} refers to a deleted object"

/-- The slots of one class, in the order in which they were issued; an empty one is `none`. -/
structure HandleTable (α : Type) where
  kind : ResourceClass
  slots : List (Option α) := []
  deriving DecidableEq, Repr

namespace HandleTable

variable {α : Type}

/-- Stores an object in a new slot and returns its handle. -/
def create (t : HandleTable α) (object : α) : UInt32 × HandleTable α :=
  (UInt32.ofNat t.slots.length, { t with slots := t.slots ++ [some object] })

/-- Stores every object in order and returns their handles in the same order. -/
def createMany (t : HandleTable α) : List α → List UInt32 × HandleTable α
  | [] => ([], t)
  | object :: rest =>
    let (handle, t) := t.create object
    let (handles, t) := t.createMany rest
    (handle :: handles, t)

def get (t : HandleTable α) (handle : UInt32) : Except RegistryError α :=
  match t.slots[handle.toNat]? with
  | some (some object) => .ok object
  | some none => .error (.deleted t.kind handle)
  | none => .error (.outOfRange t.kind handle)

/-- Empties the slot of a handle and hands back the object it held. -/
def delete (t : HandleTable α) (handle : UInt32) : Except RegistryError (α × HandleTable α) := do
  let object ← t.get handle
  return (object, { t with slots := t.slots.set handle.toNat none })

/-- The number of handles ever issued. -/
def len (t : HandleTable α) : Nat := t.slots.length

def isEmpty (t : HandleTable α) : Bool := t.slots.isEmpty

/-- The number of slots that hold an object. -/
def live (t : HandleTable α) : Nat := t.slots.countP Option.isSome

theorem get_eq_ok_iff {t : HandleTable α} {h : UInt32} {x : α} :
    t.get h = .ok x ↔ t.slots[h.toNat]? = some (some x) := by
  unfold get
  split <;> simp_all

theorem delete_eq_ok_iff {t t' : HandleTable α} {h : UInt32} {x : α} :
    t.delete h = .ok (x, t') ↔
      t.get h = .ok x ∧ t' = { t with slots := t.slots.set h.toNat none } := by
  unfold delete
  cases hg : t.get h with
  | error e => simp [bind, Except.bind]
  | ok y => simp [bind, Except.bind, pure, Except.pure, eq_comm]

end HandleTable

end GuestBridge
