/-!
# Interludes

Steps that a guest takes during its next calls, queued by the name of the export that is called.
One call uses up the steps queued first for its name.
-/

set_option autoImplicit false

namespace GuestBridge

/-- Steps of type `S`, by export, in the order in which they were queued. -/
structure Interludes (S : Type) where
  queue : List (String × List S) := []

namespace Interludes

variable {S : Type}

def add (i : Interludes S) (name : String) (steps : List S) : Interludes S :=
  ⟨i.queue ++ [(name, steps)]⟩

/-- The steps queued first for an export, and those that are left. -/
def take (i : Interludes S) (name : String) : List S × Interludes S :=
  match i.queue.find? (·.1 = name) with
  | some (_, steps) => (steps, ⟨i.queue.eraseP (·.1 = name)⟩)
  | none => ([], i)

/-- The weight of all steps together, given the weight of a list of steps. -/
def weight (i : Interludes S) (total : List S → Nat) : Nat :=
  i.queue.foldr (total ·.2 + ·) 0

end Interludes

end GuestBridge
