import GuestBridge.Graphics.Call

/-!
# Supplies of native objects

Both contexts hand out objects from one numbered supply, whatever their class, and know their
uniform variables and attributes by name.
-/

set_option autoImplicit false

namespace GuestBridge

/-- Objects are numbered in the order of their creation; `remaining` bounds how many more there
are. -/
structure ObjectSupply where
  next : Nat := 100
  remaining : Option Nat := none
  deriving DecidableEq, Repr

/-- The next object's number, unless the supply has run out. -/
def ObjectSupply.take (s : ObjectSupply) : Option Nat × ObjectSupply :=
  match s.remaining with
  | none => (some s.next, { s with next := s.next + 1 })
  | some 0 => (none, s)
  | some (n + 1) => (some s.next, { next := s.next + 1, remaining := some n })

/-- The variables that every program of a context has. -/
structure Variables where
  uniforms : List ActiveUniform := []
  attribs : List (String × Int32) := []
  deriving DecidableEq, Repr

namespace Variables

/-- The location of the first uniform variable of a name. -/
def uniformLocation (v : Variables) (name : String) : Option Location :=
  (v.uniforms.findIdx? (·.name = name)).map fun i => ⟨500 + i⟩

/-- The location of an attribute; -1 if there is none of the name. -/
def attribLocation (v : Variables) (name : String) : Int32 := (v.attribs.lookup name).getD (-1)

def activeUniform (v : Variables) (index : UInt32) : Option ActiveUniform :=
  v.uniforms[index.toNat]?

def addUniform (v : Variables) (u : ActiveUniform) : Variables :=
  { v with uniforms := v.uniforms ++ [u] }

/-- A later location of the same name counts. -/
def addAttrib (v : Variables) (name : String) (location : Int32) : Variables :=
  { v with attribs := (name, location) :: v.attribs }

end Variables

/-- The parameter that tells whether a shader has compiled. -/
def compileStatus : UInt32 := 0x8b81

/-- The parameter that tells whether a program has been linked. -/
def linkStatus : UInt32 := 0x8b82

/-- The parameter that counts a program's active uniform variables. -/
def activeUniformCount : UInt32 := 0x8b86

end GuestBridge
