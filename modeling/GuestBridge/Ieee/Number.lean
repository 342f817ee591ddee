import GuestBridge.Ieee.Format

/-!
# Double and single precision numbers

`Double` and `Single` are words of the two formats, so a number is its bit pattern and equality
tells every two patterns apart. The operations are the ones the bridge performs on numbers:
comparison, conversion to and from integers, narrowing, multiplication and division.
-/

set_option autoImplicit false

namespace GuestBridge.Ieee

/-- A number of the 64-bit format. -/
structure Double where
  bits : UInt64
  deriving DecidableEq, Repr

/-- A number of the 32-bit format. -/
structure Single where
  bits : UInt32
  deriving DecidableEq, Repr

namespace Double

def datum (x : Double) : Datum := Format.double.decode x.bits.toNat

def ofWord (word : Nat) : Double := ⟨UInt64.ofNat word⟩

def ofDatum (d : Datum) : Double := ofWord (Format.double.encode d)

/-- The number nearest to an integer. -/
def ofInt (i : Int) : Double := ofDatum (.finite (i < 0) i.natAbs 0)

def zero : Double := ⟨0⟩

def one : Double := ofInt 1

/-- One half, the number a host draws unless told otherwise. -/
def half : Double := ofDatum (.finite false 1 (-1))

/-! ## Order -/

/-- The word without its sign bit. -/
def magnitude (x : Double) : Nat := x.bits.toNat % Format.double.signBit

def isNan (x : Double) : Bool := Format.double.infinity < x.magnitude

/-- The place of a number on the line: magnitudes are ordered like their words, and both zeros
share one place. -/
def place (x : Double) : Int :=
  if x.bits.toNat < Format.double.signBit then x.magnitude else -(x.magnitude : Int)

/-- At most; never so when either side is not a number. -/
def le (x y : Double) : Bool := !x.isNan && !y.isNan && x.place ≤ y.place

/-- Whether this is zero, of either sign. -/
def isZero (x : Double) : Bool := x.magnitude = 0

def isInfinite (x : Double) : Bool := x.magnitude = Format.double.infinity

/-! ## Arithmetic -/

def neg (x : Double) : Double := ⟨x.bits ^^^ UInt64.ofNat Format.double.signBit⟩

def mul (x y : Double) : Double := ofDatum (x.datum.mul y.datum)

def div (x y : Double) : Double := ofWord (Format.double.quotient x.datum y.datum)

/-! ## Conversions -/

/-- Cut down to a signed 32-bit integer. -/
def toInt32 (x : Double) : Int32 := Int32.ofInt (x.datum.truncated Int32.minValue.toInt Int32.maxValue.toInt)

/-- Cut down to an unsigned 32-bit integer. -/
def toUInt32 (x : Double) : UInt32 := UInt32.ofNat (x.datum.truncated 0 (UInt32.size - 1)).toNat

/-- Cut down to an unsigned 64-bit integer. -/
def toIndex (x : Double) : Nat := (x.datum.truncated 0 (UInt64.size - 1)).toNat

/-- Rounded down to a signed 32-bit integer. -/
def floorInt32 (x : Double) : Int32 := Int32.ofInt (x.datum.floored Int32.minValue.toInt Int32.maxValue.toInt)

def ofInt32 (i : Int32) : Double := ofInt i.toInt

/-- An unsigned word, read as the signed integer with the same bits. -/
def ofWord32 (n : UInt32) : Double := ofInt32 n.toInt32

def ofBool (b : Bool) : Double := if b then one else zero

/-- Narrowed to the nearest number of the 32-bit format. -/
def toSingle (x : Double) : Single := ⟨UInt32.ofNat (Format.single.encode x.datum)⟩

end Double

namespace Single

def datum (x : Single) : Datum := Format.single.decode x.bits.toNat

end Single

end GuestBridge.Ieee
