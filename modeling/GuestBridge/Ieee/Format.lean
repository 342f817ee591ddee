/-!
# Binary interchange formats

A word of a binary interchange format, given by its widths, is read as an exact `Datum`:
a number `significand * 2 ^ exponent` with a sign, an infinity, or not a number at all.

* `Format.decode`: the datum of a word.
* `Format.nearest`: the word of the number nearest to a quotient, a half going to the even one.
* `Datum.truncated`, `Datum.floored`: the integer a datum is cut down to, clamped to a range.
-/

set_option autoImplicit false

namespace GuestBridge.Ieee

/-- The widths, in bits, of a format's fraction and exponent fields. -/
structure Format where
  fraction : Nat
  exponent : Nat
  deriving DecidableEq, Repr

/-- What a word stands for; a finite datum is `±significand * 2 ^ exponent`. -/
inductive Datum
  | nan
  | infinite (negative : Bool)
  | finite (negative : Bool) (significand : Nat) (exponent : Int)
  deriving DecidableEq, Repr

namespace Format

/-- The 64-bit format. -/
def double : Format := ⟨52, 11⟩

/-- The 32-bit format. -/
def single : Format := ⟨23, 8⟩

variable (f : Format)

/-- The exponent of the least positive number, which is also that of every subnormal one. -/
def least : Int := 2 - (1 <<< (f.exponent - 1) : Nat) - f.fraction

/-- The word of positive infinity. -/
def infinity : Nat := (1 <<< f.exponent - 1) <<< f.fraction

/-- The sign bit, alone in a word. -/
def signBit : Nat := 1 <<< (f.fraction + f.exponent)

def decode (word : Nat) : Datum :=
  let negative := word / f.signBit % 2 == 1
  let field := (word >>> f.fraction) % (1 <<< f.exponent)
  let fraction := word % (1 <<< f.fraction)
  if field = 1 <<< f.exponent - 1 then
    if fraction = 0 then .infinite negative else .nan
  else if field = 0 then .finite negative fraction f.least
  else .finite negative (1 <<< f.fraction + fraction) (f.least + field - 1)

/-! ## Rounding -/

/-- `num / den`, rounded to the nearest natural number, a half to the even one. -/
def divRound (num den : Nat) : Nat :=
  let q := num / den
  let r := num % den
  if den < 2 * r ∨ (2 * r = den ∧ q % 2 = 1) then q + 1 else q

/-- The quotient `num / (den * 2 ^ e)`, as a numerator and a denominator. -/
def shift (num den : Nat) (e : Int) : Nat × Nat :=
  if 0 ≤ e then (num, den <<< e.toNat) else (num <<< (-e).toNat, den)

/-- The exponent at which `num / den` has a significand of `fraction + 1` bits, but not below
`least`. -/
def unit (num den : Nat) : Int :=
  let e := (Nat.log2 num : Int) - Nat.log2 den - f.fraction
  let (n, d) := shift num den e
  max f.least (if n / d < 1 <<< f.fraction then e - 1 else e)

/-- The word of the positive number nearest to `num / den`; past the largest finite number it
is infinity. A significand that rounds up to the next power of two carries into the exponent
field by itself. -/
def nearest (num den : Nat) : Nat :=
  if num = 0 then 0 else
    let e := f.unit num den
    let (n, d) := shift num den e
    min f.infinity ((e - f.least).toNat <<< f.fraction + divRound n d)

/-- The word of a datum; every datum that is not a number has the same one. -/
def encode : Datum → Nat
  | .nan => f.infinity + 1 <<< (f.fraction - 1)
  | .infinite negative => f.infinity + if negative then f.signBit else 0
  | .finite negative m e =>
    let (n, d) := shift m 1 (-e)
    f.nearest n d + if negative then f.signBit else 0

end Format

namespace Datum

/-- Clamps an integer to a range. -/
def clamp (lo hi i : Int) : Int := max lo (min hi i)

/-- The magnitude of a finite datum, cut down to an integer. -/
def whole (m : Nat) (e : Int) : Nat :=
  if 0 ≤ e then m <<< e.toNat else m >>> (-e).toNat

/-- Drops the fraction and clamps to `[lo, hi]`; what is not a number becomes 0. -/
def truncated (lo hi : Int) : Datum → Int
  | nan => 0
  | infinite negative => if negative then lo else hi
  | finite negative m e => clamp lo hi (if negative then -(whole m e : Int) else whole m e)

/-- Rounds down and clamps to `[lo, hi]`; what is not a number becomes 0. -/
def floored (lo hi : Int) : Datum → Int
  | nan => 0
  | infinite negative => if negative then lo else hi
  | finite false m e => clamp lo hi (whole m e)
  | finite true m e =>
    let up := if 0 ≤ e then whole m e else (m + 1 <<< (-e).toNat - 1) >>> (-e).toNat
    clamp lo hi (-(up : Int))

/-- The product, exact until it is encoded. -/
def mul : Datum → Datum → Datum
  | finite s m e, finite t n k => finite (s != t) (m * n) (e + k)
  | infinite s, infinite t => infinite (s != t)
  | infinite s, finite t m _ => if m = 0 then nan else infinite (s != t)
  | finite s m _, infinite t => if m = 0 then nan else infinite (s != t)
  | nan, _ => nan
  | _, nan => nan

end Datum

/-- The word of a quotient of two data. -/
def Format.quotient (f : Format) : Datum → Datum → Nat
  | .finite s m e, .finite t n k =>
    let sign := if s != t then f.signBit else 0
    if n = 0 then (if m = 0 then f.encode .nan else f.infinity + sign)
    else
      let (num, den) := shift m n (k - e)
      f.nearest num den + sign
  | .infinite s, .finite t _ _ => f.encode (.infinite (s != t))
  | .finite s _ _, .infinite t => f.encode (.finite (s != t) 0 0)
  | .infinite _, .infinite _ => f.encode .nan
  | .nan, _ => f.encode .nan
  | _, .nan => f.encode .nan

end GuestBridge.Ieee
