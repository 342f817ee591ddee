import GuestBridge.Ieee.Number

/-!
# Shortest decimal text of a number

Of the decimals that round to a given number, `Format.shortest` takes one with the fewest
digits, and of those the nearest. `Numeral` says how the digits are laid out; the three layouts
in use are `Numeral.plain`, `Numeral.listed` and `Numeral.document`.
-/

set_option autoImplicit false

namespace GuestBridge.Ieee

/-- The decimal `digits * 10 ^ exponent`. -/
structure Decimal where
  digits : Nat
  exponent : Int
  deriving DecidableEq, Repr

/-- Which of two equally near decimals is taken. -/
inductive Tie
  | up
  | even
  deriving DecidableEq, Repr

/-- Compares `a * 10 ^ u` with `b * 2 ^ e`, both scaled to natural numbers. -/
def compareScaled (a : Nat) (u : Int) (b : Nat) (e : Int) : Ordering :=
  compare ((a * Nat.pow 10 u.toNat) <<< (-e).toNat) ((b * Nat.pow 10 (-u).toNat) <<< e.toNat)

/-- The count of decimal digits; zero has none. -/
def digitCount (n : Nat) : Nat := if n = 0 then 0 else (Nat.toDigits 10 n).length

/-- The least `k` with `m * 2 ^ e < 10 ^ k`. -/
def decimalSize (m : Nat) (e : Int) : Int :=
  if 0 ≤ e then digitCount (m <<< e.toNat)
  else
    let d := 1 <<< (-e).toNat
    if d ≤ m then digitCount (m / d) else 1 - (digitCount ((d - 1) / m) : Int)

/-- The reals that round to `m * 2 ^ e`, all in quarters of its last place: from `low` to
`high`, with both ends when `closed`. -/
structure Cell where
  low : Nat
  high : Nat
  exponent : Int
  closed : Bool

/-- Below a power of two the neighbours lie half as far apart. -/
def Format.cell (f : Format) (m : Nat) (e : Int) : Cell where
  low := if m = 1 <<< f.fraction ∧ f.least < e then 4 * m - 1 else 4 * m - 2
  high := 4 * m + 2
  exponent := e - 2
  closed := m % 2 = 0

def Cell.contains (c : Cell) (d : Nat) (u : Int) : Bool :=
  let low := compareScaled d u c.low c.exponent
  let high := compareScaled d u c.high c.exponent
  if c.closed then low != .lt && high != .gt else low == .gt && high == .lt

/-- The better of the decimals `d` and `d + 1` in units of `10 ^ u`, the number lying between
them, if either is in the cell. -/
def Cell.choose (c : Cell) (tie : Tie) (m : Nat) (e : Int) (d : Nat) (u : Int) : Option Nat :=
  match c.contains d u, c.contains (d + 1) u with
  | false, false => none
  | true, false => some d
  | false, true => some (d + 1)
  | true, true =>
    match compareScaled (2 * d + 1) u (2 * m) e with
    | .gt => some d
    | .lt => some (d + 1)
    | .eq => if tie = .even ∧ d % 2 = 0 then some d else some (d + 1)

/-- `m * 2 ^ e / 10 ^ u`, rounded down. -/
def floorScaled (m : Nat) (e u : Int) : Nat :=
  ((m * Nat.pow 10 (-u).toNat) <<< e.toNat) / (Nat.pow 10 u.toNat <<< (-e).toNat)

/-- Tries `size - u` digits, then one more, until a decimal is in the cell. -/
def Cell.search (c : Cell) (tie : Tie) (m : Nat) (e : Int) : Nat → Int → Decimal
  | 0, u => ⟨floorScaled m e u, u⟩
  | fuel + 1, u =>
    match c.choose tie m e (floorScaled m e u) u with
    | some d => ⟨d, u⟩
    | none => c.search tie m e fuel (u - 1)

/-- Drops the zeros at the end; `fuel` bounds their number. -/
def Decimal.trim : Nat → Decimal → Decimal
  | 0, d => d
  | fuel + 1, d =>
    if d.digits ≠ 0 ∧ d.digits % 10 = 0 then trim fuel ⟨d.digits / 10, d.exponent + 1⟩ else d

/-- The shortest decimal that rounds to the positive number `m * 2 ^ e`. Two digits more than a
third of the fraction's bits are always enough. -/
def Format.shortest (f : Format) (tie : Tie) (m : Nat) (e : Int) : Decimal :=
  let found := (f.cell m e).search tie m e (f.fraction / 3 + 2) (decimalSize m e - 1)
  found.trim (f.fraction / 3 + 2)

/-! ## Layouts -/

/-- How a decimal is written out: `positional` bounds the powers of ten of the leading digit
that are written without an exponent (`none`: all of them), `pointed` keeps a digit after the
point of an integral value, and `plusSign` marks a positive exponent. -/
structure Numeral where
  positional : Option (Int × Int)
  pointed : Bool
  plusSign : Bool
  tie : Tie

namespace Numeral

/-- Log lines and single numbers: never an exponent, and a point only where it is needed. -/
def plain : Numeral := ⟨none, false, false, .up⟩

/-- Numbers in a list: always a point or an exponent, the latter from `1e16` on and below
`1e-4`. -/
def listed : Numeral := ⟨some (-4, 15), true, false, .up⟩

/-- Numbers of a document: always a point or an exponent, the latter signed, from `1e+16` on and
below `1e-5`. -/
def document : Numeral := ⟨some (-5, 15), true, true, .even⟩

/-- The digits with the point in its place; `lead` is the power of ten of the first digit. -/
def spread (style : Numeral) (digits : List Char) (lead : Int) : String :=
  let tail := if style.pointed then ".0" else ""
  if lead < 0 then
    "0." ++ String.ofList (List.replicate (-lead - 1).toNat '0' ++ digits)
  else
    let before := lead.toNat + 1
    if digits.length ≤ before then
      String.ofList (digits ++ List.replicate (before - digits.length) '0') ++ tail
    else
      String.ofList (digits.take before) ++ "." ++ String.ofList (digits.drop before)

/-- The digits as one before the point, the others after it, and the power of ten. -/
def scientific (style : Numeral) (digits : List Char) (lead : Int) : String :=
  let first := String.ofList (digits.take 1)
  let rest := if digits.length ≤ 1 then "" else "." ++ String.ofList (digits.drop 1)
  let sign := if lead < 0 then "-" else if style.plusSign then "+" else ""
  first ++ rest ++ "e" ++ sign ++ toString lead.natAbs

def digitsText (style : Numeral) (d : Decimal) : String :=
  let digits := Nat.toDigits 10 d.digits
  let lead := d.exponent + digits.length - 1
  match style.positional with
  | none => style.spread digits lead
  | some (low, high) =>
    if low ≤ lead ∧ lead ≤ high then style.spread digits lead else style.scientific digits lead

def text (style : Numeral) (f : Format) : Datum → String
  | .nan => "NaN"
  | .infinite negative => if negative then "-inf" else "inf"
  | .finite negative m e =>
    let sign := if negative then "-" else ""
    if m = 0 then sign ++ style.digitsText ⟨0, 0⟩
    else sign ++ style.digitsText (f.shortest style.tie m e)

end Numeral

def Double.text (x : Double) (style : Numeral) : String := style.text .double x.datum

def Single.text (x : Single) (style : Numeral) : String := style.text .single x.datum

end GuestBridge.Ieee
