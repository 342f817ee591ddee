import GuestBridge.Json.Value

/-!
# Reading a number

Reading takes a value from the front of a text and hands back what is left of it.

A number's digits are gathered into a significand of 64 bits. Digits of the integral part that
no longer fit raise the power of ten instead, and the first digit after the point that does not
fit ends the gathering. The value is the significand, rounded, times or over one rounded power
of ten, so it may miss the nearest number by a step or two.
-/

set_option autoImplicit false

namespace GuestBridge.Json

open Ieee

def digitOf (c : Char) : Nat := c.toNat - '0'.toNat

/-- The digits of a number so far: `significand * 10 ^ exponent`. -/
structure Gathered where
  significand : Nat
  exponent : Int

/-- The greatest significand. -/
def significandMax : Nat := UInt64.size - 1

/-- Gathers the digits before the point. -/
def gatherWhole (significand : Nat) : List Char → Gathered
  | [] => ⟨significand, 0⟩
  | c :: rest =>
    let next := significand * 10 + digitOf c
    if next ≤ significandMax then gatherWhole next rest
    else ⟨significand, rest.length + 1⟩

/-- Gathers the digits after the point. -/
def gatherFraction (g : Gathered) : List Char → Gathered
  | [] => g
  | c :: rest =>
    let next := g.significand * 10 + digitOf c
    if next ≤ significandMax then gatherFraction ⟨next, g.exponent - 1⟩ rest else g

/-- The largest power of ten that is a finite number. -/
def powerMax : Int := 308

def powerOfTen (n : Nat) : Double := .ofDatum (.finite false (Nat.pow 10 n) 0)

/-- `f` times ten to the power `e`. Small powers are taken in steps until the number vanishes,
which it does within three; past the largest finite number there is no answer. -/
def scaleByTen : Nat → Double → Int → Option Double
  | 0, f, _ => some f
  | steps + 1, f, e =>
    if e.natAbs ≤ powerMax then
      if 0 ≤ e then
        let f := f.mul (powerOfTen e.toNat)
        if f.isInfinite then none else some f
      else some (f.div (powerOfTen e.natAbs))
    else if f.isZero then some f
    else if 0 ≤ e then none
    else scaleByTen steps (f.div (powerOfTen powerMax.toNat)) (e + powerMax)

/-- The number of a significand and a power of ten. -/
def realOf (negative : Bool) (g : Gathered) : Except Fault Number :=
  match scaleByTen 4 (.ofInt g.significand) g.exponent with
  | some f => .ok (.real (if negative then f.neg else f))
  | none => .error .malformed

/-- An integer stays one if 64 bits hold it; zero with a sign does not. -/
def integerOf (negative : Bool) (n : Nat) : Number :=
  if !negative then .integer n
  else if 0 < n ∧ n ≤ 1 <<< 63 then .integer (-n)
  else .real (Double.ofInt n).neg

/-- The greatest power of ten that can be written. -/
def writtenMax : Nat := 1 <<< 31 - 1

/-- The power of ten after its letter, sign and first digit; `none` if it grew past bounds. -/
def gatherPower (n : Nat) : List Char → Option Nat
  | [] => some n
  | c :: rest =>
    let next := n * 10 + digitOf c
    if next ≤ writtenMax then gatherPower next rest else none

/-- The digits at the front, of which there has to be one. -/
def digits1 (cs : List Char) : Except Fault (List Char × List Char) :=
  match cs with
  | [] => .error .truncated
  | c :: _ =>
    if c.isDigit then .ok (cs.takeWhile Char.isDigit, cs.dropWhile Char.isDigit)
    else .error .malformed

/-- The rest of a number from the letter of its power of ten on, if it has one. -/
def readPower (negative : Bool) (g : Gathered) (cs : List Char) :
    Except Fault (Number × List Char) := do
  match cs with
  | c :: rest =>
    if c = 'e' ∨ c = 'E' then
      let (below, rest) := match rest with
        | '+' :: rest => (false, rest)
        | '-' :: rest => (true, rest)
        | rest => (false, rest)
      let (digits, rest) ← digits1 rest
      match gatherPower 0 digits with
      | some n =>
        let e := if below then g.exponent - n else g.exponent + n
        return (← realOf negative ⟨g.significand, e⟩, rest)
      | none =>
        if g.significand ≠ 0 ∧ !below then throw .malformed
        return (.real (if negative then Double.zero.neg else Double.zero), rest)
    else return (← realOf negative g, cs)
  | [] => return (← realOf negative g, cs)

/-- A number after its sign. -/
def readUnsigned (negative : Bool) (cs : List Char) : Except Fault (Number × List Char) := do
  let (whole, rest) ← digits1 cs
  if whole.head? = some '0' ∧ 1 < whole.length then throw .malformed
  let g := gatherWhole 0 whole
  match rest with
  | '.' :: rest =>
    let (fraction, rest) ← digits1 rest
    readPower negative (gatherFraction g fraction) rest
  | 'e' :: _ | 'E' :: _ => readPower negative g rest
  | _ =>
    if g.exponent = 0 then return (integerOf negative g.significand, rest)
    else return (← realOf negative g, rest)

end GuestBridge.Json
