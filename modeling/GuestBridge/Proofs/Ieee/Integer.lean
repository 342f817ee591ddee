import GuestBridge.Ieee.Number
import Mathlib.Algebra.Order.Field.Rat
import Mathlib.Algebra.Order.Ring.Int

/-!
# Integers as doubles

An integer of at most 53 bits is a double just as it is: the double stands for that very number
(`Double.rational?_ofInt`), and cutting it down again only clamps it (`Double.truncated_ofInt`). So
a signed word comes back from the double that it was widened to, and an unsigned one from that of
the signed word with the same bits, whichever half of its range it is from.
-/

set_option autoImplicit false

namespace GuestBridge.Ieee

/-- The number that a datum stands for, if it does for any. -/
def Datum.rational? : Datum → Option ℚ
  | finite negative m e => some ((if negative then -1 else 1) * m * 2 ^ e)
  | infinite _ => none
  | nan => none

/-! ## Encoding -/

namespace Format

variable {m : Nat}

theorem log2_le_of_fits (h0 : m ≠ 0) (h : m < 2 ^ 53) : m.log2 ≤ 52 :=
  Nat.le_of_lt_succ ((Nat.log2_lt h0).2 h)

theorem shift_neg (m k : Nat) : shift m 1 (-k) = (m <<< k, 1) := by
  unfold shift
  split
  · obtain rfl : k = 0 := by omega
    rfl
  · simp

/-- The significand that has a number's first bit in the first of 53 places. -/
theorem significand_bounds (h0 : m ≠ 0) (h : m < 2 ^ 53) :
    2 ^ 52 ≤ m <<< (52 - m.log2) ∧ m <<< (52 - m.log2) < 2 ^ 53 := by
  have hlog := log2_le_of_fits h0 h
  have hpos : 0 < 2 ^ (52 - m.log2) := Nat.two_pow_pos _
  rw [Nat.shiftLeft_eq]
  constructor
  · calc 2 ^ 52 = 2 ^ m.log2 * 2 ^ (52 - m.log2) := by
          rw [← Nat.pow_add, Nat.add_sub_of_le hlog]
      _ ≤ m * 2 ^ (52 - m.log2) := Nat.mul_le_mul_right _ (Nat.log2_self_le h0)
  · calc m * 2 ^ (52 - m.log2) < 2 ^ (m.log2 + 1) * 2 ^ (52 - m.log2) :=
          Nat.mul_lt_mul_of_pos_right Nat.lt_log2_self hpos
      _ = 2 ^ 53 := by
          rw [← Nat.pow_add]
          congr 1
          omega

theorem unit_of_fits (h0 : m ≠ 0) (h : m < 2 ^ 53) :
    double.unit m 1 = -(52 - m.log2 : Nat) := by
  have hlog := log2_le_of_fits h0 h
  have he : (m.log2 : Int) - Nat.log2 1 - double.fraction = -(52 - m.log2 : Nat) := by
    have h1 : Nat.log2 1 = 0 := by decide
    rw [h1]
    show (m.log2 : Int) - 0 - 52 = _
    omega
  have hone : (1 <<< double.fraction : Nat) = 2 ^ 52 := by decide
  have hleast : double.least = -1074 := by decide
  unfold unit
  simp only [he, shift_neg, Nat.div_one, hone, hleast]
  rw [if_neg (Nat.not_lt_of_le (significand_bounds h0 h).1)]
  omega

theorem divRound_one (n : Nat) : divRound n 1 = n := by
  simp [divRound, Nat.mod_one]

/-- Such a number needs no rounding. -/
theorem nearest_of_fits (h0 : m ≠ 0) (h : m < 2 ^ 53) :
    double.nearest m 1 = (m.log2 + 1022) * 2 ^ 52 + m <<< (52 - m.log2) := by
  have hlog := log2_le_of_fits h0 h
  have hbound := (significand_bounds h0 h).2
  have hexp : (-(52 - m.log2 : Nat) - double.least).toNat = m.log2 + 1022 := by
    have hleast : double.least = -1074 := by decide
    rw [hleast]
    omega
  have hinf : double.infinity = 2047 * 2 ^ 52 := by decide
  unfold nearest
  rw [if_neg h0]
  simp only [unit_of_fits h0 h, shift_neg, divRound_one, hexp, hinf]
  show min _ ((m.log2 + 1022) <<< 52 + _) = _
  rw [Nat.shiftLeft_eq]
  omega

theorem decode_of_normal (negative : Bool) {field fraction : Nat} (h0 : field ≠ 0)
    (h : field < 2047) (hf : fraction < 2 ^ 52) :
    double.decode (field * 2 ^ 52 + fraction + if negative then double.signBit else 0) =
      .finite negative (2 ^ 52 + fraction) (field - 1075) := by
  have hsign : double.signBit = 2 ^ 63 := by decide
  have hfields : (1 <<< double.exponent : Nat) = 2 ^ 11 := by decide
  have hone : (1 <<< double.fraction : Nat) = 2 ^ 52 := by decide
  have hleast : double.least = -1074 := by decide
  generalize hw : (field * 2 ^ 52 + fraction + if negative then double.signBit else 0) = word
  have hfield : (word >>> double.fraction) % 2 ^ 11 = field := by
    rw [Nat.shiftRight_eq_div_pow]
    show word / 2 ^ 52 % 2 ^ 11 = field
    rw [← hw, hsign]
    split <;> omega
  have hrest : word % 2 ^ 52 = fraction := by
    rw [← hw, hsign]
    split <;> omega
  have hnegative : (word / 2 ^ 63 % 2 == 1) = negative := by
    rw [← hw, hsign]
    cases negative
    · rw [if_neg Bool.false_ne_true]
      simp only [beq_eq_false_iff_ne]
      omega
    · rw [if_pos rfl]
      simp only [beq_iff_eq]
      omega
  unfold decode
  simp only [hsign, hfields, hone, hleast, hfield, hrest, hnegative]
  rw [if_neg (by omega), if_neg h0]
  congr 1
  omega

end Format

namespace Double

variable {i : Int}

/-- An integer that fits into 53 bits is a double as it is, up to how its significand is written. -/
theorem datum_ofInt (h : i.natAbs < 2 ^ 53) :
    ∃ k : Nat, (ofInt i).datum = .finite (i < 0) (i.natAbs <<< k) (-k) := by
  by_cases h0 : i.natAbs = 0
  · obtain rfl : i = 0 := Int.natAbs_eq_zero.1 h0
    exact ⟨1074, by decide⟩
  · have hlog := Format.log2_le_of_fits h0 h
    obtain ⟨hlow, hhigh⟩ := Format.significand_bounds h0 h
    generalize hs : i.natAbs <<< (52 - i.natAbs.log2) = s at hlow hhigh
    have hword : Format.double.encode (.finite (i < 0) i.natAbs 0) =
        (i.natAbs.log2 + 1023) * 2 ^ 52 + (s - 2 ^ 52) +
          if decide (i < 0) then Format.double.signBit else 0 := by
      unfold Format.encode
      have hshift := Format.shift_neg i.natAbs 0
      simp only [Int.neg_zero, Nat.cast_zero, Nat.shiftLeft_zero] at hshift ⊢
      rw [hshift]
      simp only [Format.nearest_of_fits h0 h, hs]
      omega
    refine ⟨52 - i.natAbs.log2, ?_⟩
    have hsmall : Format.double.encode (.finite (i < 0) i.natAbs 0) < 2 ^ 64 := by
      have hsign : Format.double.signBit = 2 ^ 63 := by decide
      rw [hword, hsign]
      split <;> omega
    have hbits : (ofInt i).bits.toNat = Format.double.encode (.finite (i < 0) i.natAbs 0) :=
      UInt64.toNat_ofNat_of_lt' hsmall
    have hsignificand : 2 ^ 52 + (s - 2 ^ 52) = s := Nat.add_sub_of_le hlow
    have hexponent : ((i.natAbs.log2 + 1023 : Nat) : Int) - 1075 = -(52 - i.natAbs.log2 : Nat) := by
      omega
    unfold datum
    rw [hbits, hword, Format.decode_of_normal _ (by omega) (by omega) (by omega), hsignificand,
      hexponent, hs]

theorem rational?_ofInt (h : i.natAbs < 2 ^ 53) : (ofInt i).datum.rational? = some (i : ℚ) := by
  obtain ⟨k, hk⟩ := datum_ofInt h
  have hpow : (2 : ℚ) ^ k * 2 ^ (-(k : Int)) = 1 := by
    rw [zpow_neg, zpow_natCast]
    exact mul_inv_cancel₀ (pow_ne_zero k two_ne_zero)
  have hsign : (if decide (i < 0) then -1 else 1) * (i.natAbs : ℚ) = i := by
    rw [Nat.cast_natAbs]
    by_cases hi : i < 0
    · simp [hi, abs_of_neg hi]
    · simp [hi, abs_of_nonneg (Int.not_lt.1 hi)]
  rw [hk]
  show some (_ * ((i.natAbs <<< k : Nat) : ℚ) * 2 ^ (-(k : Int))) = _
  rw [Nat.shiftLeft_eq, Nat.cast_mul, Nat.cast_pow, Nat.cast_ofNat, ← mul_assoc, hsign, mul_assoc,
    hpow, mul_one]

theorem truncated_ofInt (h : i.natAbs < 2 ^ 53) (lo hi : Int) :
    (ofInt i).datum.truncated lo hi = Datum.clamp lo hi i := by
  obtain ⟨k, hk⟩ := datum_ofInt h
  have hwhole : Datum.whole (i.natAbs <<< k) (-k) = i.natAbs := by
    unfold Datum.whole
    split
    · obtain rfl : k = 0 := by omega
      rfl
    · rw [Int.neg_neg, Int.toNat_natCast, Nat.shiftLeft_shiftRight]
  rw [hk]
  simp only [Datum.truncated, hwhole]
  congr 1
  split <;> rename_i hi <;> simp only [decide_eq_true_eq] at hi <;> omega

/-! ## Words -/

theorem natAbs_lt (i : Int32) : i.toInt.natAbs < 2 ^ 53 := by
  have hlow := i.le_toInt
  have hhigh := i.toInt_lt
  omega

/-- A signed word comes back from the number that it was widened to. -/
theorem toInt32_ofInt32 (i : Int32) : (ofInt32 i).toInt32 = i := by
  have hlow := i.le_toInt
  have hhigh := i.toInt_lt
  have hclamp : Datum.clamp Int32.minValue.toInt Int32.maxValue.toInt i.toInt = i.toInt := by
    rw [Int32.toInt_minValue, Int32.toInt_maxValue]
    unfold Datum.clamp
    omega
  unfold toInt32 ofInt32
  rw [truncated_ofInt (natAbs_lt i), hclamp, Int32.ofInt_toInt]

/-- So does an unsigned one that is read as a signed one on the way there and on the way back. -/
theorem toUInt32_toInt32_ofWord32 (v : UInt32) : (ofWord32 v).toInt32.toUInt32 = v := by
  unfold ofWord32
  rw [toInt32_ofInt32, UInt32.toUInt32_toInt32]

theorem ofWord32_toUInt32 (i : Int32) : ofWord32 i.toUInt32 = ofInt32 i := by
  unfold ofWord32
  rw [Int32.toInt32_toUInt32]

/-- The double stands for a number that a signed word can hold. -/
def IsInt32 (x : Double) : Prop :=
  ∃ n : Int, x.datum.rational? = some (n : ℚ) ∧ -2 ^ 31 ≤ n ∧ n < 2 ^ 31

theorem isInt32_ofInt32 (i : Int32) : (ofInt32 i).IsInt32 :=
  ⟨i.toInt, rational?_ofInt (natAbs_lt i), i.le_toInt, i.toInt_lt⟩

theorem isInt32_ofWord32 (v : UInt32) : (ofWord32 v).IsInt32 := isInt32_ofInt32 v.toInt32

/-- A flag is a word as well. -/
theorem ofBool_eq (b : Bool) : ofBool b = ofWord32 b.toUInt32 := by
  cases b <;> decide

end Double

end GuestBridge.Ieee
