import GameScript.Number.Binary
import Mathlib.Algebra.Ring.Int.Defs
import Mathlib.Algebra.Ring.Nat

/-! Whole numbers in double precision.

A whole number of at most 53 bits is the mantissa of a double itself, so nothing is
rounded. -/

namespace GameScript.Number

namespace BinaryFormat

variable {n : Nat}

/-- The mantissa of a whole number: it is shifted until its 53rd bit is set. -/
def filled (n : Nat) : Nat := n * 2 ^ (52 - n.log2)

theorem log2_le (small : n < 2 ^ 53) (nonzero : n ≠ 0) : n.log2 ≤ 52 := by
  have bits := (Nat.log2_lt nonzero).mpr small
  omega

theorem le_filled (small : n < 2 ^ 53) (nonzero : n ≠ 0) : 2 ^ 52 ≤ filled n := by
  have shift : n.log2 + (52 - n.log2) = 52 := Nat.add_sub_of_le (log2_le small nonzero)
  calc 2 ^ 52 = 2 ^ n.log2 * 2 ^ (52 - n.log2) := by rw [← Nat.pow_add, shift]
    _ ≤ n * 2 ^ (52 - n.log2) := Nat.mul_le_mul_right _ (Nat.log2_self_le nonzero)

theorem filled_lt (small : n < 2 ^ 53) (nonzero : n ≠ 0) : filled n < 2 ^ 53 := by
  have bit := log2_le small nonzero
  have shift : n.log2 + 1 + (52 - n.log2) = 53 := by omega
  calc n * 2 ^ (52 - n.log2) < 2 ^ (n.log2 + 1) * 2 ^ (52 - n.log2) :=
        Nat.mul_lt_mul_of_pos_right Nat.lt_log2_self (Nat.two_pow_pos _)
    _ = 2 ^ 53 := by rw [← Nat.pow_add, shift]

theorem wordCount_fractionBits : wordCount binary64.fractionBits = 2 ^ 52 := rfl

theorem leastScale_binary64 : binary64.leastScale = -1074 := by decide

theorem rescale_whole (small : n < 2 ^ 53) (nonzero : n ≠ 0) :
    rescale n 1 ((n.log2 : Int) - 52) = (filled n, 1) := by
  have bit := log2_le small nonzero
  unfold rescale filled
  split
  · have full : n.log2 = 52 := by omega
    simp [full]
  · have shift : (-((n.log2 : Int) - 52)).toNat = 52 - n.log2 := by omega
    rw [shift]
    rfl

theorem scaleFor_whole (small : n < 2 ^ 53) (nonzero : n ≠ 0) :
    binary64.scaleFor n 1 = (n.log2 : Int) - 52 := by
  have least := le_filled small nonzero
  have estimate :
      (n.log2 : Int) - ((1 : Nat).log2 : Int) - binary64.fractionBits = n.log2 - 52 := by
    have noBits : (1 : Nat).log2 = 0 := by decide
    simp [binary64, noBits]
  have filledUp : ¬ filled n < 1 * wordCount binary64.fractionBits := by
    rw [wordCount_fractionBits]
    omega
  simp only [scaleFor, estimate, rescale_whole small nonzero, filledUp, if_false,
    leastScale_binary64]
  omega

theorem roundRatio_whole (small : n < 2 ^ 53) (nonzero : n ≠ 0) :
    binary64.roundRatio n 1 = (n.log2 + 1022) * 2 ^ 52 + filled n := by
  have bit := log2_le small nonzero
  have most := filled_lt small nonzero
  have exponent : ((n.log2 : Int) - 52 - binary64.leastScale).toNat = n.log2 + 1022 := by
    rw [leastScale_binary64]
    omega
  have mantissa :
      roundQuotient (filled n) 1 = filled n := by simp [roundQuotient, Nat.mod_one]
  have rounded : binary64.roundRatio n 1 =
      min binary64.infinity ((n.log2 + 1022) * 2 ^ 52 + filled n) := by
    rw [roundRatio, if_neg nonzero, scaleFor_whole small nonzero]
    dsimp only
    rw [rescale_whole small nonzero]
    dsimp only
    rw [exponent, mantissa, wordCount_fractionBits]
  have infinity : binary64.infinity = 2047 * 2 ^ 52 := rfl
  rw [rounded, infinity]
  exact Nat.min_eq_right (by omega)

end BinaryFormat

namespace Double

open BinaryFormat

variable {n : Nat}

theorem magnitude_ofMagnitude (negative : Bool) {magnitude : Nat}
    (fits : magnitude < 2 ^ 63) :
    (ofMagnitude negative magnitude).magnitude = magnitude := by
  have sign : format.signBit = 2 ^ 63 := rfl
  cases negative with
  | false =>
    simp only [Double.magnitude, ofMagnitude, sign, UInt64.toNat_ofNat',
      Bool.false_eq_true, if_false]
    omega
  | true =>
    simp only [Double.magnitude, ofMagnitude, sign, UInt64.toNat_ofNat', if_true]
    omega

theorem isNegative_ofMagnitude (negative : Bool) {magnitude : Nat}
    (fits : magnitude < 2 ^ 63) :
    (ofMagnitude negative magnitude).isNegative = negative := by
  have sign : format.signBit = 2 ^ 63 := rfl
  cases negative with
  | false =>
    simp only [Double.isNegative, ofMagnitude, sign, UInt64.toNat_ofNat',
      Bool.false_eq_true, if_false, decide_eq_false_iff_not]
    omega
  | true =>
    simp only [Double.isNegative, ofMagnitude, sign, UInt64.toNat_ofNat', if_true,
      decide_eq_true_eq]
    omega

theorem roundRatio_lt (small : n < 2 ^ 53) : format.roundRatio n 1 < 2 ^ 63 := by
  by_cases none : n = 0
  · subst none
    decide
  · have bit := log2_le small none
    have most := filled_lt small none
    rw [format, roundRatio_whole small none]
    omega

theorem ofInt_natCast (n : Nat) : ofInt n = ofMagnitude false (format.roundRatio n 1) := by
  have positive : ¬ (n : Int) < 0 := by omega
  simp [ofInt, ofRatio, positive]

theorem parts_ofInt (small : n < 2 ^ 53) (nonzero : n ≠ 0) :
    (ofInt n).parts = (filled n, (n.log2 : Int) - 52) := by
  have least := le_filled small nonzero
  have most := filled_lt small nonzero
  have pattern : (ofInt n).magnitude = (n.log2 + 1022) * 2 ^ 52 + filled n := by
    rw [ofInt_natCast, magnitude_ofMagnitude false (roundRatio_lt small), format,
      roundRatio_whole small nonzero]
  have field : ((n.log2 + 1022) * 2 ^ 52 + filled n) / 2 ^ 52 = n.log2 + 1023 := by omega
  have fraction :
      ((n.log2 + 1022) * 2 ^ 52 + filled n) % 2 ^ 52 + 2 ^ 52 = filled n := by omega
  rw [parts, pattern, format, decode, wordCount_fractionBits]
  rw [field, if_neg (by omega), fraction, leastScale_binary64]
  exact congrArg (filled n, ·) (by omega)

theorem isFinite_ofInt (small : n < 2 ^ 53) : (ofInt n).isFinite = true := by
  by_cases none : n = 0
  · subst none
    decide
  · have bit := log2_le small none
    have most := filled_lt small none
    have infinity : format.infinity = 2047 * 2 ^ 52 := rfl
    rw [isFinite, ofInt_natCast, magnitude_ofMagnitude false (roundRatio_lt small),
      infinity, format, roundRatio_whole small none, decide_eq_true_eq]
    omega

theorem toInt?_ofInt (small : n < 2 ^ 53) : (ofInt n).toInt? = some (n : Int) := by
  by_cases none : n = 0
  · subst none
    decide +kernel
  · have positive : (ofInt n).isNegative = false := by
      rw [ofInt_natCast, isNegative_ofMagnitude false (roundRatio_lt small)]
    have bit := log2_le small none
    rw [toInt?, if_pos (isFinite_ofInt small), parts_ofInt small none, positive]
    dsimp only
    split
    · have full : n.log2 = 52 := by omega
      simp [full, filled]
    · have shift : (-((n.log2 : Int) - 52)).toNat = 52 - n.log2 := by omega
      have unit : filled n = n * Nat.pow 2 (52 - n.log2) := rfl
      have positive : 0 < Nat.pow 2 (52 - n.log2) := Nat.two_pow_pos _
      rw [shift, unit, Nat.mul_mod_left, if_pos rfl, Nat.mul_div_cancel _ positive]
      simp

theorem neg_ofInt (small : n < 2 ^ 53) (nonzero : n ≠ 0) : (ofInt n).neg = ofInt (-n) := by
  have fits := roundRatio_lt small
  have negative : ofInt (-n) = ofMagnitude true (format.roundRatio n 1) := by
    simp [ofInt, ofRatio, Nat.pos_of_ne_zero nonzero]
  rw [ofInt_natCast, negative, neg, isNegative_ofMagnitude false fits,
    magnitude_ofMagnitude false fits]
  rfl

theorem toInt?_neg (x : Double) : x.neg.toInt? = x.toInt?.map (- ·) := by
  have fits : x.magnitude < 2 ^ 63 := Nat.mod_lt _ (by decide)
  have magnitude : x.neg.magnitude = x.magnitude := magnitude_ofMagnitude _ fits
  have negative : x.neg.isNegative = !x.isNegative := isNegative_ofMagnitude _ fits
  unfold toInt?
  rw [isFinite, isFinite, parts, parts, magnitude, negative]
  cases x.isNegative <;> grind

theorem toInt?_ofInt_of_natAbs {value : Int} (small : value.natAbs < 2 ^ 53) :
    (ofInt value).toInt? = some value := by
  cases value with
  | ofNat n => exact toInt?_ofInt small
  | negSucc n =>
    have negated : ofInt (Int.negSucc n) = (ofInt (n + 1 : Nat)).neg :=
      (neg_ofInt small (Nat.succ_ne_zero n)).symm
    have positive : (ofInt (n + 1 : Nat)).toInt? = some ((n + 1 : Nat) : Int) :=
      toInt?_ofInt small
    rw [negated, toInt?_neg, positive]
    rfl

end Double

end GameScript.Number
