import Mathlib
import TimingReport.Number.Binary64

/-!
# Doubles and their patterns

A double is its pattern of bits, as long as the pattern is not one of the many for
what is not a number.  The fields the logical model of `Float` cuts out of a pattern
are read here as arithmetic on natural numbers.
-/

namespace TimingReport.Number

open Float.Model (Format)
open Float.Model.UnpackedFloat

/-- A word of 64 bits as the bits of a double. -/
abbrev Bits := BitVec Format.binary64.numBits

theorem toNat_unpackMantissa (bits : Bits) :
    (unpackMantissa bits).toNat = bits.toNat % 2 ^ 52 := by
  simp [unpackMantissa, BitVec.extractLsb, Nat.shiftRight_eq_div_pow]

theorem toNat_unpackExponent (bits : Bits) :
    (unpackExponent bits).toNat = bits.toNat / 2 ^ 52 % 2 ^ 11 := by
  simp [unpackExponent, BitVec.extractLsb, Nat.shiftRight_eq_div_pow]

/-- The patterns that are no number are those above the one of infinity. -/
theorem isNaNBits_iff (bits : Bits) :
    isNaNBits bits = true ↔ 2047 * 2 ^ 52 < bits.toNat % 2 ^ 63 := by
  have hexponent : unpackExponent bits = -1#_ ↔ (unpackExponent bits).toNat = 2047 := by
    rw [show -BitVec.ofNat Format.binary64.exponentBits 1 = BitVec.ofNat _ 2047 from rfl]
    exact BitVec.toNat_inj.symm
  have hmantissa : unpackMantissa bits = 0#_ ↔ (unpackMantissa bits).toNat = 0 :=
    BitVec.toNat_inj.symm
  rw [isNaNBits, decide_eq_true_iff, hexponent, Ne, hmantissa, toNat_unpackExponent,
    toNat_unpackMantissa]
  omega

theorem isNaNBits_eq_false (bits : Bits) (hnumber : bits.toNat % 2 ^ 63 ≤ 2047 * 2 ^ 52) :
    isNaNBits bits = false := by
  rw [Bool.eq_false_iff, Ne, isNaNBits_iff]
  exact not_lt.2 hnumber

/-- A pattern up to infinity, with either sign, is kept as it is. -/
theorem toNat_toBits_ofBits {pattern : Nat} (hsize : pattern < 2 ^ 64)
    (hnumber : pattern % 2 ^ 63 ≤ 2047 * 2 ^ 52) :
    (Float.ofBits (UInt64.ofNat pattern)).toBits.toNat = pattern := by
  have hword : (UInt64.ofNat pattern).toBitVec.toNat = pattern := by
    rw [UInt64.toBitVec_ofNat', BitVec.toNat_ofNat, Nat.mod_eq_of_lt hsize]
  have hkept : @isNaNBits .binary64 (UInt64.ofNat pattern).toBitVec = false :=
    isNaNBits_eq_false _ (by rwa [hword])
  rw [Float.ofBits, Float.toBits, Float.Model.ofBits, Float.Model.pack]
  simp only
  rw [pack_unpack, hkept, if_neg Bool.false_ne_true, UInt64.ofBitVec_toBitVec,
    UInt64.toNat_ofNat_of_lt' hsize]

/-- All patterns that are no number stand for the same double. -/
theorem toNat_toBits_ofBits_of_nan {pattern : UInt64}
    (hnan : 2047 * 2 ^ 52 < pattern.toNat % 2 ^ 63) :
    (Float.ofBits pattern).toBits.toNat = 0x7ff8000000000000 := by
  have hbits : @isNaNBits .binary64 pattern.toBitVec = true := (isNaNBits_iff _).2 hnan
  rw [Float.ofBits, Float.toBits, Float.Model.ofBits, Float.Model.pack]
  simp only
  rw [pack_unpack, hbits, if_pos rfl]
  rfl

theorem toNat_toBits_ofPattern (negative : Bool) {magnitude : Nat}
    (hmagnitude : magnitude ≤ infinityPattern) :
    (ofPattern negative magnitude).toBits.toNat =
      if negative then signPattern + magnitude else magnitude := by
  rw [infinityPattern] at hmagnitude
  rw [ofPattern, toNat_toBits_ofBits]
  · cases negative <;> simp only [signPattern, if_true, Bool.false_eq_true, if_false] <;> omega
  · cases negative <;> simp only [signPattern, if_true, Bool.false_eq_true, if_false] <;> omega

end TimingReport.Number
