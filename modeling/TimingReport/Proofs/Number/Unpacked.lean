import TimingReport.Proofs.Number.Rank

/-!
# The logical model of doubles on the scale of ranks

The logical model of `Float` takes a double apart into a sign, a mantissa and an exponent,
computes with these exactly, and rounds by shifting out bits, of which it remembers two.
Here its parts are read as ranks, and its rounding is shown to be `rounded`.
-/

namespace TimingReport.Number

open Float.Model (Format UnpackedFloat totalExponent)
open Float.Model.UnpackedFloat

/-- The position of a double in the order of values; both zeros are at zero. -/
def rank (x : Float) : Int :=
  if isNegative x then -((x.toBits.toNat % signPattern : Nat) : Int)
  else ((x.toBits.toNat % signPattern : Nat) : Int)

def signOf (negative : Bool) : Sign := if negative then .negative else .positive

@[simp]
theorem apply_signOf_false (n : Int) : (signOf false).apply n = n := rfl

@[simp]
theorem apply_signOf_true (n : Int) : (signOf true).apply n = -n := rfl

theorem natAbs_rank (x : Float) : (rank x).natAbs = x.toBits.toNat % signPattern := by
  rw [rank]
  split
  · rw [Int.natAbs_neg, Int.natAbs_natCast]
  · rw [Int.natAbs_natCast]

theorem rank_eq (x : Float) : rank x = (signOf (isNegative x)).apply (rank x).natAbs := by
  rw [natAbs_rank, rank, signOf]
  cases isNegative x <;> rfl

theorem rank_of_toNat {x : Float} {negative : Bool} {magnitude : Nat}
    (hbits : x.toBits.toNat = (if negative then signPattern else 0) + magnitude)
    (hmagnitude : magnitude < signPattern) :
    rank x = (signOf negative).apply magnitude := by
  cases negative with
  | false =>
    have hsign : isNegative x = false := by
      rw [isNegative, hbits]
      simpa using hmagnitude
    rw [rank, hsign, hbits]
    simp [signOf, Sign.apply, Nat.mod_eq_of_lt hmagnitude]
  | true =>
    have hsign : isNegative x = true := by
      rw [isNegative, hbits]
      simp
    rw [rank, hsign, hbits]
    simp [signOf, Sign.apply, Nat.mod_eq_of_lt hmagnitude]

/-! ## Unpacking -/

theorem toNat_unpackSign (bits : Bits) : (unpackSign bits).toNat = bits.toNat / 2 ^ 63 % 2 := by
  simp [unpackSign, BitVec.extractLsb, Nat.shiftRight_eq_div_pow]

theorem ofBitVec_unpackSign (x : Float) :
    Sign.ofBitVec (@unpackSign .binary64 x.toBits.toBitVec) = signOf (isNegative x) := by
  have hsize : x.toBits.toNat < 2 ^ 64 := x.toBits.toNat_lt
  have hvalue := toNat_unpackSign x.toBits.toBitVec
  rw [UInt64.toNat_toBitVec] at hvalue
  rw [Sign.ofBitVec, signOf, isNegative]
  by_cases hsign : signPattern ≤ x.toBits.toNat
  · rw [decide_eq_true hsign, if_pos rfl, if_neg]
    intro hzero
    rw [hzero] at hvalue
    simp only [signPattern, BitVec.toNat_ofNat] at *
    omega
  · rw [decide_eq_false hsign, if_neg Bool.false_ne_true, if_pos]
    apply BitVec.eq_of_toNat_eq
    rw [hvalue]
    simp only [signPattern, BitVec.toNat_ofNat] at *
    omega

theorem toModel_unpack (x : Float) :
    x.toModel.unpack = UnpackedFloat.unpack .binary64 x.toBits.toBitVec := rfl

theorem bitVec_eq_ofNat_iff {width n : Nat} (bits : BitVec width) (hn : n < 2 ^ width) :
    bits = BitVec.ofNat width n ↔ bits.toNat = n := by
  rw [← BitVec.toNat_inj, BitVec.toNat_ofNat, Nat.mod_eq_of_lt hn]

section Fields

variable {x : Float}

theorem toNat_mantissa (x : Float) :
    (@unpackMantissa .binary64 x.toBits.toBitVec).toNat = (rank x).natAbs % fractionSize := by
  rw [toNat_unpackMantissa, natAbs_rank, UInt64.toNat_toBitVec]
  simp only [signPattern, fractionSize]
  omega

theorem toNat_exponent (x : Float) :
    (@unpackExponent .binary64 x.toBits.toBitVec).toNat = (rank x).natAbs / fractionSize := by
  rw [toNat_unpackExponent, natAbs_rank, UInt64.toNat_toBitVec]
  simp only [signPattern, fractionSize]
  omega

theorem exponent_eq_top_iff :
    @unpackExponent .binary64 x.toBits.toBitVec = -1#_ ↔ infinityPattern ≤ (rank x).natAbs := by
  have hsmall : (rank x).natAbs < signPattern := by
    rw [natAbs_rank]
    exact Nat.mod_lt _ (by decide)
  have hexponent := toNat_exponent x
  rw [show -BitVec.ofNat Format.binary64.exponentBits 1 = BitVec.ofNat _ 2047 from rfl,
    bitVec_eq_ofNat_iff _ (by decide), hexponent]
  simp only [signPattern, fractionSize, infinityPattern] at *
  omega

theorem exponent_eq_zero_iff :
    @unpackExponent .binary64 x.toBits.toBitVec = 0#_ ↔ (rank x).natAbs < fractionSize := by
  rw [bitVec_eq_ofNat_iff _ (by decide), toNat_exponent]
  simp only [fractionSize]
  omega

theorem mantissa_eq_zero_iff :
    @unpackMantissa .binary64 x.toBits.toBitVec = 0#_ ↔ (rank x).natAbs % fractionSize = 0 := by
  rw [bitVec_eq_ofNat_iff _ (by decide), toNat_mantissa]

end Fields

theorem unpack_of_zero {x : Float} (hzero : rank x = 0) :
    x.toModel.unpack = .zero (signOf (isNegative x)) := by
  have habs : (rank x).natAbs = 0 := by rw [hzero]; rfl
  have hexponent := (@exponent_eq_zero_iff x).2 (by rw [habs]; decide)
  have htop := mt (@exponent_eq_top_iff x).1 (by rw [habs]; decide)
  have hmantissa := (@mantissa_eq_zero_iff x).2 (by rw [habs]; decide)
  rw [toModel_unpack, UnpackedFloat.unpack]
  dsimp only
  rw [if_neg htop, if_pos hexponent, dif_pos hmantissa, ofBitVec_unpackSign]

theorem finite_congr {sign : Sign} {mantissa mantissa' : Nat} {exponent exponent' : Int}
    (hpositive : 0 < mantissa) (hmantissa : mantissa = mantissa')
    (hexponent : exponent = exponent') :
    UnpackedFloat.finite sign mantissa exponent hpositive =
      .finite sign mantissa' exponent' (hmantissa ▸ hpositive) := by
  subst hmantissa hexponent
  rfl

/-- The mantissa and the exponent of a finite double that is not zero. -/
theorem exists_unpack_finite {x : Float} (hzero : rank x ≠ 0)
    (hfinite : (rank x).natAbs < infinityPattern) :
    ∃ scale mantissa hpositive, (rank x).natAbs = scale * fractionSize + mantissa ∧
      mantissa < 2 ^ 53 ∧ (scale = 0 ∨ 2 ^ 52 ≤ mantissa) ∧
      x.toModel.unpack =
        .finite (signOf (isNegative x)) mantissa (scale + minExponent) hpositive := by
  have habs : (rank x).natAbs ≠ 0 := Int.natAbs_ne_zero.2 hzero
  have hfield := toNat_exponent x
  have hfraction := toNat_mantissa x
  have htop := mt (@exponent_eq_top_iff x).1 (not_le.2 hfinite)
  rw [toModel_unpack, UnpackedFloat.unpack]
  dsimp only
  rw [if_neg htop, ofBitVec_unpackSign]
  rcases Nat.lt_or_ge (rank x).natAbs fractionSize with hsmall | hlarge
  · have hmod : (rank x).natAbs % fractionSize = (rank x).natAbs := Nat.mod_eq_of_lt hsmall
    have hexponent := (@exponent_eq_zero_iff x).2 hsmall
    have hmantissa := mt (@mantissa_eq_zero_iff x).1 (by rwa [hmod])
    refine ⟨0, (rank x).natAbs, Nat.pos_of_ne_zero habs, by simp, ?_, .inl rfl, ?_⟩
    · simp only [fractionSize] at hsmall
      omega
    · rw [if_pos hexponent, dif_neg hmantissa]
      apply finite_congr
      · rw [hfraction, hmod]
      · rw [hfield, Nat.div_eq_of_lt hsmall]
        rfl
  · have hexponent := mt (@exponent_eq_zero_iff x).1 (not_lt.2 hlarge)
    refine ⟨(rank x).natAbs / fractionSize - 1,
      fractionSize + (rank x).natAbs % fractionSize, by simp [fractionSize], ?_, ?_, ?_, ?_⟩
    · simp only [fractionSize] at *
      omega
    · simp only [fractionSize] at *
      omega
    · simp only [fractionSize] at *
      omega
    · rw [if_neg hexponent]
      apply finite_congr
      · rw [BitVec.toNat_append, ← Nat.shiftLeft_add_eq_or_of_lt (BitVec.isLt _), hfraction]
        rfl
      · rw [hfield]
        have hbias : ((Format.binary64.exponentBias : Nat) : Int) = 1023 := rfl
        simp only [fractionSize, minExponent] at *
        omega

/-! ## Packing -/

theorem toNat_packComponents (negative : Bool) (exponent : BitVec 11) (mantissa : BitVec 52) :
    (packComponents .binary64 (signOf negative) exponent mantissa).toNat =
      (if negative then signPattern else 0) +
        (exponent.toNat * fractionSize + mantissa.toNat) := by
  have hexponent := exponent.isLt
  have hmantissa := mantissa.isLt
  have hfields : (exponent ++ mantissa).toNat = exponent.toNat * fractionSize + mantissa.toNat := by
    rw [BitVec.toNat_append, ← Nat.shiftLeft_add_eq_or_of_lt hmantissa, Nat.shiftLeft_eq]
    rfl
  rw [packComponents, BitVec.append_assoc, BitVec.toNat_cast, BitVec.toNat_append,
    ← Nat.shiftLeft_add_eq_or_of_lt (BitVec.isLt _), Nat.shiftLeft_eq, hfields]
  cases negative <;> rfl

/-- The rank of a double that is packed from its fields. -/
theorem rank_packComponents (negative : Bool) {exponent : BitVec 11} {mantissa : BitVec 52}
    {unpacked : UnpackedFloat} {magnitude : Nat}
    (hpack : UnpackedFloat.pack .binary64 unpacked =
      packComponents .binary64 (signOf negative) exponent mantissa)
    (hmagnitude : exponent.toNat * fractionSize + mantissa.toNat = magnitude) :
    rank (.ofModel (.pack unpacked)) = (signOf negative).apply magnitude := by
  have hexponent := exponent.isLt
  have hmantissa := mantissa.isLt
  apply rank_of_toNat
  · rw [← hmagnitude, ← toNat_packComponents, ← hpack]
    rfl
  · rw [← hmagnitude]
    simp only [fractionSize, signPattern]
    omega

theorem rank_pack_zero (sign : Sign) : rank (.ofModel (.pack (.zero sign))) = 0 := by
  cases sign with
  | negative => exact @rank_packComponents true 0 0 _ 0 rfl rfl
  | positive => exact @rank_packComponents false 0 0 _ 0 rfl rfl

/-- A mantissa whose exponent is too large becomes infinity. -/
theorem rank_pack_finite (negative : Bool) {scale mantissa : Nat} (hpositive : 0 < mantissa)
    (hmantissa : mantissa < 2 ^ 53) (hscale : scale = 0 ∨ 2 ^ 52 ≤ mantissa) :
    rank (.ofModel (.pack (.finite (signOf negative) mantissa (scale + minExponent) hpositive))) =
      (signOf negative).apply
        (min infinityPattern (scale * fractionSize + mantissa) : Nat) := by
  have hbiased : ((scale + minExponent + Format.binary64.exponentBias +
      Format.binary64.mantissaBitsWithoutImplicit : Int)).toNat = scale + 1 := by
    have hbias : ((Format.binary64.exponentBias : Nat) : Int) = 1023 := rfl
    simp only [minExponent, hbias]
    omega
  have hcapacity : 2 ^ Format.binary64.exponentBits = 2048 := rfl
  have hbits : Format.binary64.mantissaBits = 53 := rfl
  rcases Nat.lt_or_ge scale 2046 with hfits | hlarge
  · have hmagnitude : scale * fractionSize + mantissa < infinityPattern := by
      simp only [fractionSize, infinityPattern]
      omega
    rw [min_eq_right hmagnitude.le]
    rcases Nat.lt_or_ge mantissa (2 ^ 52) with hsmall | hnormal
    · obtain rfl : scale = 0 := by omega
      have hlog : mantissa.log2 + 1 ≠ Format.binary64.mantissaBits := by
        have := (Nat.log2_lt hpositive.ne').2 hsmall
        omega
      apply @rank_packComponents negative 0 (BitVec.ofNat 52 mantissa)
      · rw [UnpackedFloat.pack]
        dsimp only
        rw [hbiased, if_neg (by omega), if_neg hlog]
        rfl
      · rw [BitVec.toNat_ofNat, Nat.mod_eq_of_lt hsmall]
        simp
    · have hlog : mantissa.log2 + 1 = Format.binary64.mantissaBits := by
        rw [(Nat.log2_eq_iff hpositive.ne').2 ⟨hnormal, hmantissa⟩]
        rfl
      apply @rank_packComponents negative (BitVec.ofNat 11 (scale + 1)) (BitVec.ofNat 52 mantissa)
      · rw [UnpackedFloat.pack]
        dsimp only
        rw [hbiased, if_neg (by omega), if_pos hlog]
      · simp only [BitVec.toNat_ofNat, fractionSize]
        omega
  · have hmagnitude : infinityPattern ≤ scale * fractionSize + mantissa := by
      simp only [fractionSize, infinityPattern]
      omega
    rw [min_eq_left hmagnitude]
    apply @rank_packComponents negative (-1#_) 0
    · rw [UnpackedFloat.pack]
      dsimp only
      rw [hbiased, if_pos (by omega)]
      rfl
    · rfl

end TimingReport.Number
