import TimingReport.Proofs.Json.Grammar
import TimingReport.Proofs.Number.Digits
import TimingReport.Proofs.Number.ReadBack

/-!
# Numbers as they are written

Every layout writes a number that JSON allows, be it positional, scientific or integral, and the
number has the double as its nearest one.
-/

namespace TimingReport.Number

/-! ## Digits -/

/-- No needless zero stands in front of a number. -/
theorem head?_decimalDigits {n : Nat} (hn : 0 < n) : (decimalDigits n).head? ≠ some '0' := by
  induction n using Nat.strong_induction_on with
  | _ n ih =>
    rw [decimalDigits, Nat.toDigits_eq_if (by decide)]
    split
    · next hsmall =>
      interval_cases n <;> decide
    · next hlarge =>
      have hfront := ih (n / 10) (by omega) (by omega)
      rw [decimalDigits] at hfront
      rwa [List.head?_append_of_ne_nil _ Nat.toDigits_ne_nil]

theorem decimalDigits_zero : decimalDigits 0 = ['0'] := by decide

theorem decimalDigits_eq_of_head? {n : Nat} (hhead : (decimalDigits n).head? = some '0') :
    decimalDigits n = ['0'] := by
  rcases Nat.eq_zero_or_pos n with rfl | hn
  · exact decimalDigits_zero
  · exact absurd hhead (head?_decimalDigits hn)

namespace Numeral

variable {digits : List Char} {n : Nat}

theorem append_zeros (hnumeral : Numeral 10 digits n) (count : Nat) :
    Numeral 10 (digits ++ List.replicate count '0') (n * 10 ^ count) := by
  obtain ⟨hdigits, rfl⟩ := numeral_ten_iff.1 hnumeral
  refine numeral_ten_iff.2 ⟨fun c hc => ?_, ?_⟩
  · rcases List.mem_append.1 hc with hc | hc
    · exact hdigits c hc
    · rw [List.eq_of_mem_replicate hc]
      rfl
  · rw [digitsValue, digitsValue, Nat.ofDigitChars_append, Nat.ofDigitChars_replicate_zero,
      Nat.mul_comm]

theorem zeros_append (hnumeral : Numeral 10 digits n) (count : Nat) :
    Numeral 10 (List.replicate count '0' ++ digits) n := by
  obtain ⟨hdigits, rfl⟩ := numeral_ten_iff.1 hnumeral
  refine numeral_ten_iff.2 ⟨fun c hc => ?_, ?_⟩
  · rcases List.mem_append.1 hc with hc | hc
    · rw [List.eq_of_mem_replicate hc]
      rfl
    · exact hdigits c hc
  · rw [digitsValue, digitsValue, Nat.ofDigitChars_append, Nat.ofDigitChars_replicate_zero,
      Nat.mul_zero]

end Numeral

end TimingReport.Number

namespace TimingReport.Json

open TimingReport.Number

/-! ## Layouts -/

theorem NumberText.of_parts {text sign whole point fraction tail : List Char} {negative : Bool}
    {n : Nat} {exponent : Int} {magnitude : ℚ} (hsign : MinusText sign negative)
    (hwhole : whole ≠ []) (hhead : whole.head? = some '0' → whole = ['0'])
    (hpoint : FractionText point fraction)
    (hfraction : point ≠ [] → fraction ≠ []) (hnumeral : Numeral 10 (whole ++ fraction) n)
    (htail : ExponentText tail exponent) (htext : text = sign ++ (whole ++ (point ++ tail)))
    (hvalue : magnitude = n * 10 ^ (exponent - fraction.length)) :
    NumberText text negative magnitude := by
  subst htext hvalue
  exact .intro hsign hwhole hhead hpoint hfraction hnumeral htail

section

variable {layout : Layout} {sign digits : List Char} {negative : Bool} {n : Nat}

theorem numberText_positional (hsign : MinusText sign negative) (hnumeral : Numeral 10 digits n)
    (hdigits : digits ≠ []) (hhead : digits.head? ≠ some '0') (point : Int) :
    NumberText (sign ++ layout.positionalText digits point) negative
      (n * 10 ^ (point - digits.length)) := by
  rw [Layout.positionalText]
  split
  · next hpoint =>
    have hall : Numeral 10 (['0'] ++ (zeros (-point) ++ digits)) n := by
      have hzeros := hnumeral.zeros_append ((-point).toNat + 1)
      rwa [Nat.add_comm, List.replicate_add, List.append_assoc] at hzeros
    refine .of_parts hsign (by simp) (by simp) (.point _) (by simp [hdigits]) hall .absent
      (by simp) ?_
    congr 2
    simp only [zeros, List.length_append, List.length_replicate]
    omega
  · next hpositive =>
    split
    · next hinside =>
      have hall : Numeral 10 (digits.take point.toNat ++ digits.drop point.toNat) n := by
        rwa [List.take_append_drop]
      have hwhole : digits.take point.toNat ≠ [] := by
        simp only [ne_eq, List.take_eq_nil_iff, not_or]
        exact ⟨by omega, hdigits⟩
      have hfirst : (digits.take point.toNat).head? = some '0' →
          digits.take point.toNat = ['0'] := by
        rw [List.head?_take, if_neg (by omega)]
        exact fun h => absurd h hhead
      have hrest : digits.drop point.toNat ≠ [] := by
        simp only [ne_eq, List.drop_eq_nil_iff]
        omega
      refine .of_parts hsign hwhole hfirst (.point _) (fun _ => hrest) hall .absent (by simp) ?_
      congr 2
      simp only [List.length_drop]
      omega
    · next hbehind =>
      obtain ⟨count, hcount⟩ := Int.eq_ofNat_of_zero_le (Int.sub_nonneg.2 (not_lt.1 hbehind))
      have hzeros : zeros (point - digits.length) = List.replicate count '0' := by
        rw [zeros, hcount, Int.toNat_natCast]
      have hwhole : digits ++ List.replicate count '0' ≠ [] := by simp [hdigits]
      have hfirst : (digits ++ List.replicate count '0').head? = some '0' →
          digits ++ List.replicate count '0' = ['0'] := by
        rw [List.head?_append_of_ne_nil _ hdigits]
        exact fun h => absurd h hhead
      rw [hzeros, hcount]
      split
      · have hall :
            Numeral 10 (digits ++ List.replicate count '0' ++ ['0']) (n * 10 ^ (count + 1)) := by
          have happended := hnumeral.append_zeros (count + 1)
          rwa [List.replicate_succ', ← List.append_assoc] at happended
        refine .of_parts hsign hwhole hfirst (.point _) (by simp) hall .absent (by simp) ?_
        push_cast
        rw [pow_succ, List.length_singleton, zpow_sub₀ (by norm_num), zpow_natCast]
        field_simp
        simp
      · have hall : Numeral 10 (digits ++ List.replicate count '0' ++ []) (n * 10 ^ count) := by
          rw [List.append_nil]
          exact hnumeral.append_zeros count
        refine .of_parts hsign hwhole hfirst .absent (by simp) hall .absent (by simp) ?_
        simp

theorem exponentText_decimalDigits (layout : Layout) (exponent : Int) :
    ExponentText ('e' ::
      ((if exponent < 0 then ['-'] else if layout.exponentPlus then ['+'] else []) ++
        decimalDigits exponent.natAbs)) exponent := by
  have hpower : ∀ sign negative, SignText sign negative →
      (if negative then -(exponent.natAbs : Int) else exponent.natAbs) = exponent →
      ExponentText ('e' :: (sign ++ decimalDigits exponent.natAbs)) exponent := by
    intro sign negative hsign hvalue
    have hsigned := SignedNumeral.intro hsign (decimalDigits_ne_nil exponent.natAbs)
      (numeral_decimalDigits exponent.natAbs)
    rw [hvalue] at hsigned
    exact .power (.inl rfl) hsigned
  split
  · exact hpower ['-'] true .minus (by rw [if_pos rfl]; omega)
  · split
    · exact hpower ['+'] false .plus (by rw [if_neg Bool.false_ne_true]; omega)
    · exact hpower [] false .absent (by rw [if_neg Bool.false_ne_true]; omega)

theorem numberText_scientific (hsign : MinusText sign negative) (hnumeral : Numeral 10 digits n)
    (hdigits : digits ≠ []) (hhead : digits.head? ≠ some '0') (exponent : Int) :
    NumberText (sign ++ layout.scientificText digits exponent) negative
      (n * 10 ^ (exponent - (digits.length - 1))) := by
  obtain ⟨first, rest, rfl⟩ := List.exists_cons_of_ne_nil hdigits
  have htail := exponentText_decimalDigits layout exponent
  have hfirst : [first].head? = some '0' → [first] = ['0'] := fun h => absurd h hhead
  rw [Layout.scientificText]
  simp only [List.take_succ_cons, List.take_zero, List.drop_succ_cons, List.drop_zero]
  cases rest with
  | nil =>
    exact .of_parts hsign (by simp) hfirst .absent (by simp) hnumeral htail (by simp) (by simp)
  | cons second rest =>
    exact .of_parts hsign (by simp) hfirst (.point (second :: rest)) (by simp) hnumeral htail
      (by simp)
      (by simp)

/-- A positive decimal is written as a number that JSON allows. -/
theorem numberText_decimalText (layout : Layout) (hsign : MinusText sign negative)
    {decimal : Decimal}
    (hpositive : 0 < decimal.digits) :
    NumberText (sign ++ layout.decimalText decimal) negative decimal.value := by
  have hnumeral := numeral_decimalDigits decimal.digits
  have hdigits := decimalDigits_ne_nil decimal.digits
  have hhead := head?_decimalDigits hpositive
  have hpositional : NumberText (sign ++ layout.positionalText (decimalDigits decimal.digits)
      ((decimalDigits decimal.digits).length + decimal.exponent)) negative decimal.value := by
    have htext := @numberText_positional layout _ _ _ _ hsign hnumeral hdigits hhead
      ((decimalDigits decimal.digits).length + decimal.exponent)
    rwa [add_sub_cancel_left] at htext
  simp only [Layout.decimalText]
  split
  · exact hpositional
  · split
    · exact hpositional
    · have htext := @numberText_scientific layout _ _ _ _ hsign hnumeral hdigits hhead
        ((decimalDigits decimal.digits).length + decimal.exponent - 1)
      rwa [show ((decimalDigits decimal.digits).length + decimal.exponent - 1 -
        ((decimalDigits decimal.digits).length - 1) : Int) = decimal.exponent by ring] at htext

theorem numberText_zero (layout : Layout) (hsign : MinusText sign negative) :
    NumberText (sign ++ '0' :: (if layout.pointZero then ['.', '0'] else [])) negative 0 := by
  have hzero : Numeral 10 ['0'] 0 := decimalDigits_zero ▸ numeral_decimalDigits 0
  split
  · exact .of_parts hsign (by simp) (fun _ => rfl) (.point ['0']) (by simp) (hzero.append_zeros 1)
      .absent (by simp) (by simp)
  · exact .of_parts hsign (by simp) (fun _ => rfl) .absent (by simp) (hzero.append_zeros 0) .absent
      (by simp) (by simp)

end

/-- An integer is written as a number that JSON allows. -/
theorem numberText_integerText (z : Int) :
    NumberText (integerText z) (decide (z < 0)) z.natAbs := by
  have hdigits : ∀ {sign negative} (n : Nat), MinusText sign negative →
      NumberText (sign ++ decimalDigits n) negative n := fun n hsign =>
    .of_parts hsign (decimalDigits_ne_nil n) decimalDigits_eq_of_head? .absent (by simp)
      ((numeral_decimalDigits n).append_zeros 0) .absent (by simp) (by simp)
  cases z with
  | ofNat n =>
    have hnonneg : ¬Int.ofNat n < 0 := not_lt.2 (Int.natCast_nonneg n)
    rw [decide_eq_false hnonneg]
    exact hdigits n .absent
  | negSucc n =>
    rw [decide_eq_true (Int.negSucc_lt_zero n)]
    exact hdigits (n + 1) .minus

/-! ## Doubles -/

/-- A finite double is written as a number that JSON allows, whatever the layout, and is the
nearest to that. -/
theorem numberText_ofPattern (layout : Layout) (negative : Bool) {pattern : Nat}
    (hpattern : pattern < infinityPattern) :
    let magnitude := if (magnitudeParts pattern).1 = 0 then 0
      else (shortest layout.tie (magnitudeParts pattern).1 (magnitudeParts pattern).2).value
    NumberText (layout.chars (ofPattern negative pattern)) negative magnitude ∧
      IsNearest (signed negative magnitude) (ofPattern negative pattern) := by
  have hsign : MinusText (signText negative) negative := by
    cases negative
    · exact .absent
    · exact .minus
  rw [Layout.chars, parts_ofPattern negative hpattern]
  simp only [Parts.chars, Layout.magnitudeText]
  rcases Nat.eq_zero_or_pos (magnitudeParts pattern).1 with hzero | hpositive
  · obtain rfl : pattern = 0 := by
      apply scaled_strictMono.injective
      rw [scaled_zero, scaled, hzero, Nat.zero_mul]
    rw [if_pos hzero, if_pos hzero]
    exact ⟨numberText_zero layout hsign, isNearest_zero negative⟩
  · rw [if_neg hpositive.ne', if_neg hpositive.ne']
    exact ⟨numberText_decimalText _ hsign (digits_shortest_pos _ hpositive _),
      isNearest_shortest _ negative hpattern hpositive⟩

/-- The magnitude that is written of a finite double. -/
def writtenMagnitude (x : Float) : ℚ :=
  match parts x with
  | .finite _ mantissa exponent =>
    if mantissa = 0 then 0 else (shortest Layout.json.tie mantissa exponent).value
  | _ => 0

theorem numberText_chars {x : Float} (hfinite : isFinite x = true) :
    NumberText (Layout.json.chars x) (isNegative x) (writtenMagnitude x) ∧
      IsNearest (signed (isNegative x) (writtenMagnitude x)) x := by
  obtain ⟨value, hvalue⟩ := Option.isSome_iff_exists.1 ((isFinite_iff_value? x).1 hfinite)
  obtain ⟨pattern, hpattern, hx⟩ := exists_ofPattern hvalue
  generalize isNegative x = negative at hx
  subst hx
  rw [writtenMagnitude, parts_ofPattern negative hpattern]
  exact numberText_ofPattern Layout.json negative hpattern

end TimingReport.Json
