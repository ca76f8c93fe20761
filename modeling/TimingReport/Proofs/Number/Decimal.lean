import Mathlib.Data.List.TakeWhile
import TimingReport.Proofs.Number.Grammar

/-!
# The doubles that decimal literals give

A decimal literal is taken apart into the digits before and behind its point and its
exponent.  The scales that are settled by size alone give the same double as rounding
would, so every literal gives the double that is nearest to its value.
-/

namespace TimingReport.Number

/-! ## The parts of a literal -/

theorem digitValue?_ten_iff (c : Char) (digit : Nat) :
    digitValue? 10 c = some digit ↔ isDecimalDigit c = true ∧ digit = c.toNat - '0'.toNat := by
  simp only [digitValue?, isDecimalDigit, Bool.and_eq_true, decide_eq_true_eq]
  split
  · next hdecimal =>
    have hsmall : c.toNat - '0'.toNat < 10 := by
      have hle : c.toNat ≤ '9'.toNat := hdecimal.2
      have hzero : '0'.toNat = 48 := rfl
      have hnine : '9'.toNat = 57 := rfl
      omega
    rw [Option.filter_some, if_pos (by simpa using hsmall), Option.some.injEq]
    exact ⟨fun h => ⟨hdecimal, h.symm⟩, fun h => h.2.symm⟩
  · next hother =>
    refine iff_of_false ?_ fun h => hother h.1
    split_ifs <;> simp <;> omega

theorem numeral_digitsValue {digits : List Char} (hdigits : ∀ c ∈ digits, isDecimalDigit c = true) :
    Numeral 10 digits (digitsValue digits) := by
  induction digits using List.reverseRecOn with
  | nil => exact .nil
  | append_singleton digits c ih =>
    have hlast := (digitValue?_ten_iff c _).2 ⟨hdigits c (by simp), rfl⟩
    have hinit := ih fun d hd => hdigits d (List.mem_append_left _ hd)
    have hvalue :
        digitsValue (digits ++ [c]) = digitsValue digits * 10 + (c.toNat - '0'.toNat) := by
      rw [digitsValue, Nat.ofDigitChars_append, Nat.ofDigitChars_cons, Nat.ofDigitChars_nil,
        Nat.mul_comm, digitsValue]
    rw [hvalue]
    exact hinit.snoc hlast

theorem numeral_ten_iff {digits : List Char} {n : Nat} :
    Numeral 10 digits n ↔ (∀ c ∈ digits, isDecimalDigit c = true) ∧ n = digitsValue digits := by
  constructor
  · intro hnumeral
    have hdigits : ∀ c ∈ digits, isDecimalDigit c = true := fun c hc => by
      obtain ⟨digit, hdigit⟩ := hnumeral.exists_digitValue? c hc
      exact ((digitValue?_ten_iff c digit).1 hdigit).1
    exact ⟨hdigits, hnumeral.unique (numeral_digitsValue hdigits)⟩
  · rintro ⟨hdigits, rfl⟩
    exact numeral_digitsValue hdigits

/-- Digits are split off up to where none follows. -/
theorem spanDigits_eq_iff {text digits rest : List Char} :
    spanDigits text = (digits, rest) ↔
      text = digits ++ rest ∧ (∀ c ∈ digits, isDecimalDigit c = true) ∧
        ∀ c ∈ rest.head?, isDecimalDigit c = false := by
  rw [spanDigits, List.span_eq_takeWhile_dropWhile, Prod.mk.injEq]
  constructor
  · rintro ⟨rfl, rfl⟩
    refine ⟨List.takeWhile_append_dropWhile.symm, fun c => List.mem_takeWhile_imp, fun c hc => ?_⟩
    have hhead := List.head?_dropWhile_not isDecimalDigit text
    rw [Option.mem_def.1 hc] at hhead
    simpa using hhead
  · rintro ⟨rfl, hdigits, hrest⟩
    rw [List.takeWhile_append_of_pos hdigits, List.dropWhile_append_of_pos hdigits]
    cases rest with
    | nil => simp
    | cons c rest =>
      have hc := hrest c (by simp)
      simp [hc]

theorem exists_numeral_ten_iff {digits : List Char} {property : Nat → Prop} :
    (∃ n, Numeral 10 digits n ∧ property n) ↔
      (∀ c ∈ digits, isDecimalDigit c = true) ∧ property (digitsValue digits) := by
  simp only [numeral_ten_iff, and_assoc]
  constructor
  · rintro ⟨n, hdigits, rfl, hproperty⟩
    exact ⟨hdigits, hproperty⟩
  · rintro ⟨hdigits, hproperty⟩
    exact ⟨_, hdigits, rfl, hproperty⟩

theorem signedNumeral_ten_iff_spanSign {text : List Char} {z : Int} :
    SignedNumeral 10 text z ↔
      (spanSign text).2 ≠ [] ∧ (∀ c ∈ (spanSign text).2, isDecimalDigit c = true) ∧
        z = if (spanSign text).1 then -(digitsValue (spanSign text).2 : Int)
          else digitsValue (spanSign text).2 := by
  rw [spanSign.eq_def]
  split
  · rw [signedNumeral_sign_iff .plus, exists_numeral_ten_iff]
  · rw [signedNumeral_sign_iff .minus, exists_numeral_ten_iff]
  · next hplus hminus =>
    rw [signedNumeral_unsigned_iff hplus hminus, exists_numeral_ten_iff]
    simp

theorem exponentPart?_eq_some_iff {text : List Char} {exponent : Int} :
    exponentPart? text = some exponent ↔ ExponentText text exponent := by
  cases text with
  | nil =>
    rw [exponentPart?, Option.some.injEq]
    constructor
    · rintro rfl
      exact .absent
    · rintro ⟨⟩
      rfl
  | cons mark rest =>
    have hpower : ExponentText (mark :: rest) exponent ↔
        (mark = 'e' ∨ mark = 'E') ∧ SignedNumeral 10 rest exponent := by
      constructor
      · rintro ⟨⟩
        exact ⟨‹_›, ‹_›⟩
      · exact fun h => .power h.1 h.2
    rw [hpower, exponentPart?, signedNumeral_ten_iff_spanSign]
    obtain ⟨negative, digits⟩ := spanSign rest
    by_cases hmark : mark = 'e' ∨ mark = 'E'
    · simp only [if_pos hmark, and_iff_right hmark, ← List.all_eq_true, ← and_assoc]
      by_cases hdigits : digits ≠ [] ∧ digits.all isDecimalDigit = true
      · rw [if_pos hdigits, Option.some.injEq, and_iff_right hdigits, eq_comm]
      · rw [if_neg hdigits]
        exact iff_of_false (by simp) fun h => hdigits h.1
    · rw [if_neg hmark]
      exact iff_of_false (by simp) fun h => hmark h.1

theorem fractionPart_spec (text : List Char) :
    ∃ point, text = point ++ (fractionPart text).2 ∧ FractionText point (fractionPart text).1 ∧
      ∀ c ∈ (fractionPart text).1, isDecimalDigit c = true := by
  rw [fractionPart.eq_def]
  split
  · next rest =>
    obtain ⟨hrest, hdigits, -⟩ := (@spanDigits_eq_iff rest _ _).1 Prod.mk.eta.symm
    refine ⟨'.' :: (spanDigits rest).1, ?_, .point _, hdigits⟩
    rw [List.cons_append, ← hrest]
  · exact ⟨[], rfl, .absent, by simp⟩

/-- An exponent part does not begin like more digits or a fraction. -/
theorem ExponentText.head {tail : List Char} {exponent : Int} (htail : ExponentText tail exponent) :
    ∀ c ∈ tail.head?, isDecimalDigit c = false ∧ c ≠ '.' := by
  rintro c hc
  cases htail with
  | absent => cases hc
  | power hmark =>
    obtain rfl := Option.some.inj hc
    rcases hmark with rfl | rfl <;> exact ⟨rfl, by decide⟩

theorem fractionPart_append {point fraction tail : List Char} {exponent : Int}
    (hfraction : FractionText point fraction) (hdigits : ∀ c ∈ fraction, isDecimalDigit c = true)
    (htail : ExponentText tail exponent) : fractionPart (point ++ tail) = (fraction, tail) := by
  cases hfraction with
  | absent =>
    rw [List.nil_append, fractionPart.eq_def]
    split
    · exact absurd rfl (htail.head '.' (by simp)).2
    · rfl
  | point =>
    rw [List.cons_append, fractionPart]
    exact spanDigits_eq_iff.2 ⟨rfl, hdigits, fun c hc => (htail.head c hc).1⟩

theorem decimalLiteral?_eq_some_iff {text : List Char} {literal : DecimalLiteral} :
    decimalLiteral? text = some literal ↔
      ∃ point tail, text = literal.whole ++ (point ++ tail) ∧
        (∀ c ∈ literal.whole ++ literal.fraction, isDecimalDigit c = true) ∧
        literal.whole ++ literal.fraction ≠ [] ∧ FractionText point literal.fraction ∧
        ExponentText tail literal.exponent := by
  obtain ⟨whole, fraction, exponent⟩ := literal
  rw [decimalLiteral?]
  constructor
  · intro hliteral
    obtain ⟨hwhole, hdigits, -⟩ := (@spanDigits_eq_iff text _ _).1 Prod.mk.eta.symm
    obtain ⟨point, hpoint, hfraction, hfractionDigits⟩ := fractionPart_spec (spanDigits text).2
    simp only at hliteral
    split_ifs at hliteral with hempty
    obtain ⟨_, hexponent, hparts⟩ := Option.map_eq_some_iff.1 hliteral
    obtain ⟨rfl, rfl, rfl⟩ := DecimalLiteral.mk.inj hparts
    refine ⟨point, _, ?_, ?_, ?_, hfraction, exponentPart?_eq_some_iff.1 hexponent⟩
    · rw [← hpoint, ← hwhole]
    · exact fun c hc => (List.mem_append.1 hc).elim (hdigits c) (hfractionDigits c)
    · exact fun h => hempty (List.append_eq_nil_iff.1 h)
  · rintro ⟨point, tail, rfl, hdigits, hnonempty, hfraction, htail⟩
    have hhead : ∀ c ∈ (point ++ tail).head?, isDecimalDigit c = false := by
      intro c hc
      cases hfraction with
      | absent => exact (htail.head c hc).1
      | point =>
        obtain rfl := Option.some.inj hc
        rfl
    have hspan := spanDigits_eq_iff.2
      ⟨rfl, fun c hc => hdigits c (List.mem_append_left _ hc), hhead⟩
    have hpart := fractionPart_append hfraction
      (fun c hc => hdigits c (List.mem_append_right _ hc)) htail
    simp only [hspan, hpart]
    rw [if_neg fun h => hnonempty (by rw [h.1, h.2]; rfl), exponentPart?_eq_some_iff.2 htail]
    rfl

/-! ## The double that a literal gives -/

theorem Numeral.lt_pow {base : Nat} {digits : List Char} {n : Nat}
    (hnumeral : Numeral base digits n) :
    n < base ^ digits.length := by
  induction hnumeral with
  | nil => exact Nat.one_pos
  | @snoc digits n c digit _ hdigit ih =>
    have hsmall : digit < base := by
      have hfilter := (Option.filter_eq_some_iff.1 hdigit).2
      simpa using hfilter
    calc n * base + digit < n * base + base := Nat.add_lt_add_left hsmall _
      _ = (n + 1) * base := (Nat.succ_mul n base).symm
      _ ≤ base ^ digits.length * base := Nat.mul_le_mul_right base ih
      _ = base ^ (digits ++ [c]).length := by
        rw [List.length_append, List.length_singleton, pow_succ]

theorem two_zpow_le_ten_zpow : (2 : ℚ) ^ (1203 : Int) ≤ 10 ^ (401 : Int) := by
  calc (2 : ℚ) ^ (1203 : Int) = (2 ^ (3 : Int)) ^ (401 : Int) := zpow_mul 2 3 401
    _ ≤ 10 ^ (401 : Int) := zpow_le_zpow_left₀ (by norm_num) (by norm_num) (by norm_num)

theorem roundingLimit_le : roundingLimit ≤ (10 : ℚ) ^ (401 : Int) := by
  have hpositive : (0 : ℚ) < 2 ^ 970 := by positivity
  calc roundingLimit ≤ 2 ^ 1024 := sub_le_self _ hpositive.le
    _ = 2 ^ (1024 : Int) := (zpow_natCast 2 1024).symm
    _ ≤ 2 ^ (1203 : Int) := zpow_le_zpow_right₀ (by norm_num) (by norm_num)
    _ ≤ 10 ^ (401 : Int) := two_zpow_le_ten_zpow

theorem ten_zpow_lt_half : (10 : ℚ) ^ (-401 : Int) / 2 ^ minExponent < 1 / 2 := by
  have hsmall : (10 : ℚ) ^ (-401 : Int) ≤ 2 ^ (-1203 : Int) := by
    rw [zpow_neg, zpow_neg]
    exact inv_anti₀ (by positivity) two_zpow_le_ten_zpow
  calc (10 : ℚ) ^ (-401 : Int) / 2 ^ minExponent ≤ 2 ^ (-1203 : Int) / 2 ^ minExponent := by
        gcongr
    _ = 2 ^ (-129 : Int) := (zpow_sub₀ (by norm_num) (-1203) minExponent).symm
    _ < 2 ^ (-1 : Int) := zpow_lt_zpow_right₀ (by norm_num) (by norm_num)
    _ = 1 / 2 := by norm_num

theorem nearestPattern_of_limit_le (num : Nat) {den : Nat} (hden : 0 < den)
    (hlarge : roundingLimit ≤ num / den) : nearestPattern num den = infinityPattern := by
  have hnot := mt (nearestPattern_lt_iff num hden).1 (not_lt.2 hlarge)
  exact le_antisymm (nearestPattern_le num den) (not_lt.1 hnot)

theorem nearestPattern_of_lt_half (num : Nat) {den : Nat} (hden : 0 < den)
    (hsmall : (num / den / 2 ^ minExponent : ℚ) < 1 / 2) : nearestPattern num den = 0 := by
  obtain ⟨scale, mantissa, hpattern, hrounds⟩ := exists_roundsTo num hden
  rw [hpattern, hrounds.eq_zero_of_lt_half hsmall, Nat.min_zero]

namespace DecimalLiteral

/-- The number that a literal denotes, as the quotient that is rounded. -/
theorem quotient_eq (literal : DecimalLiteral) :
    ((literal.digits * Nat.pow 10 literal.scale.toNat : Nat) : ℚ) /
        (Nat.pow 10 (-literal.scale).toNat : Nat) =
      literal.digits * 10 ^ literal.scale := by
  rw [Nat.pow_eq, Nat.pow_eq]
  push_cast
  rw [mul_div_assoc, pow_toNat_div]

/-- The literals that are settled by their size alone are rounded like all others. -/
theorem value_eq_nearest (literal : DecimalLiteral) (negative : Bool)
    (hdigits : ∀ c ∈ literal.whole ++ literal.fraction, isDecimalDigit c = true) :
    literal.value negative =
      nearest negative (literal.digits * Nat.pow 10 literal.scale.toNat)
        (Nat.pow 10 (-literal.scale).toNat) := by
  have hden : 0 < Nat.pow 10 (-literal.scale).toNat := Nat.pow_pos (by decide)
  rw [value]
  split
  · next hzero =>
    rw [hzero, Nat.zero_mul, nearest, nearestPattern_zero]
  · next hnonzero =>
    have hone : (1 : ℚ) ≤ literal.digits := by exact_mod_cast Nat.pos_of_ne_zero hnonzero
    split
    · next hlarge =>
      rw [nearest, nearestPattern_of_limit_le _ hden, infinity]
      rw [quotient_eq]
      calc roundingLimit ≤ (10 : ℚ) ^ (401 : Int) := roundingLimit_le
        _ ≤ 10 ^ literal.scale := zpow_le_zpow_right₀ (by norm_num) hlarge
        _ ≤ literal.digits * 10 ^ literal.scale :=
          le_mul_of_one_le_left (by positivity) hone
    · split
      · next hsmall =>
        rw [nearest, nearestPattern_of_lt_half _ hden]
        have hcount : (literal.digits : ℚ) ≤
            10 ^ ((literal.whole.length : Int) + literal.fraction.length) := by
          have hlt := (numeral_digitsValue hdigits).lt_pow
          rw [List.length_append] at hlt
          exact_mod_cast hlt.le
        rw [quotient_eq]
        refine lt_of_le_of_lt ?_ ten_zpow_lt_half
        gcongr
        calc (literal.digits * 10 ^ literal.scale : ℚ)
            ≤ 10 ^ ((literal.whole.length : Int) + literal.fraction.length) *
              10 ^ literal.scale := by
              gcongr
          _ = 10 ^ ((literal.whole.length : Int) + literal.fraction.length + literal.scale) :=
            (zpow_add₀ (by norm_num) _ _).symm
          _ ≤ 10 ^ (-401 : Int) := zpow_le_zpow_right₀ (by norm_num) (by omega)
      · rfl

end DecimalLiteral

theorem spanSign_spec (text : List Char) :
    ∃ sign, SignText sign (spanSign text).1 ∧ text = sign ++ (spanSign text).2 := by
  rw [spanSign.eq_def]
  split
  · exact ⟨['+'], .plus, rfl⟩
  · exact ⟨['-'], .minus, rfl⟩
  · exact ⟨[], .absent, rfl⟩

theorem spanSign_append {sign rest : List Char} {negative : Bool} (hsign : SignText sign negative)
    (hrest : ∀ c ∈ rest.head?, c ≠ '+' ∧ c ≠ '-') : spanSign (sign ++ rest) = (negative, rest) := by
  cases hsign with
  | absent =>
    rw [List.nil_append, spanSign.eq_def]
    split
    · exact absurd rfl (hrest '+' rfl).1
    · exact absurd rfl (hrest '-' rfl).2
    · rfl
  | plus => rfl
  | minus => rfl

/-- The unsigned part of a decimal literal begins with a digit or a point. -/
theorem head_of_decimalLiteral? {text : List Char} {literal : DecimalLiteral}
    (hliteral : decimalLiteral? text = some literal) :
    ∃ c rest, text = c :: rest ∧ (isDecimalDigit c = true ∨ c = '.') := by
  obtain ⟨whole, fraction, exponent⟩ := literal
  obtain ⟨point, tail, rfl, hdigits, hnonempty, hfraction, -⟩ :=
    decimalLiteral?_eq_some_iff.1 hliteral
  cases whole with
  | cons c rest => exact ⟨c, _, rfl, .inl (hdigits c List.mem_cons_self)⟩
  | nil =>
    cases hfraction with
    | absent => exact absurd rfl hnonempty
    | point => exact ⟨'.', _, rfl, .inr rfl⟩

theorem not_letter_of_digit_or_point {c : Char} (hc : isDecimalDigit c = true ∨ c = '.') :
    ¬ 'a' ≤ c.toLower := by
  have hsmall : c ≤ '9' := by
    rcases hc with hdigit | rfl
    · simp only [isDecimalDigit, Bool.and_eq_true, decide_eq_true_eq] at hdigit
      exact hdigit.2
    · decide
  have hletter : ¬(c.val ≥ 'A'.val ∧ c.val ≤ 'Z'.val) := fun h =>
    absurd (show 'A' ≤ '9' from Char.le_trans h.1 hsmall) (by decide)
  have hsame : c.toLower = c := dif_neg hletter
  rw [hsame]
  exact fun h => absurd (Char.le_trans h hsmall) (by decide)

/-- A word is no number. -/
theorem isWord_cons_eq_false {first : Char} {letters : List Char} (hfirst : 'a' ≤ first) {c : Char}
    {rest : List Char} (hc : isDecimalDigit c = true ∨ c = '.') :
    isWord (String.ofList (first :: letters)) (c :: rest) = false := by
  rw [isWord, String.toList_ofList, List.map_cons, beq_eq_false_iff_ne]
  intro heq
  obtain rfl := (List.cons.inj heq).1
  exact not_letter_of_digit_or_point hc hfirst

theorem decimalText_iff {text : List Char} {negative : Bool} {magnitude : ℚ} :
    DecimalText text negative magnitude ↔
      ∃ literal, decimalLiteral? (spanSign text).2 = some literal ∧ (spanSign text).1 = negative ∧
        literal.digits * 10 ^ literal.scale = magnitude := by
  constructor
  · rintro ⟨hsign, hfraction, hnonempty, hnumeral, hexponent⟩
    next sign whole point fraction tail n exponent =>
    obtain ⟨hdigits, rfl⟩ := numeral_ten_iff.1 hnumeral
    have hliteral : decimalLiteral? (whole ++ (point ++ tail)) = some ⟨whole, fraction, exponent⟩ :=
      decimalLiteral?_eq_some_iff.2 ⟨point, tail, rfl, hdigits, hnonempty, hfraction, hexponent⟩
    obtain ⟨c, rest, htext, hc⟩ := head_of_decimalLiteral? hliteral
    have hspan : spanSign (sign ++ (whole ++ (point ++ tail))) =
        (negative, whole ++ (point ++ tail)) := by
      refine spanSign_append hsign fun d hd => ?_
      rw [htext] at hd
      obtain rfl := Option.some.inj hd
      constructor <;> rintro rfl <;> simp [isDecimalDigit] at hc
    rw [hspan]
    exact ⟨_, hliteral, rfl, rfl⟩
  · rintro ⟨⟨whole, fraction, exponent⟩, hliteral, rfl, rfl⟩
    obtain ⟨point, tail, htext, hdigits, hnonempty, hfraction, hexponent⟩ :=
      decimalLiteral?_eq_some_iff.1 hliteral
    obtain ⟨sign, hsign, hall⟩ := spanSign_spec text
    have hdecimal := DecimalText.intro hsign hfraction hnonempty
      (numeral_digitsValue hdigits) hexponent
    rw [← htext, ← hall] at hdecimal
    exact hdecimal

theorem DecimalText.unique {text : List Char} {negative negative' : Bool} {magnitude magnitude' : ℚ}
    (htext : DecimalText text negative magnitude) (hother : DecimalText text negative' magnitude') :
    negative' = negative ∧ magnitude' = magnitude := by
  obtain ⟨literal, hliteral, rfl, rfl⟩ := decimalText_iff.1 htext
  obtain ⟨literal', hliteral', rfl, rfl⟩ := decimalText_iff.1 hother
  obtain rfl : literal = literal' := Option.some.inj (hliteral.symm.trans hliteral')
  exact ⟨rfl, rfl⟩

namespace DecimalLiteral

theorem isNearest_value {text : List Char} {literal : DecimalLiteral}
    (hliteral : decimalLiteral? text = some literal) (negative : Bool) :
    (isFinite (literal.value negative) = true ↔
        literal.digits * 10 ^ literal.scale < roundingLimit) ∧
      (literal.digits * 10 ^ literal.scale < roundingLimit →
        IsNearest (signed negative (literal.digits * 10 ^ literal.scale))
          (literal.value negative)) ∧
      isNegative (literal.value negative) = negative := by
  obtain ⟨_, _, _, hdigits, -⟩ := decimalLiteral?_eq_some_iff.1 hliteral
  have hden : 0 < Nat.pow 10 (-literal.scale).toNat := Nat.pow_pos (by decide)
  rw [value_eq_nearest literal negative hdigits, ← quotient_eq]
  exact ⟨isFinite_nearest_iff negative _ hden, isNearest_nearest negative _ hden,
    isNegative_nearest negative _ _⟩

end DecimalLiteral

theorem not_isFinite_infinity (negative : Bool) : ¬isFinite (infinity negative) = true := by
  rw [isFinite_iff_value?, infinity, value?_ofPattern_infinity]
  exact Bool.false_ne_true

theorem not_isFinite_notANumber : ¬isFinite notANumber = true := by decide +kernel

theorem float_eq_of_literal {text : List Char} {literal : DecimalLiteral}
    (hliteral : decimalLiteral? (spanSign text).2 = some literal) :
    float text = .ok (literal.value (spanSign text).1) := by
  obtain ⟨c, rest, hrest, hc⟩ := head_of_decimalLiteral? hliteral
  have hnonempty : text ≠ [] := by
    rintro rfl
    simp [spanSign] at hrest
  have hinf : isWord "inf" (spanSign text).2 = false := hrest ▸ isWord_cons_eq_false (by decide) hc
  have hinfinity : isWord "infinity" (spanSign text).2 = false :=
    hrest ▸ isWord_cons_eq_false (by decide) hc
  have hnan : isWord "nan" (spanSign text).2 = false := hrest ▸ isWord_cons_eq_false (by decide) hc
  rw [float, if_neg hnonempty]
  simp only [hinf, hinfinity, hnan, hliteral, Bool.or_false, Bool.false_eq_true, if_false]

theorem literal_of_float_finite {text : List Char} {x : Float} (hread : float text = .ok x)
    (hfinite : isFinite x = true) :
    ∃ literal, decimalLiteral? (spanSign text).2 = some literal ∧
      x = literal.value (spanSign text).1 := by
  rw [float] at hread
  simp only at hread
  split_ifs at hread
  · obtain rfl := Except.ok.inj hread
    exact absurd hfinite (not_isFinite_infinity _)
  · obtain rfl := Except.ok.inj hread
    exact absurd hfinite not_isFinite_notANumber
  · split at hread
    · next literal hliteral => exact ⟨literal, hliteral, (Except.ok.inj hread).symm⟩
    · cases hread

/-- A text is read as a finite double exactly if it is a decimal literal below the limit,
and then the double is the nearest one. -/
theorem float_finite_iff (text : List Char) (x : Float) :
    float text = .ok x ∧ isFinite x = true ↔
      ∃ negative magnitude, DecimalText text negative magnitude ∧ magnitude < roundingLimit ∧
        IsNearest (signed negative magnitude) x ∧ isNegative x = negative := by
  simp only [decimalText_iff]
  constructor
  · rintro ⟨hread, hfinite⟩
    obtain ⟨literal, hliteral, rfl⟩ := literal_of_float_finite hread hfinite
    obtain ⟨hlimit, hnearest, hsign⟩ :=
      DecimalLiteral.isNearest_value hliteral (spanSign text).1
    have hbelow := hlimit.1 hfinite
    exact ⟨_, _, ⟨literal, hliteral, rfl, rfl⟩, hbelow, hnearest hbelow, hsign⟩
  · rintro ⟨negative, magnitude, ⟨literal, hliteral, rfl, rfl⟩, hbelow, hnearest, hsign⟩
    obtain ⟨hlimit, hvalueNearest, hvalueSign⟩ :=
      DecimalLiteral.isNearest_value hliteral (spanSign text).1
    obtain rfl : x = literal.value (spanSign text).1 :=
      hnearest.unique (hvalueNearest hbelow) (hsign.trans hvalueSign.symm)
    exact ⟨float_eq_of_literal hliteral, hlimit.2 hbelow⟩

theorem exists_isNearest {text : List Char} {negative : Bool} {magnitude : ℚ}
    (htext : DecimalText text negative magnitude) (hlimit : magnitude < roundingLimit) :
    ∃ x, IsNearest (signed negative magnitude) x ∧ isNegative x = negative := by
  obtain ⟨literal, hliteral, rfl, rfl⟩ := decimalText_iff.1 htext
  obtain ⟨-, hnearest, hsign⟩ := DecimalLiteral.isNearest_value hliteral (spanSign text).1
  exact ⟨_, hnearest hlimit, hsign⟩

end TimingReport.Number
