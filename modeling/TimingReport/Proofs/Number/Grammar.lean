import Mathlib.Data.List.Induction
import TimingReport.Number.Literal
import TimingReport.Proofs.Fallible
import TimingReport.Proofs.Number.Nearest

/-!
# The language of number literals

The literals are given by a grammar that says what number each of them denotes, with no
reader in mind.  An integer literal is read exactly if its value fits 64 bits.
-/

namespace TimingReport.Number

open TimingReport.Fallible

/-- Digits in a base and the number that they denote. -/
inductive Numeral (base : Nat) : List Char → Nat → Prop where
  | nil : Numeral base [] 0
  | snoc {digits : List Char} {n : Nat} {c : Char} {digit : Nat} :
      Numeral base digits n → digitValue? base c = some digit →
      Numeral base (digits ++ [c]) (n * base + digit)

/-- An optional sign, and whether it is a minus. -/
inductive SignText : List Char → Bool → Prop where
  | absent : SignText [] false
  | plus : SignText ['+'] false
  | minus : SignText ['-'] true

/-- An optional sign and at least one digit. -/
inductive SignedNumeral (base : Nat) : List Char → Int → Prop where
  | intro {sign digits : List Char} {negative : Bool} {n : Nat} :
      SignText sign negative → digits ≠ [] → Numeral base digits n →
      SignedNumeral base (sign ++ digits) (if negative then -(n : Int) else n)

/-- An integer literal in base ten, or in base sixteen behind `0x`. -/
inductive IntegerText : List Char → Int → Prop where
  | decimal {text : List Char} {value : Int} :
      SignedNumeral 10 text value → IntegerText text value
  | hexadecimal {text : List Char} {value : Int} :
      SignedNumeral 16 text value → IntegerText ('0' :: 'x' :: text) value

/-- The digits behind a point, if there is one. -/
inductive FractionText : List Char → List Char → Prop where
  | absent : FractionText [] []
  | point (digits : List Char) : FractionText ('.' :: digits) digits

/-- The power of ten behind a letter, if there is one. -/
inductive ExponentText : List Char → Int → Prop where
  | absent : ExponentText [] 0
  | power {mark : Char} {text : List Char} {exponent : Int} :
      mark = 'e' ∨ mark = 'E' → SignedNumeral 10 text exponent →
      ExponentText (mark :: text) exponent

/-- A decimal literal: its sign, and the magnitude that its digits, the place of its point
and its exponent denote. -/
inductive DecimalText : List Char → Bool → ℚ → Prop where
  | intro {sign whole point fraction tail : List Char} {negative : Bool} {n : Nat}
      {exponent : Int} :
      SignText sign negative → FractionText point fraction → whole ++ fraction ≠ [] →
      Numeral 10 (whole ++ fraction) n → ExponentText tail exponent →
      DecimalText (sign ++ (whole ++ (point ++ tail))) negative
        (n * 10 ^ (exponent - fraction.length))

/-! ## Digits -/

namespace Numeral

variable {base : Nat}

theorem snoc_iff {digits : List Char} {c : Char} {n : Nat} :
    Numeral base (digits ++ [c]) n ↔
      ∃ m digit, Numeral base digits m ∧ digitValue? base c = some digit ∧
        n = m * base + digit := by
  constructor
  · intro hnumeral
    generalize hsnoc : digits ++ [c] = all at hnumeral
    cases hnumeral with
    | nil => simp at hsnoc
    | @snoc init m last digit hinit hlast =>
      obtain ⟨rfl, hc⟩ := List.append_inj' hsnoc rfl
      obtain rfl := List.singleton_inj.1 hc
      exact ⟨m, digit, hinit, hlast, rfl⟩
  · rintro ⟨m, digit, hinit, hlast, rfl⟩
    exact hinit.snoc hlast

theorem nil_iff {n : Nat} : Numeral base [] n ↔ n = 0 := by
  constructor
  · intro hnumeral
    generalize hnil : ([] : List Char) = all at hnumeral
    cases hnumeral with
    | nil => rfl
    | snoc => simp at hnil
  · rintro rfl
    exact .nil

theorem unique {digits : List Char} {left right : Nat} (hleft : Numeral base digits left)
    (hright : Numeral base digits right) : left = right := by
  induction hleft generalizing right with
  | nil => exact (nil_iff.1 hright).symm
  | snoc _ hdigit ih =>
    obtain ⟨m, digit, hinit, hlast, rfl⟩ := snoc_iff.1 hright
    rw [hdigit, Option.some.injEq] at hlast
    rw [ih hinit, hlast]

/-- Further digits make a numeral no smaller. -/
theorem le_of_append (hbase : 0 < base) {first rest : List Char} {n m : Nat}
    (hfirst : Numeral base first n) (hall : Numeral base (first ++ rest) m) : n ≤ m := by
  induction rest using List.reverseRecOn generalizing m with
  | nil =>
    rw [List.append_nil] at hall
    exact (hfirst.unique hall).le
  | append_singleton rest c ih =>
    rw [← List.append_assoc] at hall
    obtain ⟨k, digit, hinit, -, rfl⟩ := snoc_iff.1 hall
    calc n ≤ k := ih hinit
      _ ≤ k * base := Nat.le_mul_of_pos_right k hbase
      _ ≤ k * base + digit := Nat.le_add_right _ _

theorem exists_digitValue? {digits : List Char} {n : Nat} (hnumeral : Numeral base digits n) :
    ∀ c ∈ digits, ∃ digit, digitValue? base c = some digit := by
  induction hnumeral with
  | nil => exact fun c hc => absurd hc List.not_mem_nil
  | @snoc digits n last digit _ hlast ih =>
    intro c hc
    rcases List.mem_append.1 hc with hinit | hsingle
    · exact ih c hinit
    · rw [List.mem_singleton.1 hsingle]
      exact ⟨digit, hlast⟩

end Numeral

/-- Reading a magnitude behind digits that have been read gives the number that all of
them denote, if it is within the limit. -/
theorem magnitude_ok_iff {base limit : Nat} (hbase : 0 < base) (outOfRange : LiteralError)
    {done rest : List Char} {value n : Nat} (hdone : Numeral base done value)
    (hvalue : value ≤ limit) :
    magnitude base limit outOfRange value rest = .ok n ↔
      Numeral base (done ++ rest) n ∧ n ≤ limit := by
  induction rest generalizing done value with
  | nil =>
    rw [magnitude, List.append_nil, Except.ok.injEq]
    constructor
    · rintro rfl
      exact ⟨hdone, hvalue⟩
    · rintro ⟨hnumeral, -⟩
      exact hdone.unique hnumeral
  | cons c rest ih =>
    rw [magnitude, List.append_cons]
    cases hdigit : digitValue? base c with
    | none =>
      refine iff_of_false (by simp) fun ⟨hnumeral, _⟩ => ?_
      obtain ⟨digit, hsome⟩ := hnumeral.exists_digitValue? c (by simp)
      rw [hdigit] at hsome
      cases hsome
    | some digit =>
      have hnext := hdone.snoc hdigit
      simp only
      split
      · next hlarge =>
        refine iff_of_false (by simp) fun ⟨hnumeral, hlimit⟩ => ?_
        have hle := hnext.le_of_append hbase hnumeral
        omega
      · next hsmall => exact ih hnext (by omega)

/-! ## Integers -/

theorem not_numeral_sign {base : Nat} {c : Char} (hsign : c = '+' ∨ c = '-') {digits : List Char}
    {n : Nat} : ¬Numeral base (c :: digits) n := by
  intro hnumeral
  obtain ⟨digit, hdigit⟩ := hnumeral.exists_digitValue? c List.mem_cons_self
  rcases hsign with rfl | rfl <;> simp [digitValue?] at hdigit

theorem signedNumeral_sign_iff {base : Nat} {sign : Char} {negative : Bool}
    (hsign : SignText [sign] negative) {digits : List Char} {z : Int} :
    SignedNumeral base (sign :: digits) z ↔
      digits ≠ [] ∧ ∃ n : Nat, Numeral base digits n ∧ z = if negative then -(n : Int) else n := by
  constructor
  · intro hsigned
    generalize htext : sign :: digits = text at hsigned
    obtain ⟨hother, hdigits, hnumeral⟩ := hsigned
    cases hother with
    | absent =>
      have hchar : sign = '+' ∨ sign = '-' := by cases hsign <;> simp
      rw [List.nil_append] at htext
      exact absurd (htext ▸ hnumeral) (not_numeral_sign hchar)
    | plus =>
      obtain ⟨rfl, rfl⟩ := List.cons.inj htext
      cases hsign
      exact ⟨hdigits, _, hnumeral, rfl⟩
    | minus =>
      obtain ⟨rfl, rfl⟩ := List.cons.inj htext
      cases hsign
      exact ⟨hdigits, _, hnumeral, rfl⟩
  · rintro ⟨hdigits, n, hnumeral, rfl⟩
    exact .intro hsign hdigits hnumeral

theorem signedNumeral_unsigned_iff {base : Nat} {digits : List Char} {z : Int}
    (hplus : ∀ rest, digits ≠ '+' :: rest) (hminus : ∀ rest, digits ≠ '-' :: rest) :
    SignedNumeral base digits z ↔ digits ≠ [] ∧ ∃ n, Numeral base digits n ∧ z = n := by
  constructor
  · rintro ⟨hsign, hdigits, hnumeral⟩
    cases hsign with
    | absent => exact ⟨hdigits, _, hnumeral, rfl⟩
    | plus => exact absurd rfl (hplus _)
    | minus => exact absurd rfl (hminus _)
  · rintro ⟨hdigits, n, hnumeral, rfl⟩
    exact .intro .absent hdigits hnumeral

theorem magnitude_zero_ok_iff {base limit : Nat} (hbase : 0 < base) (outOfRange : LiteralError)
    {digits : List Char} {n : Nat} :
    magnitude base limit outOfRange 0 digits = .ok n ↔ Numeral base digits n ∧ n ≤ limit :=
  magnitude_ok_iff hbase outOfRange .nil (Nat.zero_le limit)

/-- A signed integer is read exactly if it is in the range. -/
theorem signedInteger_ok_iff {base : Nat} (hbase : 0 < base) (below above : Nat)
    (text : List Char) (z : Int) :
    signedInteger base below above text = .ok z ↔
      SignedNumeral base text z ∧ -(below : Int) ≤ z ∧ z ≤ above := by
  have hpositive : ∀ digits : List Char, digits ≠ [] →
      ((magnitude base above .tooLarge 0 digits).map Int.ofNat = .ok z ↔
        (digits ≠ [] ∧ ∃ n, Numeral base digits n ∧ z = n) ∧ -(below : Int) ≤ z ∧ z ≤ above) := by
    intro digits hdigits
    rw [map_ok_iff]
    constructor
    · rintro ⟨n, hn, rfl⟩
      obtain ⟨hnumeral, hle⟩ := (magnitude_zero_ok_iff hbase _).1 hn
      exact ⟨⟨hdigits, n, hnumeral, rfl⟩, by simp only [Int.ofNat_eq_natCast]; omega⟩
    · rintro ⟨⟨-, n, hnumeral, rfl⟩, -, hle⟩
      exact ⟨n, (magnitude_zero_ok_iff hbase _).2 ⟨hnumeral, Int.ofNat_le.1 hle⟩, rfl⟩
  rw [signedInteger.eq_def]
  split
  · refine iff_of_false (by simp) fun ⟨hsigned, _⟩ => ?_
    rw [signedNumeral_unsigned_iff (by simp) (by simp)] at hsigned
    exact hsigned.1 rfl
  · refine iff_of_false (by simp) fun ⟨hsigned, _⟩ => ?_
    exact ((signedNumeral_sign_iff .plus).1 hsigned).1 rfl
  · refine iff_of_false (by simp) fun ⟨hsigned, _⟩ => ?_
    exact ((signedNumeral_sign_iff .minus).1 hsigned).1 rfl
  · next digits hdigits =>
    rw [signedNumeral_sign_iff .plus]
    exact hpositive digits (by rintro rfl; exact hdigits rfl)
  · next digits hdigits =>
    rw [map_ok_iff, signedNumeral_sign_iff .minus]
    simp only [if_true]
    constructor
    · rintro ⟨n, hn, rfl⟩
      obtain ⟨hnumeral, hle⟩ := (magnitude_zero_ok_iff hbase _).1 hn
      exact ⟨⟨by rintro rfl; exact hdigits rfl, n, hnumeral, rfl⟩, by omega⟩
    · rintro ⟨⟨-, n, hnumeral, rfl⟩, hle, -⟩
      exact ⟨n, (magnitude_zero_ok_iff hbase _).2 ⟨hnumeral, by omega⟩, rfl⟩
  · next hempty _ _ hplus hminus =>
    rw [signedNumeral_unsigned_iff hplus hminus]
    exact hpositive text hempty

/-- An integer literal is read exactly if its value fits 64 bits. -/
theorem prefixedInteger64_ok_iff (text : List Char) (z : Int) :
    prefixedInteger64 text = .ok z ↔ IntegerText text z ∧ -2 ^ 63 ≤ z ∧ z ≤ 2 ^ 63 - 1 := by
  rw [prefixedInteger64.eq_def]
  split
  · next digits =>
    rw [signedInteger_ok_iff (by decide)]
    refine and_congr_left fun _ => ⟨.hexadecimal, fun htext => ?_⟩
    generalize hall : '0' :: 'x' :: digits = text at htext
    cases htext with
    | decimal hsigned =>
      subst hall
      rw [signedNumeral_unsigned_iff (by simp) (by simp)] at hsigned
      obtain ⟨-, n, hnumeral, -⟩ := hsigned
      obtain ⟨digit, hdigit⟩ := hnumeral.exists_digitValue? 'x' (by simp)
      simp [digitValue?] at hdigit
      omega
    | hexadecimal hsigned =>
      obtain rfl := (List.cons.inj (List.cons.inj hall).2).2
      exact hsigned
  · next hplain =>
    rw [integer64, signedInteger_ok_iff (by decide)]
    refine and_congr_left fun _ => ⟨.decimal, fun htext => ?_⟩
    cases htext with
    | decimal hsigned => exact hsigned
    | hexadecimal => exact absurd rfl (hplain _)

end TimingReport.Number
