import TimingReport.Json.Printer
import TimingReport.Proofs.Number.Decimal

/-!
# Digits that are written

The decimal digits of a number denote it, and they are all that an integer is written with,
apart from its sign; so no two integers are written alike.
-/

namespace TimingReport.Number

theorem isDecimalDigit_of_mem {n : Nat} {c : Char} (hc : c ∈ decimalDigits n) :
    isDecimalDigit c = true := by
  have hdigit := Nat.isDigit_of_mem_toDigits (by decide) (by decide) hc
  simpa [isDecimalDigit, Char.isDigit, Char.le_def] using hdigit

theorem decimalDigits_ne_nil (n : Nat) : decimalDigits n ≠ [] := Nat.toDigits_ne_nil

theorem digitsValue_decimalDigits (n : Nat) : digitsValue (decimalDigits n) = n :=
  Nat.ofDigitChars_ten_toDigits

theorem numeral_decimalDigits (n : Nat) : Numeral 10 (decimalDigits n) n :=
  numeral_ten_iff.2 ⟨fun _ => isDecimalDigit_of_mem, (digitsValue_decimalDigits n).symm⟩

theorem signedNumeral_integerText (z : Int) : SignedNumeral 10 (Json.integerText z) z := by
  cases z with
  | ofNat n => exact .intro .absent (decimalDigits_ne_nil n) (numeral_decimalDigits n)
  | negSucc n => exact .intro .minus (decimalDigits_ne_nil _) (numeral_decimalDigits (n + 1))

/-- An integer is written with digits and a minus. -/
theorem mem_integerText {z : Int} {c : Char} (hc : c ∈ Json.integerText z) :
    c = '-' ∨ isDecimalDigit c = true := by
  cases z with
  | ofNat n => exact .inr (isDecimalDigit_of_mem hc)
  | negSucc n => exact (List.mem_cons.1 hc).imp id isDecimalDigit_of_mem

theorem toList_toString (z : Int) : (toString z).toList = Json.integerText z := by
  cases z with
  | ofNat n => simp [Json.integerText, decimalDigits, toString, Int.repr, Nat.repr]
  | negSucc n => simp [Json.integerText, decimalDigits, toString, Int.repr, Nat.repr]

/-- No two integers have the same text, as it denotes one of them. -/
theorem integerText_injective : Function.Injective Json.integerText := by
  intro z z' heq
  obtain ⟨-, -, hvalue⟩ := signedNumeral_ten_iff_spanSign.1 (signedNumeral_integerText z)
  obtain ⟨-, -, hvalue'⟩ := signedNumeral_ten_iff_spanSign.1 (signedNumeral_integerText z')
  rw [hvalue, hvalue', heq]

/-- The digits of a number, without a point, denote it behind any sign. -/
theorem decimalText_signed {sign : List Char} {negative : Bool} (hsign : SignText sign negative)
    (n : Nat) : DecimalText (sign ++ decimalDigits n) negative n := by
  have htext := @DecimalText.intro sign (decimalDigits n) [] [] [] negative n 0 hsign .absent
    (by simpa using decimalDigits_ne_nil n) (by simpa using numeral_decimalDigits n) .absent
  simpa using htext

theorem decimalText_decimalDigits (n : Nat) : DecimalText (decimalDigits n) false n :=
  decimalText_signed .absent n

end TimingReport.Number
