import TimingReport.Number.Layout

/-!
# Numbers with a fixed count of digits

The exact value is rounded, ties to even: to an integer, or to two digits in front of a
power of ten.
-/

namespace TimingReport.Number

/-- The value to the nearest integer. -/
def integerChars (num den : Nat) : List Char := decimalDigits (roundDiv .toEven num den)

/-- Two digits and a power of ten, for a value of at least one. -/
structure TwoDigits where
  digits : Nat
  power : Nat
  deriving DecidableEq, Repr

/-- The two digits nearest to `num / den`, at least one: `99.6` is rounded to `1.0e2`.
-/
def twoDigits (num den : Nat) : TwoDigits :=
  let power := (decimalDigits (num / den)).length - 1
  let digits := roundDiv .toEven (num * 10) (den * Nat.pow 10 power)
  if digits = 100 then ⟨10, power + 1⟩ else ⟨digits, power⟩

def TwoDigits.chars (n : TwoDigits) : List Char :=
  decimalDigits (n.digits / 10) ++ '.' :: decimalDigits (n.digits % 10) ++
    'e' :: decimalDigits n.power

/-- The number rounded to an integer. -/
def integerText (x : Float) : String :=
  String.ofList ((parts x).chars fun mantissa exponent =>
    let (num, den) := quotient mantissa exponent
    integerChars num den)

/-- The number rounded to two digits, for a magnitude of at least one. -/
def twoDigitText (x : Float) : String :=
  String.ofList ((parts x).chars fun mantissa exponent =>
    let (num, den) := quotient mantissa exponent
    (twoDigits num den).chars)

end TimingReport.Number
