import TimingReport.Number.Binary64

/-!
# The fewest digits that read back

Every double is the nearest one for all decimals in an interval around it. The search
tries ever finer decimal grids; on each it looks at the two points next to the value,
and the first grid with a point in the interval wins. Of two points the nearer is taken.
-/

namespace TimingReport.Number

/-- The decimal number `digits · 10 ^ exponent`. -/
structure Decimal where
  digits : Nat
  exponent : Int
  deriving DecidableEq, Repr

/-- The reals that round to one double, as numerators over a common denominator. -/
structure ReadingInterval where
  low : Nat
  value : Nat
  high : Nat
  den : Nat
  /-- Whether the ends themselves round to the double. -/
  closed : Bool

/-- The interval of `mantissa · 2 ^ exponent`; below a power of two the next double is
half as far away. -/
def readingInterval (mantissa : Nat) (exponent : Int) : ReadingInterval :=
  let below := if mantissa = fractionSize ∧ minExponent < exponent then 1 else 2
  let scale := Nat.pow 2 (exponent - 2).toNat
  { low := (4 * mantissa - below) * scale
    value := 4 * mantissa * scale
    high := (4 * mantissa + 2) * scale
    den := Nat.pow 2 (2 - exponent).toNat
    closed := mantissa % 2 = 0 }

namespace ReadingInterval

/-- Whether `point / den` rounds to the double. -/
def contains (interval : ReadingInterval) (point : Nat) : Bool :=
  if interval.closed then interval.low ≤ point && point ≤ interval.high
  else interval.low < point && point < interval.high

/-- The point of the grid of multiples of `10 ^ grid` that reads back and is nearest to
the value. -/
def nearestOnGrid (tie : Tie) (interval : ReadingInterval) (grid : Int) : Option Nat :=
  let unit := interval.den * Nat.pow 10 grid.toNat
  let widen := Nat.pow 10 (-grid).toNat
  let scaled : ReadingInterval :=
    { interval with
      low := interval.low * widen
      value := interval.value * widen
      high := interval.high * widen }
  let under := scaled.value / unit
  let nearer := roundDiv tie scaled.value unit
  if scaled.contains (nearer * unit) then some nearer
  else if scaled.contains (under * unit) then some under
  else if scaled.contains ((under + 1) * unit) then some (under + 1)
  else none

/-- Tries the grids `10 ^ grid`, `10 ^ (grid - 1)`, … in turn. -/
def search (tie : Tie) (interval : ReadingInterval) : Nat → Int → Option Decimal
  | 0, _ => none
  | steps + 1, grid =>
    match interval.nearestOnGrid tie grid with
    | some digits => some ⟨digits, grid⟩
    | none => interval.search tie steps (grid - 1)

end ReadingInterval

/-- The exact value `mantissa · 2 ^ exponent` in decimal. -/
def exactDecimal (mantissa : Nat) (exponent : Int) : Decimal :=
  if 0 ≤ exponent then ⟨mantissa * Nat.pow 2 exponent.toNat, 0⟩
  else ⟨mantissa * Nat.pow 5 (-exponent).toNat, exponent⟩

/-- An exponent of ten that is above the value: `2 ^ k ≤ 10 ^ (k · 30103 / 100000 + 1)`
in the range of doubles. -/
def coarsestGrid (mantissa : Nat) (exponent : Int) : Int :=
  (((mantissa.log2 : Int) + 1 + exponent) * 30103) / 100000 + 1

/-- Seventeen digits tell any two doubles apart, and the search starts at most two grids
above the first digit. -/
def searchLength : Nat := 20

/-- The shortest decimal that reads back as the positive double `mantissa · 2 ^
exponent`. -/
def shortest (tie : Tie) (mantissa : Nat) (exponent : Int) : Decimal :=
  match (readingInterval mantissa exponent).search tie searchLength
      (coarsestGrid mantissa exponent) with
  | some decimal => decimal
  | none => exactDecimal mantissa exponent

end TimingReport.Number
