import TimingReport.Number.Rounding

/-!
# Doubles as exact numbers

A double is taken apart into its sign and an exact value `mantissa · 2 ^ exponent`, and
the double nearest to an exact quotient is put together. The patterns of the
non-negative doubles are numbered in the order of their values, so rounding to a pattern
and carrying into the next power of two are one addition.
-/

namespace TimingReport.Number

/-- The value of a double. -/
inductive Parts where
  | nan
  | infinite (negative : Bool)
  /-- The number `±mantissa · 2 ^ exponent`; a zero keeps its sign. -/
  | finite (negative : Bool) (mantissa : Nat) (exponent : Int)
  deriving DecidableEq, Repr

/-- The exponent of the last place of the smallest doubles. -/
def minExponent : Int := -1074

/-- The number `2 ^ 52` of doubles from a power of two up to the next. -/
def fractionSize : Nat := 4503599627370496

/-- The pattern `2 ^ 63` of the sign. -/
def signPattern : Nat := 9223372036854775808

/-- The pattern `2047 · 2 ^ 52` of infinity, one past the pattern of the largest finite
double. -/
def infinityPattern : Nat := 9218868437227405312

/-- The exact value of the finite pattern `pattern < infinityPattern`. -/
def magnitudeParts (pattern : Nat) : Nat × Int :=
  let field : Nat := pattern / fractionSize
  let fraction : Nat := pattern % fractionSize
  if field = 0 then (fraction, minExponent)
  else (fractionSize + fraction, (field : Int) - 1075)

def partsOfPattern (pattern : Nat) : Parts :=
  let negative := decide (signPattern ≤ pattern)
  let magnitude := pattern % signPattern
  if magnitude < infinityPattern then
    let (mantissa, exponent) := magnitudeParts magnitude
    .finite negative mantissa exponent
  else if magnitude = infinityPattern then .infinite negative
  else .nan

def parts (x : Float) : Parts := partsOfPattern x.toBits.toNat

/-- The number `mantissa · 2 ^ exponent` as a quotient of natural numbers. -/
def quotient (mantissa : Nat) (exponent : Int) : Nat × Nat :=
  (mantissa * Nat.pow 2 exponent.toNat, Nat.pow 2 (-exponent).toNat)

/-- Whether `2 ^ k ≤ num / den`. -/
def atLeastPowerOfTwo (k : Int) (num den : Nat) : Bool :=
  den * Nat.pow 2 k.toNat ≤ num * Nat.pow 2 (-k).toNat

/-- The greatest `k` with `2 ^ k ≤ num / den`, for a positive quotient. -/
def floorLogTwo (num den : Nat) : Int :=
  let guess : Int := (num.log2 : Int) - den.log2
  if atLeastPowerOfTwo guess num den then guess else guess - 1

/-- The pattern of the double nearest to `num / den`, ties to even; too large a quotient
gives infinity. -/
def nearestPattern (num den : Nat) : Nat :=
  if num = 0 then 0
  else
    let exponent := max (floorLogTwo num den - 52) minExponent
    let mantissa :=
      roundDiv .toEven (num * Nat.pow 2 (-exponent).toNat)
        (den * Nat.pow 2 exponent.toNat)
    min infinityPattern ((exponent - minExponent).toNat * fractionSize + mantissa)

def ofPattern (negative : Bool) (magnitude : Nat) : Float :=
  Float.ofBits (UInt64.ofNat (if negative then signPattern + magnitude else magnitude))

/-- The double nearest to `±num / den`, ties to even. -/
def nearest (negative : Bool) (num den : Nat) : Float :=
  ofPattern negative (nearestPattern num den)

def notANumber : Float := Float.ofBits 0x7ff8000000000000

def infinity (negative : Bool) : Float := ofPattern negative infinityPattern

/-- The double nearest to an integer. -/
def ofInteger (n : Int) : Float := nearest (decide (n < 0)) n.natAbs 1

/-- The position of a double in the total order that puts `-0` before `0`. -/
def orderKey (x : Float) : Int :=
  let pattern := x.toBits.toNat
  if signPattern ≤ pattern then -((pattern % signPattern : Nat) : Int) - 1
  else (pattern : Int)

def isFinite (x : Float) : Bool :=
  match parts x with
  | .finite .. => true
  | _ => false

/-- The integer next to `x` in the given direction, limited to `low..high`; what is not
a number gives zero. -/
def clampedInteger (direction : Direction) (low high : Int) (x : Float) : Int :=
  match parts x with
  | .nan => 0
  | .infinite negative => if negative then low else high
  | .finite negative mantissa exponent =>
    let (num, den) := quotient mantissa exponent
    max low (min high (direction.round negative num den))

/-- The largest count that fits 32 bits. -/
def maxWord32 : Int := 4294967295

/-- The largest count that fits 64 bits. -/
def maxWord64 : Int := 18446744073709551615

end TimingReport.Number
