/-!
# Rounding of exact quotients

A quotient of natural numbers is rounded to a neighbouring integer. Ties are settled by
the caller, so one definition serves the reading of decimals, the printing of fixed
places and the placing of pixels.
-/

namespace TimingReport.Number

/-- What happens to a quotient that lies exactly between two integers. -/
inductive Tie where
  | toEven
  | up
  deriving DecidableEq, Repr

/-- The integer nearest to `num / den`; the quotient must have a positive denominator.
-/
def roundDiv (tie : Tie) (num den : Nat) : Nat :=
  let quotient := num / den
  let twice := 2 * (num % den)
  if twice < den then quotient
  else if den < twice then quotient + 1
  else match tie with
    | .toEven => quotient + quotient % 2
    | .up => quotient + 1

/-- The rounded quotient is at most half a unit too large. -/
theorem roundDiv_mul_le (tie : Tie) (num den : Nat) :
    2 * (roundDiv tie num den * den) ≤ 2 * num + den := by
  have hdivision := Nat.div_add_mod num den
  have hsplit : (num / den + 1) * den = den * (num / den) + den := by
    rw [Nat.add_mul, Nat.one_mul, Nat.mul_comm]
  have hfloor : num / den * den = den * (num / den) := Nat.mul_comm _ _
  have hparity := Nat.mod_two_eq_zero_or_one (num / den)
  simp only [roundDiv]
  split
  · omega
  · split
    · omega
    · cases tie with
      | up => simp only; omega
      | toEven => rcases hparity with h | h <;> simp only [h, Nat.add_zero] <;> omega

/-- The rounded quotient is at most half a unit too small. -/
theorem le_roundDiv_mul (tie : Tie) (num den : Nat) (hpositive : 0 < den) :
    2 * num ≤ 2 * (roundDiv tie num den * den) + den := by
  have hdivision := Nat.div_add_mod num den
  have hremainder := Nat.mod_lt num hpositive
  have hsplit : (num / den + 1) * den = den * (num / den) + den := by
    rw [Nat.add_mul, Nat.one_mul, Nat.mul_comm]
  have hfloor : num / den * den = den * (num / den) := Nat.mul_comm _ _
  have hparity := Nat.mod_two_eq_zero_or_one (num / den)
  simp only [roundDiv]
  split
  · omega
  · split
    · omega
    · cases tie with
      | up => simp only; omega
      | toEven => rcases hparity with h | h <;> simp only [h, Nat.add_zero] <;> omega

/-- The ways in which a signed quotient becomes an integer. -/
inductive Direction where
  | down
  | up
  | towardZero
  /-- The nearest integer, a half going away from zero. -/
  | nearest
  deriving DecidableEq, Repr

/-- The magnitude of `±num / den` after rounding. -/
def Direction.magnitude (direction : Direction) (negative : Bool) (num den : Nat) :
    Nat :=
  let floor := num / den
  let ceiling := if num % den = 0 then floor else floor + 1
  match direction, negative with
  | .down, false => floor
  | .down, true => ceiling
  | .up, false => ceiling
  | .up, true => floor
  | .towardZero, _ => floor
  | .nearest, _ => roundDiv .up num den

def Direction.round (direction : Direction) (negative : Bool) (num den : Nat) : Int :=
  let magnitude : Int := direction.magnitude negative num den
  if negative then -magnitude else magnitude

end TimingReport.Number
