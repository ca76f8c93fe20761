import TimingReport.BoxSummary
import TimingReport.Number.Fixed

/-!
# Axes

The range of the vertical axis, and the labels of the ticks on both axes.
-/

namespace TimingReport.Chart

/-- Why there is no range for the vertical axis. -/
inductive RangeFault where
  | badBound (bound : Float)
  | notFinite (low high : Float)

/-- The ends of the vertical axis. -/
structure Range where
  low : Float
  high : Float

/-- The lesser of two numbers; a second one that is not a number is passed over. -/
def lesser (x y : Float) : Float := if y < x then y else x

/-- The greater of two numbers; a second one that is not a number is passed over. -/
def greater (x y : Float) : Float := if x < y then y else x

/-- The room beyond the data, as a part of their span. -/
def slack : Float := 0.05

/-- The finite number below all others. -/
def leastFinite : Float := Number.ofPattern true (Number.infinityPattern - 1)

/-- The range that holds zero and all samples, with room beyond them. -/
def fittedRange (boxes : List BoxSummary) : Range :=
  let least := (boxes.map BoxSummary.min).foldl lesser 0
  let greatest := (boxes.map BoxSummary.max).foldl greater leastFinite
  let span := if least < greatest then greatest - least else greater greatest.abs 1
  let room := span * slack
  let low := if least < 0 then least - room else least
  ⟨low, greater greatest low + room⟩

/-- From zero to the bound; without a bound the range is fitted to the data. -/
def axisRange (boxes : List BoxSummary) : Option Float → Except RangeFault Range
  | some bound =>
    if Number.isFinite bound && 0 < bound then .ok ⟨0, bound⟩
    else .error (.badBound bound)
  | none =>
    let range := fittedRange boxes
    if Number.isFinite range.low && Number.isFinite range.high then .ok range
    else .error (.notFinite range.low range.high)

/-- How far a tick may be from the middle of its box. -/
def tickTolerance : Float := 0.000001

/-- The whole number next to `x`, if `x` is a tick at the middle of a box. Both tests
let pass what is not a number. -/
def boxPosition? (x : Float) : Option Nat :=
  let position := Number.clampedInteger .nearest (-Number.maxWord64) Number.maxWord64 x
  let rounded := if x.abs < 4503599627370496 then Number.ofInteger position else x
  if tickTolerance < (x - rounded).abs || rounded < 1 then none else some position.toNat

/-- The tag of the box at `x`; elsewhere the label is empty. Boxes are counted from one
and listed from zero: there is no answer where one less than the position of a box is
not a count. -/
def boxLabel? (boxes : List BoxSummary) (x : Float) : Option String :=
  match boxPosition? x with
  | none => some ""
  | some 0 => none
  | some (place + 1) => some (((boxes[place]?).map BoxSummary.tag).getD "")

/-- The label where counts wrap around: no list has a box at the greatest count. -/
def boxLabel (boxes : List BoxSummary) (x : Float) : String :=
  (boxLabel? boxes x).getD ""

/-- From this magnitude on ticks are written with an exponent. -/
def exponentThreshold : Float := 1000000

/-- The label of a tick on the vertical axis. -/
def tickText (y : Float) : String :=
  if exponentThreshold ≤ y.abs then Number.twoDigitText y else Number.integerText y

end TimingReport.Chart
