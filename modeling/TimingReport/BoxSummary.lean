import TimingReport.Number.Binary64

/-!
# Box-and-whisker statistics

The samples of one column are sorted, and quartiles are interpolated between
neighbouring samples. The whiskers end at the outermost samples within one and a half
interquartile ranges of the box; samples beyond are outliers.
-/

namespace TimingReport

structure BoxSummary where
  tag : String
  count : Nat
  min : Float
  q1 : Float
  median : Float
  q3 : Float
  max : Float
  whiskerLow : Float
  whiskerHigh : Float
  /-- The samples beyond the whiskers, ascending. -/
  outliers : List Float

namespace BoxSummary

/-- How far the whiskers may reach, in interquartile ranges. -/
def whiskerReach : Float := 1.5

/-- The order in which samples are sorted. It is total: `-0` stands before `0`. -/
def sampleLe (x y : Float) : Bool := Number.orderKey x ≤ Number.orderKey y

/-- The samples in ascending order, without those that are not numbers. -/
def sortedSamples (values : List Float) : List Float :=
  (values.filter (fun x => !x.isNaN)).mergeSort sampleLe

/-- The place of a quantile among `count` samples, which may lie between two of them. -/
def quantilePlace (percent : Float) (count : Nat) : Float :=
  percent / 100 * Number.ofInteger (count - 1 : Nat)

def placeBelow (place : Float) : Nat :=
  (Number.clampedInteger .down 0 Number.maxWord64 place).toNat

def placeAbove (place : Float) : Nat :=
  (Number.clampedInteger .up 0 Number.maxWord64 place).toNat

/-- The quantile of ascending samples, interpolated between the two samples next to its
place. -/
def quantile (sorted : Array Float) (percent : Float) : Float :=
  if sorted.size = 1 then sorted.getD 0 0
  else
    let place := quantilePlace percent sorted.size
    let lower := placeBelow place
    let upper := placeAbove place
    if lower = upper then sorted.getD lower 0
    else
      let weight := place - Number.ofInteger lower
      sorted.getD lower 0 * (1 - weight) + sorted.getD upper 0 * weight

/-- The statistics of ascending samples. -/
def ofSorted (tag : String) (sorted : List Float) : BoxSummary :=
  let samples := sorted.toArray
  let q1 := quantile samples 25
  let q3 := quantile samples 75
  let range := q3 - q1
  let lowFence := q1 - whiskerReach * range
  let highFence := q3 + whiskerReach * range
  let whiskerLow := (sorted.find? (fun x => lowFence ≤ x)).getD q1
  let whiskerHigh := (sorted.reverse.find? (fun x => x ≤ highFence)).getD q3
  { tag
    count := sorted.length
    min := samples.getD 0 0
    q1
    median := quantile samples 50
    q3
    max := samples.getD (sorted.length - 1) 0
    whiskerLow
    whiskerHigh
    outliers := sorted.filter (fun x => x < whiskerLow || whiskerHigh < x) }

/-- The statistics of a column; a column without a number has none. -/
def ofSamples (tag : String) (values : List Float) : Option BoxSummary :=
  let sorted := sortedSamples values
  if sorted.isEmpty then none else some (ofSorted tag sorted)

end BoxSummary

end TimingReport
