/-!
# Sets of code points as ranges

Character properties are kept as lists of closed, ascending ranges of code points.
-/

namespace TimingReport.Text

/-- A closed range of code points. -/
abbrev CodeRange := Nat × Nat

def CodeRange.contains (range : CodeRange) (code : Nat) : Bool :=
  range.1 ≤ code && code ≤ range.2

/-- Whether the code point of `c` lies in one of the ranges. -/
def inRanges (ranges : List CodeRange) (c : Char) : Bool :=
  ranges.any (fun range => range.contains c.toNat)

end TimingReport.Text
