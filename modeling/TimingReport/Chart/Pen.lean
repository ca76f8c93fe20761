import TimingReport.Chart.PlotArea

/-!
# Lines and rectangles

Lines are horizontal or vertical. A pen one pixel wide marks every pixel from one end to
the other; a wider pen marks a bar around the line and leaves out its last row or
column, and a line without length.
-/

namespace TimingReport.Chart

/-- `twice / 2` as a whole number. -/
def half (direction : Number.Direction) (twice : Int) : Int :=
  direction.round (decide (twice < 0)) twice.natAbs 2

/-- The pixels of a bar, which lacks the last place along its length if it is more than
two places thick. -/
def bar (left right top bottom : Int) : Region :=
  if bottom - top < right - left then
    ⟨left, if 1 < bottom - top then right - 1 else right, top, bottom⟩
  else ⟨left, right, top, if 1 < right - left then bottom - 1 else bottom⟩

/-- What a pen marks between two points. The edges of a wide line are rounded in the
given direction. -/
def stroke (edges : Number.Direction) (width : Nat) (p q : Point) : List Region :=
  let left := min p.x q.x
  let right := max p.x q.x
  let top := min p.y q.y
  let bottom := max p.y q.y
  if width ≤ 1 then [⟨left, right, top, bottom⟩]
  else if p = q then []
  else if p.x = q.x then
    [bar (half edges (2 * p.x - width)) (half edges (2 * p.x + width)) top bottom]
  else [bar left right (half edges (2 * p.y - width)) (half edges (2 * p.y + width))]

def line (width : Nat) (p q : Point) : List Region := stroke .nearest width p q

/-- The four sides of the rectangle between two corners. -/
def outline (width : Nat) (p q : Point) : List Region :=
  let side := stroke .towardZero width
  side p ⟨q.x, p.y⟩ ++ side ⟨p.x, q.y⟩ q ++ side p ⟨p.x, q.y⟩ ++ side ⟨q.x, p.y⟩ q

end TimingReport.Chart
