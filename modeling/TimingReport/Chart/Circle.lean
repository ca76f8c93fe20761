import TimingReport.Chart.PlotArea

/-!
# Circles

A circle is drawn with smooth edges: along each of its four arcs two neighbouring
pixels share the colour.
-/

namespace TimingReport.Chart

/-- A pixel and how much of it is covered. -/
structure Touch where
  point : Point
  opacity : Float

/-- Covers part of a pixel with a colour. -/
def Image.touch (image : Image) (colour : Colour) (touch : Touch) : Image :=
  let place := touch.point
  if 1 - 1 / 256 ≤ touch.opacity then image.modify place.x place.y (fun _ => colour)
  else if touch.opacity ≤ 0 then image
  else
    let amount := (Number.clampedInteger .down 0 256 (256 * touch.opacity)).toNat
    image.modify place.x place.y (fun current => current.mix amount colour)

def Image.touchAll (image : Image) (colour : Colour) (touches : List Touch) : Image :=
  touches.foldl (fun image => image.touch colour) image

/-- The pixels at the distance `offset` from the middle of a circle, on all arcs. -/
def circleTouches (center : Point) (radius : Nat) (offset : Int) : List Touch :=
  let r := Number.ofInteger radius
  let d := Number.ofInteger offset
  let length := Float.sqrt (r * r - greater (d * d) 0.00001)
  let inner := pixelStep .down length
  let outer := inner + 1
  let rest := length - Number.ofInteger inner
  let around (distance : Int) (opacity : Float) : List Touch :=
    [⟨⟨center.x - distance, center.y + offset⟩, opacity⟩,
     ⟨⟨center.x + distance, center.y + offset⟩, opacity⟩,
     ⟨⟨center.x + offset, center.y - distance⟩, opacity⟩,
     ⟨⟨center.x + offset, center.y + distance⟩, opacity⟩]
  around inner (1 - rest) ++ around outer rest

/-- The offsets at which the arcs are drawn, up to their meeting points. -/
def circleOffsets (radius : Nat) : List Int :=
  let r := Number.ofInteger radius
  let first := pixelStep .up (r * (1 - Float.sqrt 2 / 2))
  let last := pixelStep .down (r * (1 + Float.sqrt 2 / 2))
  (List.range (last + 1 - first).toNat).map
    (fun (step : Nat) => first + step - radius)

/-- What a pen one pixel wide covers of a circle. -/
def circle (center : Point) (radius : Nat) : List Touch :=
  (circleOffsets radius).flatMap (circleTouches center radius)

end TimingReport.Chart
