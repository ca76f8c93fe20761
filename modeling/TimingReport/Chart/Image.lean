/-!
# Images

An image is a grid of colours of a fixed size. Drawing outside of it changes nothing.
-/

namespace TimingReport.Chart

structure Colour where
  red : UInt8
  green : UInt8
  blue : UInt8
  deriving DecidableEq, Repr

namespace Colour

def white : Colour := ⟨255, 255, 255⟩

def black : Colour := ⟨0, 0, 0⟩

/-- Moves a channel towards another value by `amount` parts of 256. -/
def mixChannel (amount : Nat) (current target : UInt8) : UInt8 :=
  let distance :=
    if current < target then target.toNat - current.toNat
    else current.toNat - target.toNat
  let change := UInt8.ofNat (distance * amount / 256)
  if current < target then current + change else current - change

def mix (amount : Nat) (current target : Colour) : Colour :=
  ⟨mixChannel amount current.red target.red,
    mixChannel amount current.green target.green,
    mixChannel amount current.blue target.blue⟩

end Colour

/-- The rows from top to bottom, each from left to right. -/
structure Image where
  width : Nat
  height : Nat
  rows : Vector (Vector Colour width) height

namespace Image

def blank (width height : Nat) : Image :=
  ⟨width, height, .replicate height (.replicate width .white)⟩

/-- The colour of a pixel, if it lies in the image. -/
def pixel? (image : Image) (x y : Int) : Option Colour :=
  if h : (0 ≤ x ∧ x < image.width) ∧ 0 ≤ y ∧ y < image.height then
    have hrow : y.toNat < image.height := by omega
    have hcolumn : x.toNat < image.width := by omega
    some image.rows[y.toNat][x.toNat]
  else none

/-- Changes the colour of a pixel, if it lies in the image. -/
def modify (image : Image) (x y : Int) (change : Colour → Colour) : Image :=
  if h : (0 ≤ x ∧ x < image.width) ∧ 0 ≤ y ∧ y < image.height then
    have hrow : y.toNat < image.height := by omega
    have hcolumn : x.toNat < image.width := by omega
    let row := image.rows[y.toNat]
    let changed := row.set x.toNat (change row[x.toNat])
    { image with rows := image.rows.set y.toNat changed }
  else image

theorem modify_of_outside (image : Image) {x y : Int}
    (houtside : ¬((0 ≤ x ∧ x < image.width) ∧ 0 ≤ y ∧ y < image.height))
    (change : Colour → Colour) : image.modify x y change = image := dif_neg houtside

theorem pixel?_modify_of_ne (image : Image) {x y x' y' : Int} (hne : x' ≠ x ∨ y' ≠ y)
    (change : Colour → Colour) :
    (image.modify x y change).pixel? x' y' = image.pixel? x' y' := by
  by_cases hchanged : (0 ≤ x ∧ x < image.width) ∧ 0 ≤ y ∧ y < image.height
  · rw [modify, dif_pos hchanged]
    by_cases hasked : (0 ≤ x' ∧ x' < image.width) ∧ 0 ≤ y' ∧ y' < image.height
    · rw [pixel?, dif_pos hasked, pixel?, dif_pos hasked]
      by_cases hrow : y.toNat = y'.toNat
      · have hcolumn : x.toNat ≠ x'.toNat := by omega
        simp [hrow, hcolumn]
      · simp [hrow]
    · rw [pixel?, dif_neg hasked, pixel?, dif_neg hasked]
  · rw [modify_of_outside image hchanged]

theorem pixel?_blank {width height : Nat} {x y : Int} (hx : 0 ≤ x ∧ x < width)
    (hy : 0 ≤ y ∧ y < height) : (blank width height).pixel? x y = some .white := by
  rw [pixel?, dif_pos ⟨hx, hy⟩]
  simp [blank]

end Image

/-- A rectangle of pixels, its edges included. -/
structure Region where
  left : Int
  right : Int
  top : Int
  bottom : Int
  deriving DecidableEq, Repr

namespace Region

def crossesRow (region : Region) (y : Int) : Bool :=
  region.top ≤ y && y ≤ region.bottom

def crossesColumn (region : Region) (x : Int) : Bool :=
  region.left ≤ x && x ≤ region.right

def contains (region : Region) (x y : Int) : Bool :=
  region.crossesColumn x && region.crossesRow y

end Region

/-- A rectangle of one colour. -/
structure Layer where
  region : Region
  colour : Colour
  deriving DecidableEq, Repr

/-- The colour of a column on top of a ground, where the layers cover it whenever they
cross it; the last one lies on top. -/
def columnColour (ground : Colour) (layers : List Layer) (x : Int) : Colour :=
  let paint (colour : Colour) (layer : Layer) : Colour :=
    if layer.region.crossesColumn x then layer.colour else colour
  layers.foldl paint ground

/-- The layers on an image, each over those in front of it in the list. -/
def Image.cover (image : Image) (layers : List Layer) : Image where
  width := image.width
  height := image.height
  rows := Vector.ofFn fun y =>
    let crossing := layers.filter (fun layer => layer.region.crossesRow y.val)
    Vector.ofFn fun x => columnColour image.rows[y][x] crossing x.val

/-- The colour of the last layer that covers a pixel, or that of the ground. -/
def pixelColour (ground : Colour) (layers : List Layer) (x y : Int) : Colour :=
  let paint (colour : Colour) (layer : Layer) : Colour :=
    if layer.region.contains x y then layer.colour else colour
  layers.foldl paint ground

theorem columnColour_filter_crossesRow (ground : Colour) (layers : List Layer)
    (x y : Int) :
    columnColour ground (layers.filter (fun layer => layer.region.crossesRow y)) x =
      pixelColour ground layers x y := by
  rw [columnColour, pixelColour, List.foldl_filter]
  congr
  funext colour layer
  by_cases hrow : layer.region.crossesRow y = true
  · simp [Region.contains, hrow]
  · simp [Region.contains, hrow]

theorem pixel?_cover (image : Image) (layers : List Layer) (x y : Int) :
    (image.cover layers).pixel? x y =
      (image.pixel? x y).map (fun ground => pixelColour ground layers x y) := by
  by_cases hinside : (0 ≤ x ∧ x < image.width) ∧ 0 ≤ y ∧ y < image.height
  · have hrow : (y.toNat : Int) = y := Int.toNat_of_nonneg hinside.2.1
    have hcolumn : (x.toNat : Int) = x := Int.toNat_of_nonneg hinside.1.1
    refine (dif_pos hinside).trans ?_
    rw [Image.pixel?, dif_pos hinside]
    simp only [Image.cover, Vector.getElem_ofFn, Fin.getElem_fin, hrow, hcolumn,
      columnColour_filter_crossesRow, Option.map_some]
  · refine (dif_neg hinside).trans ?_
    rw [Image.pixel?, dif_neg hinside, Option.map_none]

/-- The pixels of an image as they are listed in a file. -/
structure Raster where
  width : Nat
  height : Nat
  /-- The rows from top to bottom, each from left to right. -/
  rows : List (List Colour)
  deriving DecidableEq, Repr

def Image.raster (image : Image) : Raster :=
  ⟨image.width, image.height, image.rows.toList.map Vector.toList⟩

end TimingReport.Chart
