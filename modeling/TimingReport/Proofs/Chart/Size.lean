import Mathlib.Algebra.Group.Nat.Defs
import TimingReport.Chart.Chart

/-!
# The size of a picture

Whatever is drawn on an image, it stays as wide and as high as it was; and the width and
the height of a plan in pixels are at least one and fit into 32 bits.
-/

namespace TimingReport.Chart

/-- The images have one size. -/
def SameSize (image other : Image) : Prop :=
  other.width = image.width ∧ other.height = image.height

theorem sameSize_modify (image : Image) (x y : Int) (change : Colour → Colour) :
    SameSize image (image.modify x y change) := by
  rw [Image.modify]
  split <;> exact ⟨rfl, rfl⟩

theorem sameSize_touch (image : Image) (colour : Colour) (touch : Touch) :
    SameSize image (image.touch colour touch) := by
  rw [Image.touch]
  dsimp only
  split
  · exact sameSize_modify ..
  · split
    · exact ⟨rfl, rfl⟩
    · exact sameSize_modify ..

/-- By induction on what is drawn. -/
theorem sameSize_foldl {α : Type} {draw : Image → α → Image}
    (hdraw : ∀ image item, SameSize image (draw image item)) (image : Image)
    (items : List α) : SameSize image (items.foldl draw image) := by
  induction items generalizing image with
  | nil => exact ⟨rfl, rfl⟩
  | cons item items ih =>
    obtain ⟨hwidth, hheight⟩ := hdraw image item
    obtain ⟨hwidth', hheight'⟩ := ih (draw image item)
    exact ⟨hwidth'.trans hwidth, hheight'.trans hheight⟩

theorem sameSize_touchAll (image : Image) (colour : Colour) (touches : List Touch) :
    SameSize image (image.touchAll colour touches) :=
  sameSize_foldl (fun image touch => sameSize_touch image colour touch) image touches

/-- A picture has the size of its chart, whatever the library draws. -/
theorem size_image (chart : Chart) (library : Library) :
    (chart.image library).width = chart.width ∧
      (chart.image library).height = chart.height := by
  have hground : SameSize (.blank chart.width chart.height) (chart.ground library) := by
    rw [ground]
    cases chart.axes? with
    | none => exact ⟨rfl, rfl⟩
    | some axes => exact sameSize_touchAll ..
  obtain ⟨hwidth, hheight⟩ := @sameSize_foldl _ (chart.mark library)
    (fun image center => sameSize_touchAll ..)
    ((chart.ground library).cover chart.layers) chart.markers
  exact ⟨hwidth.trans hground.1, hheight.trans hground.2⟩

theorem clampedInteger_le {direction : Number.Direction} {low high : Int}
    (hlow : low ≤ high) (hhigh : 0 ≤ high) (x : Float) :
    Number.clampedInteger direction low high x ≤ high := by
  rw [Number.clampedInteger]
  split
  · exact hhigh
  · split
    · exact hlow
    · exact Int.le_refl high
  · exact Int.max_le.2 ⟨hlow, Int.min_le_left _ _⟩

theorem pixels_bounds (plan : Plan) (inches : Float) :
    0 < plan.pixels inches ∧ plan.pixels inches < 2 ^ 32 := by
  have hle := @clampedInteger_le .nearest 0 Number.maxWord32 (by decide) (by decide)
    (inches * Number.ofInteger plan.dpi)
  rw [Plan.pixels]
  rw [show Number.maxWord32 = 4294967295 from rfl] at hle ⊢
  omega

end TimingReport.Chart
