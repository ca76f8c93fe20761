import TimingReport.Text.CodeRange

/-!
# Blanks

Blanks are the white space of all scripts. A text is trimmed by dropping blanks at both
ends.
-/

namespace TimingReport.Text

def blankRanges : List CodeRange :=
  [(0x0009, 0x000d), (0x0020, 0x0020), (0x0085, 0x0085), (0x00a0, 0x00a0),
   (0x1680, 0x1680), (0x2000, 0x200a), (0x2028, 0x2029), (0x202f, 0x202f),
   (0x205f, 0x205f), (0x3000, 0x3000)]

def isBlank (c : Char) : Bool := inRanges blankRanges c

/-- Drops from both ends what satisfies `drop`. -/
def trimBoth {α : Type} (drop : α → Bool) (items : List α) : List α :=
  ((items.dropWhile drop).reverse.dropWhile drop).reverse

/-- What is dropped may be added in front without a change. -/
theorem trimBoth_append_left {α : Type} (drop : α → Bool) {added : List α}
    (hadded : ∀ x ∈ added, drop x = true) (items : List α) :
    trimBoth drop (added ++ items) = trimBoth drop items := by
  rw [trimBoth, List.dropWhile_append_of_pos hadded, trimBoth]

/-- What is dropped may be added behind without a change. -/
theorem trimBoth_append_right {α : Type} (drop : α → Bool) {added : List α}
    (hadded : ∀ x ∈ added, drop x = true) (items : List α) :
    trimBoth drop (items ++ added) = trimBoth drop items := by
  rw [trimBoth, trimBoth, List.dropWhile_append]
  split
  · next hempty =>
    have hnil : added.dropWhile drop = [] := by
      have hdropped : (added ++ []).dropWhile drop = [].dropWhile drop :=
        List.dropWhile_append_of_pos hadded
      simpa using hdropped
    rw [List.isEmpty_iff.1 hempty, hnil]
  · have hreversed : ∀ x ∈ added.reverse, drop x = true :=
      fun x hx => hadded x (List.mem_reverse.1 hx)
    rw [List.reverse_append, List.dropWhile_append_of_pos hreversed]

def trimBlanks (text : List Char) : List Char := trimBoth isBlank text

end TimingReport.Text
