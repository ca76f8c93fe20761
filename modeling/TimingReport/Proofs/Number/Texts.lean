import TimingReport.Proofs.Json.Numbers
import TimingReport.Proofs.Json.Unambiguous
import TimingReport.Proofs.Number.Infinite

/-!
# The texts of doubles

A double is finite, one of two infinities, or the one that is not a number.  The text of a
finite double reads back, and the words for the others have letters that no such text has; so
no two doubles have the same text in a layout, and none has a blank in it.
-/

namespace TimingReport.Number

open TimingReport.Json (isNumberChar)

/-! ## Kinds of doubles -/

inductive Kind : Float → Prop where
  | finite (negative : Bool) {pattern : Nat} :
      pattern < infinityPattern → Kind (ofPattern negative pattern)
  | infinite (negative : Bool) : Kind (ofPattern negative infinityPattern)
  | nan : Kind notANumber

theorem isFinite_ofPattern (negative : Bool) {pattern : Nat}
    (hpattern : pattern < infinityPattern) :
    isFinite (ofPattern negative pattern) = true := by
  rw [isFinite_iff_value?, value?_ofPattern negative hpattern]
  rfl

theorem eq_notANumber_of_isNaN {x : Float} (hnan : x.isNaN = true) : x = notANumber := by
  have hlarge : 2047 * 2 ^ 52 < x.toBits.toNat % 2 ^ 63 := by
    have hrank := mt isNaN_eq_false_iff.2 (by rw [hnan]; decide)
    rwa [not_le, natAbs_rank] at hrank
  have hbits := toNat_toBits_ofBits_of_nan hlarge
  rw [Float.ofBits_toBits] at hbits
  apply Float.toBits_inj.1
  rw [← UInt64.toNat_inj, hbits]
  rfl

theorem eq_ofPattern_of_isNaN_eq_false {x : Float} (hnumber : x.isNaN = false) :
    x = ofPattern (isNegative x) (rank x).natAbs := by
  have hsize : x.toBits.toNat < 2 ^ 64 := x.toBits.toNat_lt
  apply Float.toBits_inj.1
  rw [← UInt64.toNat_inj, toNat_toBits_ofPattern _ (isNaN_eq_false_iff.1 hnumber), natAbs_rank,
    isNegative]
  by_cases hsign : signPattern ≤ x.toBits.toNat
  · rw [decide_eq_true hsign, if_pos rfl]
    simp only [signPattern] at *
    omega
  · rw [decide_eq_false hsign, if_neg Bool.false_ne_true]
    simp only [signPattern] at *
    omega

theorem kind (x : Float) : Kind x := by
  cases hnan : x.isNaN with
  | true => exact eq_notANumber_of_isNaN hnan ▸ .nan
  | false =>
    rw [eq_ofPattern_of_isNaN_eq_false hnan]
    rcases (isNaN_eq_false_iff.1 hnan).lt_or_eq with hfinite | hinfinite
    · exact .finite _ hfinite
    · rw [hinfinite]
      exact .infinite _

/-! ## Texts -/

section

variable (layout : Layout)

theorem chars_infinite (negative : Bool) :
    layout.chars (ofPattern negative infinityPattern) = signText negative ++ ['i', 'n', 'f'] := by
  rw [Layout.chars, parts, toNat_toBits_ofPattern negative le_rfl]
  cases negative <;> rfl

theorem chars_notANumber : layout.chars notANumber = ['N', 'a', 'N'] := by
  have hparts : parts notANumber = .nan := rfl
  rw [Layout.chars, hparts]
  rfl

theorem isNumberChar_of_mem_chars (negative : Bool) {pattern : Nat}
    (hpattern : pattern < infinityPattern) :
    ∀ c ∈ layout.chars (ofPattern negative pattern), isNumberChar c = true :=
  (Json.numberText_ofPattern layout negative hpattern).1.isNumberChar_of_mem

theorem ne_blank_of_mem_chars (x : Float) : ∀ c ∈ layout.chars x, decide (c ≠ ' ') = true := by
  cases kind x with
  | finite negative hpattern =>
    intro c hc
    have hnumber := isNumberChar_of_mem_chars layout negative hpattern c hc
    rw [decide_eq_true_iff]
    rintro rfl
    cases hnumber
  | infinite negative =>
    rw [chars_infinite]
    cases negative <;> simp [signText]
  | nan =>
    rw [chars_notANumber]
    simp

/-- No two doubles have the same text. -/
theorem chars_injective : Function.Injective layout.chars := by
  intro x y heq
  -- The words for what is not finite have letters that no number has.
  have hword : ∀ {negative : Bool} {pattern : Nat} {word : List Char},
      pattern < infinityPattern → (∃ c ∈ word, isNumberChar c = false) →
      layout.chars (ofPattern negative pattern) ≠ word := by
    rintro negative pattern word hpattern ⟨c, hc, hletter⟩ rfl
    exact Bool.false_ne_true (hletter.symm.trans
      (isNumberChar_of_mem_chars layout negative hpattern c hc))
  cases kind x with
  | finite negative hpattern =>
    cases kind y with
    | finite negative' hpattern' =>
      obtain ⟨htext, hnearest⟩ := Json.numberText_ofPattern layout negative hpattern
      obtain ⟨htext', hnearest'⟩ := Json.numberText_ofPattern layout negative' hpattern'
      rw [← heq] at htext'
      obtain ⟨rfl, hmagnitude⟩ := htext.unique htext'
      rw [hmagnitude] at hnearest'
      refine hnearest.unique hnearest' ?_
      rw [isNegative_ofPattern _ hpattern.le, isNegative_ofPattern _ hpattern'.le]
    | infinite negative' =>
      rw [chars_infinite] at heq
      exact absurd heq (hword hpattern ⟨'n', by simp, rfl⟩)
    | nan =>
      rw [chars_notANumber] at heq
      exact absurd heq (hword hpattern ⟨'N', by simp, rfl⟩)
  | infinite negative =>
    rw [chars_infinite] at heq
    cases kind y with
    | finite negative' hpattern' =>
      exact absurd heq.symm (hword hpattern' ⟨'n', by simp, rfl⟩)
    | infinite negative' =>
      rw [chars_infinite] at heq
      cases negative <;> cases negative' <;> first | rfl | exact absurd heq (by decide)
    | nan =>
      rw [chars_notANumber] at heq
      cases negative <;> exact absurd heq (by decide)
  | nan =>
    rw [chars_notANumber] at heq
    cases kind y with
    | finite negative' hpattern' =>
      exact absurd heq.symm (hword hpattern' ⟨'N', by simp, rfl⟩)
    | infinite negative' =>
      rw [chars_infinite] at heq
      cases negative' <;> exact absurd heq (by decide)
    | nan => rfl

end

end TimingReport.Number
