import TimingReport.Proofs.Box.Order
import TimingReport.Proofs.Number.Infinite

/-!
# Boxes know nothing of the arrangement of their samples

The order in which samples are sorted tells any two doubles apart, both zeros included, so a
multiset of doubles has only one ascending arrangement.  What is not a number is left out before,
whatever its pattern; so the numbers of a column, in any order, decide its box to the last bit.
-/

namespace TimingReport

open Number
open BoxSummary (sampleLe sortedSamples)

/-- Whether a pattern of 64 bits is one of a number.  Infinities count as numbers. -/
def isNumberPattern (pattern : UInt64) : Bool := pattern.toNat % signPattern ≤ infinityPattern

/-! ## Patterns -/

theorem isNaN_ofBits (pattern : UInt64) :
    (Float.ofBits pattern).isNaN = !isNumberPattern pattern := by
  have hsize : pattern.toNat < 2 ^ 64 := pattern.toNat_lt
  have hmagnitude := natAbs_rank (Float.ofBits pattern)
  by_cases hnumber : isNumberPattern pattern = true
  · have hbits : pattern.toNat % 2 ^ 63 ≤ 2047 * 2 ^ 52 := of_decide_eq_true hnumber
    have hkept := toNat_toBits_ofBits hsize hbits
    rw [UInt64.ofNat_toNat] at hkept
    rw [hnumber, Bool.not_true, isNaN_eq_false_iff, hmagnitude, hkept]
    exact hbits
  · rw [Bool.not_eq_true] at hnumber
    have hbits : 2047 * 2 ^ 52 < pattern.toNat % 2 ^ 63 := not_le.1 (of_decide_eq_false hnumber)
    rw [hnumber, Bool.not_false, ← Bool.not_eq_false, isNaN_eq_false_iff, hmagnitude,
      toNat_toBits_ofBits_of_nan hbits]
    decide

theorem filter_isNaN_map_ofBits (patterns : List UInt64) :
    (patterns.map Float.ofBits).filter (fun x => !x.isNaN) =
      (patterns.filter isNumberPattern).map Float.ofBits := by
  rw [List.filter_map]
  congr 2
  funext pattern
  rw [Function.comp_apply, isNaN_ofBits, Bool.not_not]

/-! ## Sorting -/

theorem orderKey_injective : Function.Injective orderKey := by
  intro x y hkeys
  have hx : x.toBits.toNat < 2 ^ 64 := x.toBits.toNat_lt
  have hy : y.toBits.toNat < 2 ^ 64 := y.toBits.toNat_lt
  apply Float.toBits_inj.1
  apply UInt64.toNat_inj.1
  simp only [orderKey, signPattern] at hkeys
  split_ifs at hkeys <;> omega

/-- A multiset of numbers has only one ascending arrangement. -/
theorem sortedSamples_eq_of_perm {xs ys : List Float}
    (hsame : (xs.filter fun x => !x.isNaN).Perm (ys.filter fun y => !y.isNaN)) :
    sortedSamples xs = sortedSamples ys := by
  have hperm : (sortedSamples xs).Perm (sortedSamples ys) :=
    (List.mergeSort_perm _ _).trans (hsame.trans (List.mergeSort_perm _ _).symm)
  refine hperm.eq_of_pairwise ?_ (ascending_sortedSamples xs) (ascending_sortedSamples ys)
  intro x y _ _ hle hge
  exact orderKey_injective (le_antisymm hle hge)

theorem ofSamples_eq_none_iff (tag : String) (values : List Float) :
    BoxSummary.ofSamples tag values = none ↔ values.filter (fun x => !x.isNaN) = [] := by
  have hlength : (sortedSamples values).length = (values.filter fun x => !x.isNaN).length :=
    List.length_mergeSort _
  rw [← List.length_eq_zero_iff, ← hlength, List.length_eq_zero_iff, BoxSummary.ofSamples]
  simp

/-- Two columns whose numbers are the same, each pattern as often in one as in the other, have
the same box or have none, whatever else they hold and in whatever order.  A column has a box
exactly if it holds a number. -/
theorem ofSamples_arrangement (tag : String) {xs ys : List UInt64}
    (hsame : (xs.filter isNumberPattern).Perm (ys.filter isNumberPattern)) :
    BoxSummary.ofSamples tag (xs.map Float.ofBits) =
        BoxSummary.ofSamples tag (ys.map Float.ofBits) ∧
      (BoxSummary.ofSamples tag (xs.map Float.ofBits) = none ↔
        ∀ pattern ∈ xs, isNumberPattern pattern = false) := by
  constructor
  · have hsorted : sortedSamples (xs.map Float.ofBits) = sortedSamples (ys.map Float.ofBits) := by
      apply sortedSamples_eq_of_perm
      rw [filter_isNaN_map_ofBits, filter_isNaN_map_ofBits]
      exact hsame.map Float.ofBits
    rw [BoxSummary.ofSamples, BoxSummary.ofSamples, hsorted]
  · rw [ofSamples_eq_none_iff, filter_isNaN_map_ofBits, List.map_eq_nil_iff,
      List.filter_eq_nil_iff]
    simp only [Bool.not_eq_true]

/-- Two ways to write what is not a number, both zeros, an infinity and the least double. -/
theorem ofSamples_arrangement_zeros :
    let xs : List UInt64 := [0x7ff8000000000001, 0, 0x8000000000000000, 0x7ff0000000000000, 1]
    let ys : List UInt64 := [1, 0x7ff0000000000000, 0x8000000000000000, 0xffffffffffffffff, 0]
    (xs.filter isNumberPattern).Perm (ys.filter isNumberPattern) ∧
      BoxSummary.ofSamples "a" (xs.map Float.ofBits) =
        BoxSummary.ofSamples "a" (ys.map Float.ofBits) ∧
      BoxSummary.ofSamples "a" (xs.map Float.ofBits) ≠ none := by
  intro xs ys
  have hsame : (xs.filter isNumberPattern).Perm (ys.filter isNumberPattern) := by decide +kernel
  obtain ⟨hbox, hnone⟩ := ofSamples_arrangement "a" hsame
  refine ⟨hsame, hbox, fun h => ?_⟩
  exact absurd (hnone.1 h 0 (by decide)) (by decide)

end TimingReport
