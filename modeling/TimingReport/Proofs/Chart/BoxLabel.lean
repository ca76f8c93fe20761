import TimingReport.Chart.Axis
import TimingReport.Proofs.Box.Order
import TimingReport.Proofs.Number.Integers
import TimingReport.Proofs.Number.Texts

/-!
# Which ticks have the tag of a box

A tick is labelled if it is within the tolerance of the middle of a box.  The distance from the
next integer is computed without rounding and so tested exactly; infinities fail the test for a
box in front of the first one or lie behind the last one.  What is not a number passes both
tests and has the position zero, one below which there is none.
-/

namespace TimingReport.Chart

open Number

/-- The tick at `x` is at the middle of the box at `place`, counted from one. -/
def NearBox (x : Float) (place : Nat) : Prop :=
  isFinite x = true ∧ |toRat x - place| ≤ toRat tickTolerance

/-! ## The tests -/

theorem isFinite_tickTolerance : isFinite tickTolerance = true := rfl

theorem toRat_tickTolerance : toRat tickTolerance = 4722366482869645 / 2 ^ 72 := by
  rw [@toRat_of_rank _ 1002 4722366482869645 rfl (by decide) (.inr (by decide)),
    minExponent]
  norm_num

theorem toRat_tickTolerance_lt : toRat tickTolerance < 1 / 2 := by
  rw [toRat_tickTolerance]
  norm_num

theorem abs_lt_iff {x : Float} (hx : isFinite x = true) :
    x.abs < 4503599627370496 ↔ |toRat x| < 2 ^ 52 := by
  have hbound : toRat 4503599627370496 = 2 ^ 52 := by
    rw [@toRat_of_rank _ 1074 (2 ^ 52) rfl (by decide) (.inr le_rfl), minExponent]
    norm_num
  rw [toRat_lt_iff (isFinite_abs hx) rfl, toRat_abs hx, hbound]

/-- What a finite double is compared with is the integer next to it, and the difference from it
is exact. -/
theorem exists_rounded {x : Float} (hx : isFinite x = true) {whole : Int}
    (hnear : |toRat x - whole| ≤ 1 / 2) :
    ∃ rounded, (if x.abs < 4503599627370496 then
        ofInteger (max (-maxWord64) (min maxWord64 whole)) else x) = rounded ∧
      isFinite rounded = true ∧ toRat rounded = whole ∧
      isFinite (x - rounded) = true ∧ toRat (x - rounded) = toRat x - whole := by
  by_cases hsmall : |toRat x| < 2 ^ 52
  -- The integer is far inside of the counts and a double itself.
  · have hwhole : whole.natAbs ≤ 2 ^ 52 := by
      have hlt : |(whole : ℚ)| < (2 ^ 52 + 1 : Int) := by
        rw [abs_lt] at hsmall ⊢
        rw [abs_le] at hnear
        push_cast
        constructor <;> linarith
      have hint : |whole| < 2 ^ 52 + 1 := by exact_mod_cast hlt
      rw [Int.abs_eq_natAbs] at hint
      omega
    have hinside : max (-maxWord64) (min maxWord64 whole) = whole := by
      simp only [maxWord64]
      omega
    have hfinite := isFinite_ofInteger_int (hwhole.trans (by norm_num))
    have hvalue := toRat_ofInteger_int (hwhole.trans (by norm_num))
    rw [if_pos ((abs_lt_iff hx).2 hsmall), hinside]
    exact ⟨_, rfl, hfinite, hvalue, toRat_sub_int hx hfinite hvalue hsmall hnear⟩
  -- The double is compared with itself, and it is the integer.
  · obtain ⟨z, hz⟩ := exists_toRat_eq_intCast hx (not_lt.1 hsmall)
    have hwhole : toRat x = whole := by
      have hself : |toRat x - z| ≤ 0 := by rw [hz, sub_self, abs_zero]
      rw [hz, eq_of_near hself hnear (by norm_num)]
    have hzero : nearestValue 0 = 0 := by
      rw [← Nat.cast_zero, (isValue_natCast (Nat.zero_le _)).nearestValue_eq]
    rw [if_neg (mt (abs_lt_iff hx).1 hsmall)]
    refine ⟨x, rfl, hx, hwhole, isFinite_sub hx hx hx (by simp), ?_⟩
    rw [toRat_sub hx hx, sub_self, hzero, hwhole, sub_self]

/-- A finite double has a position if it is within the tolerance of an integer from one on. -/
theorem boxPosition?_eq {x : Float} (hx : isFinite x = true) :
    ∃ whole : Int, |toRat x - whole| ≤ 1 / 2 ∧ boxPosition? x =
      if |toRat x - whole| ≤ toRat tickTolerance ∧ 1 ≤ whole
        then some (min maxWord64 whole).toNat else none := by
  obtain ⟨whole, hnear, hclamped⟩ := clampedInteger_nearest hx
  obtain ⟨rounded, hrounded, hfinite, hwhole, hdifference, hexact⟩ := exists_rounded hx hnear
  have htests : (tickTolerance < (x - rounded).abs ∨ rounded < 1) ↔
      ¬(|toRat x - whole| ≤ toRat tickTolerance ∧ 1 ≤ whole) := by
    rw [toRat_lt_iff isFinite_tickTolerance (isFinite_abs hdifference), toRat_abs hdifference,
      hexact, toRat_lt_iff hfinite rfl, hwhole, toRat_one, not_and_or, not_le, not_le]
    norm_cast
  refine ⟨whole, hnear, ?_⟩
  simp only [boxPosition?, hclamped, hrounded, Bool.or_eq_true, decide_eq_true_iff, htests]
  by_cases hpasses : |toRat x - whole| ≤ toRat tickTolerance ∧ 1 ≤ whole
  · rw [if_neg (not_not.2 hpasses), if_pos hpasses]
    have hpositive := hpasses.2
    congr 1
    simp only [maxWord64]
    omega
  · rw [if_pos hpasses, if_neg hpasses]

/-! ## Positions -/

/-- No two boxes are so near to each other that a tick is at both of them. -/
theorem NearBox.unique {x : Float} {place other : Nat} (hplace : NearBox x place)
    (hother : NearBox x other) : other = place := by
  have htolerance := toRat_tickTolerance_lt
  have hsame : (other : Int) = place :=
    eq_of_near (by exact_mod_cast hother.2) (by exact_mod_cast hplace.2) (by linarith)
  exact_mod_cast hsame

theorem boxPosition?_infinite (negative : Bool) :
    boxPosition? (ofPattern negative infinityPattern) =
      if negative then none else some maxWord64.toNat := by
  cases negative <;> decide +kernel

/-- What is not a number passes both tests. -/
theorem boxPosition?_notANumber : boxPosition? notANumber = some 0 := rfl

/-- Only what is not a number gets the position zero. -/
theorem boxPosition?_eq_zero_iff (x : Float) : boxPosition? x = some 0 ↔ x.isNaN = true := by
  cases kind x with
  | finite negative hpattern =>
    have hfinite := isFinite_ofPattern negative hpattern
    rw [isNaN_eq_false_of_isFinite hfinite]
    refine iff_of_false (fun hzero => ?_) Bool.false_ne_true
    obtain ⟨whole, -, hposition⟩ := boxPosition?_eq hfinite
    rw [hposition] at hzero
    split at hzero
    · next hpasses =>
      have hnone := Option.some.inj hzero
      simp only [maxWord64] at hnone
      omega
    · cases hzero
  | infinite negative =>
    rw [boxPosition?_infinite]
    cases negative <;> decide +kernel
  | nan => exact iff_of_true boxPosition?_notANumber rfl

theorem boxPosition?_eq_some_iff_of_isFinite {x : Float} (hx : isFinite x = true) {place : Nat}
    (hpositive : 1 ≤ place) (hlimit : (place : Int) < maxWord64) :
    boxPosition? x = some place ↔ NearBox x place := by
  obtain ⟨whole, hnear, hposition⟩ := boxPosition?_eq hx
  rw [hposition]
  constructor
  · intro hsome
    split at hsome
    · next hpasses =>
      have hplace := Option.some.inj hsome
      obtain rfl : whole = place := by omega
      exact ⟨hx, by exact_mod_cast hpasses.1⟩
    · cases hsome
  · rintro ⟨-, hdistance⟩
    have htolerance := toRat_tickTolerance_lt
    rw [← Int.cast_natCast] at hdistance
    obtain rfl : whole = place := eq_of_near hnear hdistance (by linarith)
    rw [if_pos ⟨hdistance, by omega⟩, min_eq_right hlimit.le, Int.toNat_natCast]

/-- A tick has the position of the box that it is near to, and no other one but zero and the
greatest count. -/
theorem boxPosition?_eq_some_iff {place : Nat} (hpositive : 1 ≤ place)
    (hlimit : (place : Int) < maxWord64) (x : Float) :
    boxPosition? x = some place ↔ NearBox x place := by
  cases kind x with
  | finite negative hpattern =>
    exact boxPosition?_eq_some_iff_of_isFinite (isFinite_ofPattern negative hpattern) hpositive
      hlimit
  | infinite negative =>
    -- The greatest count lies behind every box, so the bound on the place is needed here.
    have hfar : ¬NearBox (ofPattern negative infinityPattern) place :=
      fun hnear => not_isFinite_infinity negative hnear.1
    rw [boxPosition?_infinite]
    refine iff_of_false ?_ hfar
    cases negative with
    | false =>
      intro hsome
      have hgreatest := Option.some.inj hsome
      simp only [maxWord64] at *
      omega
    | true => simp
  | nan =>
    rw [boxPosition?_notANumber]
    refine iff_of_false (fun hzero => ?_) fun hnear => not_isFinite_notANumber hnear.1
    have := Option.some.inj hzero
    omega

/-! ## Labels -/

theorem boxLabel?_of_position {boxes : List BoxSummary} {x : Float} {place : Nat}
    (hposition : boxPosition? x = some (place + 1)) :
    boxLabel? boxes x = some (((boxes[place]?).map BoxSummary.tag).getD "") := by
  rw [boxLabel?, hposition]

theorem boxLabel?_eq_none_iff (boxes : List BoxSummary) (x : Float) :
    boxLabel? boxes x = none ↔ x.isNaN = true := by
  rw [← boxPosition?_eq_zero_iff, boxLabel?]
  rcases boxPosition? x with _ | _ | place <;> simp

/-- A tick at a box has its tag, and any other tick has no text: infinities, whatever is far off,
and what is in front of the first box or behind the last one.  The position that one is taken
from is at least one for everything but what is not a number, which gets the position zero and
so no answer; where counts wrap around, its label is empty. -/
theorem boxLabel?_spec {boxes : List BoxSummary} (hcount : boxes.length < 2 ^ 63) (x : Float) :
    (∀ position, boxPosition? x = some position → (1 ≤ position ↔ x.isNaN = false)) ∧
      (boxLabel? boxes x = none ↔ x.isNaN = true) ∧
      (∀ place box, boxes[place]? = some box → NearBox x (place + 1) →
        boxLabel? boxes x = some box.tag ∧ ∀ other, NearBox x other → other = place + 1) ∧
      ((∀ place < boxes.length, ¬NearBox x (place + 1)) →
        boxLabel boxes x = "" ∧ (x.isNaN = false → boxLabel? boxes x = some "")) := by
  have hlimit : ∀ place < boxes.length, ((place + 1 : Nat) : Int) < maxWord64 := by
    intro place hplace
    simp only [maxWord64]
    omega
  refine ⟨fun position hposition => ?_, boxLabel?_eq_none_iff boxes x,
    fun place box hbox hnear => ?_, fun hfar => ?_⟩
  · rw [← Bool.not_eq_true, ← boxPosition?_eq_zero_iff, hposition, Option.some.injEq]
    omega
  · obtain ⟨hplace, rfl⟩ := List.getElem?_eq_some_iff.1 hbox
    have hposition := (boxPosition?_eq_some_iff (by omega) (hlimit place hplace) x).2 hnear
    refine ⟨?_, fun other => hnear.unique⟩
    rw [boxLabel?_of_position hposition, hbox]
    rfl
  · have hempty : x.isNaN = false → boxLabel? boxes x = some "" := by
      intro hnumber
      cases hposition : boxPosition? x with
      | none => rw [boxLabel?, hposition]
      | some position =>
        cases position with
        | zero =>
          rw [boxPosition?_eq_zero_iff, hnumber] at hposition
          cases hposition
        | succ place =>
          have hbehind : boxes.length ≤ place := by
            by_contra hplace
            exact hfar place (not_le.1 hplace)
              ((boxPosition?_eq_some_iff (by omega) (hlimit place (not_le.1 hplace)) x).1 hposition)
          rw [boxLabel?_of_position hposition, List.getElem?_eq_none hbehind]
          rfl
    refine ⟨?_, hempty⟩
    rw [boxLabel]
    cases hnan : x.isNaN with
    | false => rw [hempty hnan, Option.getD_some]
    | true => rw [(boxLabel?_eq_none_iff boxes x).2 hnan, Option.getD_none]

/-- The literal `1.000001` is a little less than the decimal and within the tolerance, and
`2.000001` is a little more than the decimal and is not. -/
theorem boxLabel?_spec_tolerance :
    let boxes := [BoxSummary.ofSorted "a" [1], BoxSummary.ofSorted "b" [2]]
    boxLabel? boxes 1.000001 = some "a" ∧ boxLabel boxes 2.000001 = "" := by
  intro boxes
  have hnear : NearBox 1.000001 1 := by
    refine ⟨rfl, ?_⟩
    rw [toRat_tickTolerance, @toRat_of_rank _ 1022 4503604130970123 rfl (by decide)
      (.inr (by decide)), minExponent, abs_le]
    norm_num
  have hfar : ∀ place < boxes.length, ¬NearBox 2.000001 (place + 1) := by
    rintro place hplace ⟨-, hdistance⟩
    rw [toRat_tickTolerance, @toRat_of_rank _ 1023 4503601879170310 rfl (by decide)
      (.inr (by decide)), minExponent, abs_le] at hdistance
    have htwo : place < 2 := hplace
    interval_cases place <;> norm_num at hdistance
  have hcount : boxes.length < 2 ^ 63 := by decide
  exact ⟨((boxLabel?_spec hcount 1.000001).2.2.1 0 _ rfl hnear).1,
    ((boxLabel?_spec hcount 2.000001).2.2.2 hfar).1⟩

/-- One less than the position of what is not a number is no count. -/
theorem boxLabel?_notANumber :
    boxPosition? notANumber = some 0 ∧
      boxLabel? [BoxSummary.ofSorted "a" [1]] notANumber = none :=
  ⟨rfl, rfl⟩

end TimingReport.Chart
