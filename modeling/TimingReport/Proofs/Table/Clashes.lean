import TimingReport.Proofs.Fallible
import TimingReport.Proofs.Table.Meaning

/-!
# Clashes

Where duplicates are rejected, measurements are added up to the first one whose cell is taken.
Those before it have no clash, so there is only one that the cell can be taken by.
-/

namespace TimingReport.TimingTable

open TimingReport.TimingLog (Measurement)

/-- The measurements at two positions belong into the same cell. -/
structure ClashAt (measurements : List Measurement) (i j : Nat) : Prop where
  lt : i < j
  same_cell : ∃ earlier later, measurements[i]? = some earlier ∧ measurements[j]? = some later ∧
    earlier.index = later.index ∧ earlier.tag = later.tag

/-- The second measurement of the clash is the first one in the list that clashes with an earlier
one, and that is the only earlier one in its cell. -/
structure FirstClashAt (measurements : List Measurement) (i j : Nat) : Prop
    extends ClashAt measurements i j where
  no_clash_before : ∀ i' j', j' < j → ¬ClashAt measurements i' j'
  unique_earlier : ∀ i', ClashAt measurements i' j → i' = i

theorem noClash_iff_forall_not_clashAt (measurements : List Measurement) :
    NoClash measurements ↔ ∀ i j, ¬ClashAt measurements i j := by
  rw [NoClash, List.Nodup, List.pairwise_map, List.pairwise_iff_getElem]
  constructor
  · rintro hapart i j ⟨hlt, earlier, later, hearlier, hlater, hindex, htag⟩
    obtain ⟨hi, rfl⟩ := List.getElem?_eq_some_iff.1 hearlier
    obtain ⟨hj, rfl⟩ := List.getElem?_eq_some_iff.1 hlater
    exact hapart i j hi hj hlt (Prod.ext hindex htag)
  · intro hnone i j hi hj hlt hsame
    obtain ⟨hindex, htag⟩ := Prod.mk.inj hsame
    exact hnone i j ⟨hlt, _, _, List.getElem?_eq_getElem hi, List.getElem?_eq_getElem hj, hindex,
      htag⟩

namespace ClashAt

variable {measurements later : List Measurement} {i i' j : Nat}

/-- What follows a measurement has no say in its clashes. -/
theorem append_iff (hj : j < measurements.length) :
    ClashAt (measurements ++ later) i j ↔ ClashAt measurements i j := by
  constructor
  · rintro ⟨hlt, hcell⟩
    rw [List.getElem?_append_left (hlt.trans hj), List.getElem?_append_left hj] at hcell
    exact ⟨hlt, hcell⟩
  · rintro ⟨hlt, hcell⟩
    rw [← List.getElem?_append_left (hlt.trans hj), ← List.getElem?_append_left hj] at hcell
    exact ⟨hlt, hcell⟩

/-- Of two measurements that clash with the same later one, the second clashes with the first. -/
theorem of_lt (hclash : ClashAt measurements i j) (hclash' : ClashAt measurements i' j)
    (hlt : i < i') : ClashAt measurements i i' := by
  obtain ⟨-, earlier, later, hearlier, hlater, hindex, htag⟩ := hclash
  obtain ⟨-, earlier', later', hearlier', hlater', hindex', htag'⟩ := hclash'
  obtain rfl := Option.some.inj (hlater.symm.trans hlater')
  exact ⟨hlt, earlier, earlier', hearlier, hearlier', hindex.trans hindex'.symm,
    htag.trans htag'.symm⟩

end ClashAt

namespace FirstClashAt

variable {measurements : List Measurement} {i j i' j' : Nat}

/-- A clash is the first one if there is none among the measurements before it. -/
theorem of_noClash (hclash : ClashAt measurements i j)
    (hnone : ∀ i' j', j' < j → ¬ClashAt measurements i' j') : FirstClashAt measurements i j := by
  refine ⟨hclash, hnone, fun i' hclash' => ?_⟩
  rcases lt_trichotomy i i' with hlt | rfl | hgt
  · exact absurd (hclash.of_lt hclash' hlt) (hnone i i' hclash'.lt)
  · rfl
  · exact absurd (hclash'.of_lt hclash hgt) (hnone i' i hclash.lt)

theorem unique (hfirst : FirstClashAt measurements i j)
    (hfirst' : FirstClashAt measurements i' j') :
    i' = i ∧ j' = j := by
  have hj : j' = j := by
    apply le_antisymm
    · exact not_lt.1 fun hlt => hfirst'.no_clash_before i j hlt hfirst.toClashAt
    · exact not_lt.1 fun hlt => hfirst.no_clash_before i' j' hlt hfirst'.toClashAt
  subst hj
  exact ⟨hfirst.unique_earlier i' hfirst'.toClashAt, rfl⟩

end FirstClashAt

/-! ## Adding measurements -/

/-- A measurement is refused exactly if its cell is taken and the rule rejects duplicates. -/
theorem add_error_iff {rule : DuplicateRule} {cells : Cells} {measurement : Measurement}
    {clash : Clash} :
    cells.add rule measurement = .error clash ↔
      rule = .reject ∧ ∃ first, cells.time? measurement.index measurement.tag = some first ∧
        clash = ⟨measurement.index, measurement.tag, first, measurement.time⟩ := by
  cases hthere : cells.time? measurement.index measurement.tag <;>
    cases rule <;> simp [Cells.add, hthere, eq_comm]

/-- The measurement that is refused is the later one of the first clash. -/
theorem exists_firstClashAt_of_error {measurements : List Measurement} {clash : Clash}
    (herror : ofMeasurements .reject measurements = .error clash) :
    ∃ i j earlier later, FirstClashAt measurements i j ∧ measurements[i]? = some earlier ∧
      measurements[j]? = some later ∧
      clash = ⟨later.index, later.tag, earlier.time, later.time⟩ := by
  have hfold : measurements.foldlM (Cells.add .reject) [] = .error clash :=
    Fallible.map_error_iff.1 herror
  obtain ⟨added, later, rest, cells, rfl, hadded, hadd⟩ := Fallible.foldlM_error_iff.1 hfold
  obtain ⟨-, first, htaken, rfl⟩ := add_error_iff.1 hadd
  have hcells : Holds .reject added cells := by simpa using (holds_nil .reject).foldlM hadded
  -- The time in the cell is the one of a measurement that has been added.
  rw [hcells.time?_eq] at htaken
  obtain ⟨earlier, hfound, rfl⟩ := Option.map_eq_some_iff.1 htaken
  have hbelongs := List.find?_some hfound
  simp only [belongsTo, Bool.and_eq_true, decide_eq_true_eq] at hbelongs
  obtain ⟨i, hi, rfl⟩ := List.getElem_of_mem (List.mem_of_find?_eq_some hfound)
  have hearlier : (added ++ later :: rest)[i]? = some added[i] := by
    rw [List.getElem?_append_left hi, List.getElem?_eq_getElem hi]
  have hlater : (added ++ later :: rest)[added.length]? = some later := by simp
  have hclash : ClashAt (added ++ later :: rest) i added.length :=
    ⟨hi, _, _, hearlier, hlater, hbelongs.1, hbelongs.2⟩
  have hnone : ∀ i' j', j' < added.length → ¬ClashAt (added ++ later :: rest) i' j' := by
    intro i' j' hj'
    rw [ClashAt.append_iff hj']
    exact (noClash_iff_forall_not_clashAt added).1 (hcells.noClash rfl) i' j'
  exact ⟨i, added.length, _, _, .of_noClash hclash hnone, hearlier, hlater, rfl⟩

/-- Where duplicates are rejected, measurements are refused exactly if two of them belong into the
same cell.  What is told is the first clash: the later measurement is the first in the list that
has an earlier one in its cell, and the earlier one is the only one there. -/
theorem ofMeasurements_first_clash (measurements : List Measurement) :
    ((∃ clash, ofMeasurements .reject measurements = .error clash) ↔
        ∃ i j, ClashAt measurements i j) ∧
      ∀ clash, ofMeasurements .reject measurements = .error clash ↔
        ∃ i j earlier later, FirstClashAt measurements i j ∧ measurements[i]? = some earlier ∧
          measurements[j]? = some later ∧
          clash = ⟨later.index, later.tag, earlier.time, later.time⟩ := by
  have hrefused : (∃ clash, ofMeasurements .reject measurements = .error clash) ↔
      ∃ i j, ClashAt measurements i j := by
    have haccepted := @exists_ofMeasurements_iff .reject measurements
    rw [forall_prop_of_true rfl, noClash_iff_forall_not_clashAt] at haccepted
    rw [← not_iff_not, not_exists, not_exists]
    simp only [not_exists]
    rw [← haccepted]
    cases ofMeasurements .reject measurements <;> simp
  refine ⟨hrefused, fun clash => ⟨exists_firstClashAt_of_error, ?_⟩⟩
  rintro ⟨i, j, earlier, later, hfirst, hearlier, hlater, rfl⟩
  obtain ⟨other, herror⟩ := hrefused.2 ⟨i, j, hfirst.toClashAt⟩
  obtain ⟨i', j', earlier', later', hfirst', hearlier', hlater', rfl⟩ :=
    exists_firstClashAt_of_error herror
  obtain ⟨rfl, rfl⟩ := hfirst.unique hfirst'
  obtain rfl := Option.some.inj (hearlier.symm.trans hearlier')
  obtain rfl := Option.some.inj (hlater.symm.trans hlater')
  exact herror

end TimingReport.TimingTable
