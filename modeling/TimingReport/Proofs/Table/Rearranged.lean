import TimingReport.Proofs.Table.Columns

/-!
# The order of measurements

A cell has the time that the rule picks from its own measurements, so only the order in which
these follow each other can matter.  Tags and indices are sorted, and whether two measurements
clash does not depend on any order.
-/

namespace TimingReport.TimingTable

open TimingReport.TimingLog (Measurement)
open TimingReport.Table

/-- The same measurements, those of each cell in the same order. -/
structure Rearranged (measurements other : List Measurement) : Prop where
  perm : measurements.Perm other
  cell_eq : ∀ index tag,
    other.filter (belongsTo index tag) = measurements.filter (belongsTo index tag)

/-- A time is picked from the measurements of its cell. -/
theorem pickedTime?_filter (rule : DuplicateRule) (measurements : List Measurement) (index : Int)
    (tag : String) :
    pickedTime? rule (measurements.filter (belongsTo index tag)) index tag =
      pickedTime? rule measurements index tag := by
  cases rule <;> simp [pickedTime?, ← List.head?_filter, ← List.filter_reverse]

/-- The rows of a table are filled with the times that the rule picks. -/
theorem Fills.rows_eq_map {rule : DuplicateRule} {measurements : List Measurement} {cells : Cells}
    {table : TimingTable} (hfills : Fills rule measurements cells table) :
    table.rows = table.indices.map fun index =>
      (index, table.tags.map fun tag => (tag, pickedTime? rule measurements index tag)) := by
  rw [hfills.indices_eq, hfills.rows_eq, List.map_map]
  refine List.map_congr_left fun entry hentry => ?_
  rw [Function.comp_apply, fillRow]
  refine congrArg _ (List.map_congr_left fun tag _ => ?_)
  rw [← hfills.time?_eq, Cells.time?, lookup_eq_of_mem hfills.ascending hentry, Option.bind_some]

namespace Rearranged

variable {measurements other : List Measurement}

theorem pickedTime?_eq (hother : Rearranged measurements other) (rule : DuplicateRule) (index : Int)
    (tag : String) :
    pickedTime? rule other index tag = pickedTime? rule measurements index tag := by
  rw [← pickedTime?_filter, hother.cell_eq, pickedTime?_filter]

theorem sortedKeys_tags_eq (hother : Rearranged measurements other) :
    sortedKeys (other.map Measurement.tag) = sortedKeys (measurements.map Measurement.tag) := by
  refine List.Pairwise.eq_of_mem_iff (ascending_sortedKeys _) (ascending_sortedKeys _) fun tag => ?_
  rw [mem_sortedKeys, mem_sortedKeys]
  exact (hother.perm.map Measurement.tag).symm.mem_iff

theorem measuredIndices_eq (hother : Rearranged measurements other) :
    measuredIndices other = measuredIndices measurements :=
  List.toFinset_eq_of_perm _ _ (hother.perm.map Measurement.index).symm

theorem noClash_iff (hother : Rearranged measurements other) :
    NoClash other ↔ NoClash measurements :=
  (hother.perm.map _).symm.nodup_iff

theorem table_eq (hother : Rearranged measurements other) {rule : DuplicateRule}
    {table otherTable : TimingTable} (htable : ofMeasurements rule measurements = .ok table)
    (hotherTable : ofMeasurements rule other = .ok otherTable) : otherTable = table := by
  obtain ⟨cells, hfills⟩ := exists_fills_of_ofMeasurements htable
  obtain ⟨otherCells, hotherFills⟩ := exists_fills_of_ofMeasurements hotherTable
  have htags : otherTable.tags = table.tags := by
    rw [hotherFills.tags_eq, hfills.tags_eq, hother.sortedKeys_tags_eq]
  have hrows : otherTable.rows = table.rows := by
    rw [hotherFills.rows_eq_map, hfills.rows_eq_map, hotherFills.indices_eq_sort,
      hfills.indices_eq_sort, hother.measuredIndices_eq, htags]
    simp only [hother.pickedTime?_eq]
  cases table
  cases otherTable
  exact congrArg₂ TimingTable.mk htags hrows

/-- Rearranged measurements make the same table, or both clash where clashes are rejected. -/
theorem ofMeasurements_eq (hother : Rearranged measurements other) (rule : DuplicateRule) :
    ofMeasurements rule other = ofMeasurements rule measurements ∨
      rule = .reject ∧ ∃ clash otherClash, ofMeasurements rule measurements = .error clash ∧
        ofMeasurements rule other = .error otherClash := by
  have hiff := @exists_ofMeasurements_iff rule measurements
  have hotherIff := @exists_ofMeasurements_iff rule other
  rw [hother.noClash_iff, ← hiff] at hotherIff
  cases htable : ofMeasurements rule measurements with
  | ok table =>
    obtain ⟨otherTable, hotherTable⟩ := hotherIff.2 ⟨table, htable⟩
    rw [hotherTable, hother.table_eq htable hotherTable]
    exact .inl rfl
  | error clash =>
    have hreject : rule = .reject := by
      by_contra hrule
      obtain ⟨table, hfound⟩ := hiff.2 fun hreject => absurd hreject hrule
      rw [htable] at hfound
      cases hfound
    cases hotherTable : ofMeasurements rule other with
    | ok otherTable =>
      obtain ⟨table, hfound⟩ := hotherIff.1 ⟨otherTable, hotherTable⟩
      rw [htable] at hfound
      cases hfound
    | error otherClash => exact .inr ⟨hreject, clash, otherClash, rfl, rfl⟩

end Rearranged

end TimingReport.TimingTable
