import Mathlib
import TimingReport.Proofs.Table.Meaning

/-!
# Rows and columns of a timing table

A table has a row for every index that was measured, and its column of a tag has the time
that the rule picks for each index at which the tag was measured.  Selecting columns
changes neither the rows nor the columns that are kept.
-/

namespace TimingReport.TimingTable

open TimingReport.TimingLog (Measurement)
open TimingReport.Table

/-- The indices at which something was measured. -/
def measuredIndices (measurements : List Measurement) : Finset Int :=
  (measurements.map Measurement.index).toFinset

/-- The indices at which a tag was measured. -/
def indicesOf (measurements : List Measurement) (tag : String) : Finset Int :=
  measuredIndices (measurements.filter fun measurement => measurement.tag = tag)

/-- The times of a tag in ascending order of their indices. -/
def timesOf (rule : DuplicateRule) (measurements : List Measurement) (tag : String) :
    List Float :=
  ((indicesOf measurements tag).sort (· ≤ ·)).filterMap fun index =>
    pickedTime? rule measurements index tag

theorem mem_measuredIndices {measurements : List Measurement} {index : Int} :
    index ∈ measuredIndices measurements ↔
      ∃ measurement ∈ measurements, measurement.index = index := by
  simp [measuredIndices]

theorem mem_indicesOf {measurements : List Measurement} {index : Int} {tag : String} :
    index ∈ indicesOf measurements tag ↔
      ∃ measurement ∈ measurements, belongsTo index tag measurement = true := by
  simp [indicesOf, mem_measuredIndices, belongsTo, and_assoc, and_comm]

/-- A time is picked exactly at the indices of the tag. -/
theorem pickedTime?_eq_none_iff_not_mem {rule : DuplicateRule} {measurements : List Measurement}
    {index : Int} {tag : String} :
    pickedTime? rule measurements index tag = none ↔ index ∉ indicesOf measurements tag := by
  simp [pickedTime?_eq_none_iff, mem_indicesOf]

/-- The time that is picked is the time of a measurement. -/
theorem exists_time_eq_of_pickedTime? {rule : DuplicateRule} {measurements : List Measurement}
    {index : Int} {tag : String} {time : Float}
    (hpicked : pickedTime? rule measurements index tag = some time) :
    ∃ measurement ∈ measurements, measurement.time = time := by
  cases rule <;>
  · obtain ⟨measurement, hfound, htime⟩ := Option.map_eq_some_iff.1 hpicked
    exact ⟨measurement, by simpa using List.mem_of_find?_eq_some hfound, htime⟩

theorem length_timesOf (rule : DuplicateRule) (measurements : List Measurement) (tag : String) :
    (timesOf rule measurements tag).length = (indicesOf measurements tag).card := by
  rw [timesOf, List.length_filterMap_eq_countP, List.countP_eq_length.2, Finset.length_sort]
  intro index hindex
  rw [Finset.mem_sort] at hindex
  rw [← Option.ne_none_iff_isSome, ne_eq, pickedTime?_eq_none_iff_not_mem, not_not]
  exact hindex

theorem exists_time_eq_of_mem_timesOf {rule : DuplicateRule} {measurements : List Measurement}
    {tag : String} {time : Float} (htime : time ∈ timesOf rule measurements tag) :
    ∃ measurement ∈ measurements, measurement.time = time := by
  obtain ⟨index, -, hpicked⟩ := List.mem_filterMap.1 htime
  exact exists_time_eq_of_pickedTime? hpicked

/-! ## Rows -/

/-- Ascending lists are known by their elements. -/
theorem eq_sort_of_ascending {keys : List Int} (hkeys : Ascending keys) {elements : Finset Int}
    (hmem : ∀ key, key ∈ keys ↔ key ∈ elements) : keys = elements.sort (· ≤ ·) := by
  refine List.Pairwise.eq_of_mem_iff hkeys (Finset.sortedLT_sort elements).pairwise fun key => ?_
  rw [hmem, Finset.mem_sort]

namespace Fills

variable {rule : DuplicateRule} {measurements : List Measurement} {cells : Cells}
  {table : TimingTable}

theorem indices_eq_sort (hfills : Fills rule measurements cells table) :
    table.indices = (measuredIndices measurements).sort (· ≤ ·) := by
  rw [hfills.indices_eq]
  refine eq_sort_of_ascending hfills.ascending fun index => ?_
  rw [hfills.mem_indices_iff, mem_measuredIndices]

theorem rowCount_eq (hfills : Fills rule measurements cells table) :
    table.rowCount = (measuredIndices measurements).card := by
  rw [rowCount, ← List.length_map Prod.fst, ← Finset.length_sort (· ≤ ·)]
  exact congrArg List.length hfills.indices_eq_sort

end Fills

/-! ## Columns -/

theorem lookup_eq_of_mem {κ α : Type} [LinearOrder κ] {entries : List (κ × α)}
    (hentries : Ascending (entries.map Prod.fst)) {entry : κ × α} (hentry : entry ∈ entries) :
    entries.lookup entry.1 = some entry.2 := by
  induction entries with
  | nil => cases hentry
  | cons head rest ih =>
    obtain ⟨hhead, hrest⟩ := List.pairwise_cons.1 hentries
    obtain ⟨key, value⟩ := head
    rw [lookup_cons]
    rcases List.mem_cons.1 hentry with rfl | hmem
    · exact if_pos rfl
    · have hne : entry.1 ≠ key := (hhead _ (List.mem_map_of_mem hmem)).ne'
      rw [if_neg hne, ih hrest hmem]

/-- A column has the values of its cells, row by row. -/
theorem column_eq_filterMap {table : TimingTable} (hindices : Ascending table.indices)
    (tag : String) :
    table.column tag = table.indices.filterMap fun index => table.value? index tag := by
  rw [column, indices, List.filterMap_map]
  refine List.filterMap_congr fun row hrow => ?_
  rw [Function.comp_apply, value?, cell?, lookup_eq_of_mem hindices hrow, Option.bind_some]

theorem Fills.column_eq {rule : DuplicateRule} {measurements : List Measurement} {cells : Cells}
    {table : TimingTable} (hfills : Fills rule measurements cells table) (tag : String) :
    table.column tag = timesOf rule measurements tag := by
  have hindices : Ascending table.indices := by
    rw [hfills.indices_eq]
    exact hfills.ascending
  -- At the other indices nothing is picked, so the column skips them.
  have hkept : (indicesOf measurements tag).sort (· ≤ ·) =
      table.indices.filter fun index => index ∈ indicesOf measurements tag := by
    symm
    refine eq_sort_of_ascending (hindices.filter _) fun index => ?_
    rw [List.mem_filter, decide_eq_true_eq, and_iff_right_of_imp]
    intro hindex
    obtain ⟨measurement, hmeasurement, hbelongs⟩ := mem_indicesOf.1 hindex
    rw [hfills.indices_eq, hfills.mem_indices_iff]
    simp only [belongsTo, Bool.and_eq_true, decide_eq_true_eq] at hbelongs
    exact ⟨measurement, hmeasurement, hbelongs.1⟩
  rw [column_eq_filterMap hindices, timesOf, hkept, List.filterMap_filter]
  refine List.filterMap_congr fun index _ => ?_
  rw [hfills.value?_eq]
  split
  · rfl
  · next hother =>
    rw [pickedTime?_eq_none_iff_not_mem]
    simpa using hother

/-! ## Selected columns -/

@[simp]
theorem rowCount_select (keep : String → Bool) (table : TimingTable) :
    (table.select keep).rowCount = table.rowCount := List.length_map _

theorem lookup_filter_key {κ α : Type} [DecidableEq κ] {keep : κ → Bool} {key : κ}
    (hkeep : keep key = true) (entries : List (κ × α)) :
    (entries.filter fun entry => keep entry.1).lookup key = entries.lookup key := by
  induction entries with
  | nil => rfl
  | cons entry rest ih =>
    obtain ⟨other, value⟩ := entry
    rw [List.filter_cons]
    split
    · rw [lookup_cons, lookup_cons, ih]
    · next hother =>
      have hne : key ≠ other := by
        rintro rfl
        exact hother hkeep
      rw [ih, lookup_cons, if_neg hne]

theorem column_select {keep : String → Bool} {tag : String} (hkeep : keep tag = true)
    (table : TimingTable) : (table.select keep).column tag = table.column tag := by
  rw [column, column, select, List.filterMap_map]
  refine List.filterMap_congr fun row _ => ?_
  exact congrArg Option.join (lookup_filter_key hkeep row.2)

end TimingReport.TimingTable
