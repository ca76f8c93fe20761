import TimingReport.BoxSummary
import TimingReport.Proofs.Fallible
import TimingReport.Proofs.Table.Rearranged

/-!
# Selecting columns

Selecting columns one test after the other is selecting those that pass all tests.  The columns
that are left are those of a table of only the measurements whose tags pass, but the rows are
still those of all measurements.
-/

namespace TimingReport.TimingTable

open TimingReport.TimingLog (Measurement)
open TimingReport.Table

def passesAll (tests : List (String → Bool)) (tag : String) : Bool := tests.all fun test => test tag

/-- The table after one selection for each of the tests. -/
def selectAll (tests : List (String → Bool)) (table : TimingTable) : TimingTable :=
  tests.foldl (fun table test => table.select test) table

theorem passesAll_congr {tests other : List (String → Bool)}
    (hsame : ∀ test, test ∈ other ↔ test ∈ tests) : passesAll other = passesAll tests := by
  funext tag
  rw [Bool.eq_iff_iff, passesAll, passesAll, List.all_eq_true, List.all_eq_true]
  exact forall_congr' fun test => by rw [hsame]

/-! ## One selection after the other -/

theorem select_select (first second : String → Bool) (table : TimingTable) :
    (table.select first).select second = table.select fun tag => first tag && second tag := by
  rw [select, select, select, List.filter_filter, List.map_map]
  congr 1
  · exact List.filter_congr fun tag _ => Bool.and_comm _ _
  · refine List.map_congr_left fun row _ => congrArg (Prod.mk row.1) ?_
    rw [List.filter_filter]
    exact List.filter_congr fun entry _ => Bool.and_comm _ _

theorem select_true (table : TimingTable) : (table.select fun _ => true) = table := by
  simp [select]

theorem selectAll_eq_select (tests : List (String → Bool)) (table : TimingTable) :
    table.selectAll tests = table.select (passesAll tests) := by
  induction tests generalizing table with
  | nil => exact (select_true table).symm
  | cons test rest ih =>
    rw [selectAll, List.foldl_cons, ← selectAll, ih, select_select]
    rfl

/-! ## What is left -/

theorem indices_select (keep : String → Bool) (table : TimingTable) :
    (table.select keep).indices = table.indices := by
  rw [indices, indices, select, List.map_map]
  rfl

theorem row_keys_select {keep : String → Bool} {table : TimingTable}
    (hkeys : ∀ row ∈ table.rows, row.2.map Prod.fst = table.tags)
    {row : Int × List (String × Option Float)} (hrow : row ∈ (table.select keep).rows) :
    row.2.map Prod.fst = (table.select keep).tags := by
  obtain ⟨whole, hwhole, rfl⟩ := List.mem_map.1 hrow
  rw [select, ← hkeys whole hwhole, List.filter_map]
  rfl

section Rectangular

variable {table : TimingTable} {tag : String}

/-- Where every row has a cell for exactly the columns, a tag that is no column has no cell. -/
theorem lookup_eq_none_of_not_mem_tags (hkeys : ∀ row ∈ table.rows, row.2.map Prod.fst = table.tags)
    (htag : tag ∉ table.tags) {row : Int × List (String × Option Float)} (hrow : row ∈ table.rows) :
    row.2.lookup tag = none := by
  rwa [lookup_eq_none_iff_not_mem, hkeys row hrow]

theorem cell?_eq_none_of_not_mem_tags (hkeys : ∀ row ∈ table.rows, row.2.map Prod.fst = table.tags)
    (htag : tag ∉ table.tags) (index : Int) : table.cell? index tag = none := by
  rw [cell?]
  cases hlookup : table.rows.lookup index with
  | none => rfl
  | some row =>
    obtain ⟨before, after, hrows, -⟩ := List.lookup_eq_some_iff.1 hlookup
    have hrow : (index, row) ∈ table.rows := by simp [hrows]
    exact lookup_eq_none_of_not_mem_tags hkeys htag hrow

theorem column_eq_nil_of_not_mem_tags (hkeys : ∀ row ∈ table.rows, row.2.map Prod.fst = table.tags)
    (htag : tag ∉ table.tags) : table.column tag = [] := by
  rw [column, List.filterMap_eq_nil_iff]
  intro row hrow
  exact congrArg Option.join (lookup_eq_none_of_not_mem_tags hkeys htag hrow)

end Rectangular

/-! ## Fewer measurements -/

section Filtered

variable {rule : DuplicateRule} {measurements : List Measurement} {keep : String → Bool}
  {tag : String}

/-- The measurements of a cell are not affected by leaving out other tags. -/
theorem filter_belongsTo_filter (hkeep : keep tag = true) (index : Int) :
    (measurements.filter fun measurement => keep measurement.tag).filter (belongsTo index tag) =
      measurements.filter (belongsTo index tag) := by
  rw [List.filter_filter]
  refine List.filter_congr fun measurement _ => ?_
  rw [Bool.and_eq_left_iff_imp, belongsTo, Bool.and_eq_true, decide_eq_true_eq, decide_eq_true_eq]
  rintro ⟨-, rfl⟩
  exact hkeep

theorem pickedTime?_filter_tag (hkeep : keep tag = true) (index : Int) :
    pickedTime? rule (measurements.filter fun measurement => keep measurement.tag) index tag =
      pickedTime? rule measurements index tag := by
  rw [← pickedTime?_filter, filter_belongsTo_filter hkeep, pickedTime?_filter]

theorem indicesOf_filter_tag (hkeep : keep tag = true) :
    indicesOf (measurements.filter fun measurement => keep measurement.tag) tag =
      indicesOf measurements tag := by
  ext index
  have hnone := @pickedTime?_eq_none_iff_not_mem .first
    (measurements.filter fun measurement => keep measurement.tag) index tag
  rw [pickedTime?_filter_tag hkeep, pickedTime?_eq_none_iff_not_mem] at hnone
  exact (not_iff_not.1 hnone).symm

theorem timesOf_filter_tag (hkeep : keep tag = true) :
    timesOf rule (measurements.filter fun measurement => keep measurement.tag) tag =
      timesOf rule measurements tag := by
  rw [timesOf, timesOf, indicesOf_filter_tag hkeep]
  exact List.filterMap_congr fun index _ => pickedTime?_filter_tag hkeep index

theorem sortedKeys_tags_filter :
    sortedKeys ((measurements.filter fun measurement => keep measurement.tag).map Measurement.tag) =
      (sortedKeys (measurements.map Measurement.tag)).filter keep := by
  refine List.Pairwise.eq_of_mem_iff (ascending_sortedKeys _)
    ((ascending_sortedKeys _).filter _) fun tag => ?_
  rw [mem_sortedKeys, List.mem_filter, mem_sortedKeys, ← Function.comp_def keep, ← List.filter_map,
    List.mem_filter]

/-- Leaving out measurements brings about no clash. -/
theorem exists_ofMeasurements_filter {table : TimingTable}
    (htable : ofMeasurements rule measurements = .ok table) (test : Measurement → Bool) :
    ∃ filtered, ofMeasurements rule (measurements.filter test) = .ok filtered := by
  rw [exists_ofMeasurements_iff]
  intro hreject
  have hnoClash := exists_ofMeasurements_iff.1 ⟨table, htable⟩ hreject
  exact (List.filter_sublist.map _).nodup hnoClash

end Filtered

/-- What is left of a table after any number of selections.  Its columns are those that pass all
tests, and its rows are those of all measurements, each with a cell for every column that is left.
A column that is left has the values, and so the statistics, that it has in the table of only
the measurements whose tags pass; of any other column nothing is known.  Neither the order nor the
repetition of the tests matters. -/
theorem selectAll_meaning {rule : DuplicateRule} {measurements : List Measurement}
    {table : TimingTable} (htable : ofMeasurements rule measurements = .ok table)
    (tests : List (String → Bool)) :
    (table.selectAll tests).tags = table.tags.filter (passesAll tests) ∧
      (table.selectAll tests).indices = table.indices ∧
      (∀ index, index ∈ (table.selectAll tests).indices ↔
        ∃ measurement ∈ measurements, measurement.index = index) ∧
      (∀ row ∈ (table.selectAll tests).rows,
        row.2.map Prod.fst = (table.selectAll tests).tags) ∧
      (∃ filtered,
        ofMeasurements rule
            (measurements.filter fun measurement => passesAll tests measurement.tag) =
          .ok filtered ∧
        filtered.tags = (table.selectAll tests).tags ∧
        ∀ tag ∈ (table.selectAll tests).tags,
          (table.selectAll tests).column tag = filtered.column tag ∧
          BoxSummary.ofSamples tag ((table.selectAll tests).column tag) =
            BoxSummary.ofSamples tag (filtered.column tag)) ∧
      (∀ tag ∉ (table.selectAll tests).tags,
        (∀ index, (table.selectAll tests).value? index tag = none ∧
          (table.selectAll tests).isGap index tag = false) ∧
        (table.selectAll tests).column tag = []) ∧
      ∀ other : List (String → Bool), (∀ test, test ∈ other ↔ test ∈ tests) →
        table.selectAll other = table.selectAll tests := by
  obtain ⟨cells, hfills⟩ := exists_fills_of_ofMeasurements htable
  obtain ⟨filtered, hfiltered⟩ := exists_ofMeasurements_filter htable fun measurement =>
    passesAll tests measurement.tag
  obtain ⟨filteredCells, hfilteredFills⟩ := exists_fills_of_ofMeasurements hfiltered
  simp only [selectAll_eq_select]
  generalize hkeep : passesAll tests = keep at *
  have htags : (table.select keep).tags = table.tags.filter keep := rfl
  have hkeys : ∀ row ∈ (table.select keep).rows, row.2.map Prod.fst = (table.select keep).tags :=
    fun row hrow => row_keys_select (fun _ => hfills.row_keys) hrow
  have hcolumn : ∀ tag ∈ (table.select keep).tags,
      (table.select keep).column tag = filtered.column tag := by
    intro tag htag
    have hpasses : keep tag = true := (List.mem_filter.1 htag).2
    rw [column_select hpasses, hfills.column_eq, hfilteredFills.column_eq,
      timesOf_filter_tag hpasses]
  refine ⟨htags, indices_select keep table, fun index => ?_, hkeys,
    ⟨filtered, hfiltered, ?_, fun tag htag => ⟨hcolumn tag htag, ?_⟩⟩, fun tag htag => ?_,
    fun other hsame => ?_⟩
  · rw [indices_select, hfills.indices_eq]
    exact hfills.mem_indices_iff index
  · rw [hfilteredFills.tags_eq, sortedKeys_tags_filter, htags, hfills.tags_eq]
  · rw [hcolumn tag htag]
  · have hcell := cell?_eq_none_of_not_mem_tags hkeys htag
    refine ⟨fun index => ⟨?_, ?_⟩, column_eq_nil_of_not_mem_tags hkeys htag⟩
    · rw [value?, hcell]
      rfl
    · rw [isGap, hcell]
  · rw [passesAll_congr hsame, hkeep]

/-- The row of the index 1 stays when the only tag that was measured there is left out. -/
theorem selectAll_meaning_emptied_row :
    let measurements : List Measurement := [⟨0, "load", 1⟩, ⟨1, "query", 3⟩, ⟨0, "query", 2⟩]
    let tests : List (String → Bool) := [fun tag => tag != "sort", fun tag => tag != "query"]
    ∃ table, ofMeasurements .reject measurements = .ok table ∧
      "load" ∈ (table.selectAll tests).tags ∧ "query" ∉ (table.selectAll tests).tags ∧
      1 ∈ (table.selectAll tests).indices ∧ (table.selectAll tests).column "query" = [] ∧
      (∃ filtered, ofMeasurements .reject [⟨0, "load", 1⟩] = .ok filtered ∧
        (table.selectAll tests).column "load" = filtered.column "load") ∧
      table.selectAll tests.reverse = table.selectAll tests := by
  intro measurements tests
  obtain ⟨table, htable⟩ := Fallible.exists_of_isOk
    (show (ofMeasurements .reject measurements).isOk = true by decide +kernel)
  obtain ⟨cells, hfills⟩ := exists_fills_of_ofMeasurements htable
  obtain ⟨htags, -, hindices, -, ⟨filtered, hfiltered, -, hcolumns⟩, hothers, horder⟩ :=
    selectAll_meaning htable tests
  have hload : "load" ∈ (table.selectAll tests).tags := by
    rw [htags, List.mem_filter, hfills.mem_tags_iff]
    exact ⟨⟨⟨0, "load", 1⟩, by simp [measurements], rfl⟩, by decide⟩
  have hquery : "query" ∉ (table.selectAll tests).tags := by
    rw [htags, List.mem_filter]
    exact fun hmem => absurd hmem.2 (by decide)
  exact ⟨table, htable, hload, hquery,
    (hindices 1).2 ⟨⟨1, "query", 3⟩, by simp [measurements], rfl⟩, (hothers "query" hquery).2,
    ⟨filtered, hfiltered, (hcolumns "load" hload).1⟩, horder _ fun _ => List.mem_reverse⟩

end TimingReport.TimingTable
