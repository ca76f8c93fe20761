import TimingReport.Proofs.Table.Selection

/-!
# What the queries of a table say together

A table is rectangular: its rows and columns are ascending, and every row has a cell for exactly
the columns.  Tables of measurements are, and selecting columns keeps them so.  In a rectangular
table every cell is a value or a gap, and each query about cells tells the same of them.
-/

namespace TimingReport.TimingTable

open TimingReport.TimingLog (Measurement)
open TimingReport.Table

/-- The tables that can come up: those of measurements, and what selections leave of them. -/
inductive Reachable : TimingTable → Prop where
  | ofMeasurements {rule : DuplicateRule} {measurements : List Measurement} {table : TimingTable} :
      ofMeasurements rule measurements = .ok table → Reachable table
  | select {table : TimingTable} (keep : String → Bool) :
      Reachable table → Reachable (table.select keep)

structure Rectangular (table : TimingTable) : Prop where
  ascending_tags : Ascending table.tags
  ascending_indices : Ascending table.indices
  row_keys : ∀ row ∈ table.rows, row.2.map Prod.fst = table.tags

/-! ## Rectangular tables -/

theorem Fills.rectangular {rule : DuplicateRule} {measurements : List Measurement} {cells : Cells}
    {table : TimingTable} (hfills : Fills rule measurements cells table) : Rectangular table := by
  refine ⟨?_, ?_, fun _ => hfills.row_keys⟩
  · rw [hfills.tags_eq]
    exact ascending_sortedKeys _
  · rw [hfills.indices_eq]
    exact hfills.ascending

theorem Rectangular.select {table : TimingTable} (htable : Rectangular table)
    (keep : String → Bool) : Rectangular (table.select keep) := by
  refine ⟨htable.ascending_tags.filter keep, ?_, fun _ => row_keys_select htable.row_keys⟩
  rw [indices_select]
  exact htable.ascending_indices

theorem Reachable.rectangular {table : TimingTable} (htable : Reachable table) :
    Rectangular table := by
  induction htable with
  | ofMeasurements htable =>
    obtain ⟨cells, hfills⟩ := exists_fills_of_ofMeasurements htable
    exact hfills.rectangular
  | select keep _ ih => exact ih.select keep

/-! ## Cells -/

theorem isGap_iff_cell? (table : TimingTable) (index : Int) (tag : String) :
    table.isGap index tag = true ↔ table.cell? index tag = some none := by
  rw [isGap]
  split
  · next hcell => simp [hcell]
  · next hother => exact iff_of_false Bool.false_ne_true hother

namespace Rectangular

variable {table : TimingTable}

theorem cell?_eq_none_iff (htable : Rectangular table) (index : Int) (tag : String) :
    table.cell? index tag = none ↔ ¬(index ∈ table.indices ∧ tag ∈ table.tags) := by
  rw [cell?, not_and]
  cases hlookup : table.rows.lookup index with
  | none =>
    have hindex : index ∉ table.indices := (lookup_eq_none_iff_not_mem index table.rows).1 hlookup
    simp [hindex]
  | some row =>
    obtain ⟨before, after, hrows, -⟩ := List.lookup_eq_some_iff.1 hlookup
    have hrow : (index, row) ∈ table.rows := by simp [hrows]
    have hindex : index ∈ table.indices := List.mem_map_of_mem hrow
    rw [Option.bind_some, lookup_eq_none_iff_not_mem, htable.row_keys _ hrow]
    exact ⟨fun htag _ => htag, fun htag => htag hindex⟩

/-- A cell without a value is a gap exactly where its row and its column exist. -/
theorem isGap_iff (htable : Rectangular table) (index : Int) (tag : String) :
    table.isGap index tag = true ↔
      index ∈ table.indices ∧ tag ∈ table.tags ∧ table.value? index tag = none := by
  have hnone := htable.cell?_eq_none_iff index tag
  rw [isGap_iff_cell?, value?, ← and_assoc]
  cases hcell : table.cell? index tag with
  | none => exact iff_of_false (by simp) fun hthere => hnone.1 hcell hthere.1
  | some value =>
    have hthere : index ∈ table.indices ∧ tag ∈ table.tags := by
      rw [hcell] at hnone
      simpa using hnone
    cases value <;> simp [hthere]

theorem keys_of_value? (htable : Rectangular table) {index : Int} {tag : String} {value : Float}
    (hvalue : table.value? index tag = some value) :
    index ∈ table.indices ∧ tag ∈ table.tags := by
  by_contra hmissing
  rw [← htable.cell?_eq_none_iff] at hmissing
  simp [value?, hmissing] at hvalue

/-- The cells of a column are its values and its gaps. -/
theorem length_column_add_gaps (htable : Rectangular table) {tag : String}
    (htag : tag ∈ table.tags) :
    (table.column tag).length + (table.indices.filter fun index => table.isGap index tag).length =
      table.rowCount := by
  have hgaps : (table.indices.filter fun index => table.isGap index tag) =
      table.indices.filter fun index => ¬(table.value? index tag).isSome := by
    refine List.filter_congr fun index hindex => ?_
    rw [Bool.eq_iff_iff, htable.isGap_iff, decide_eq_true_iff, Option.not_isSome_iff_eq_none]
    exact ⟨fun hgap => hgap.2.2, fun hvalue => ⟨hindex, htag, hvalue⟩⟩
  rw [column_eq_filterMap htable.ascending_indices, List.length_filterMap_eq_countP, hgaps,
    ← List.countP_eq_length_filter, ← List.length_eq_countP_add_countP, indices, List.length_map,
    rowCount]

end Rectangular

/-- The queries of a table agree.  A gap is a cell without a value, and only a cell has a value;
a column lists the values of its cells in the order of the indices, so its values and its gaps
make up all rows; and indices and tags are listed in ascending order, each once. -/
theorem queries_agree {table : TimingTable} (htable : Reachable table) :
    (∀ index tag, table.isGap index tag = true ↔
        index ∈ table.indices ∧ tag ∈ table.tags ∧ table.value? index tag = none) ∧
      (∀ index tag value, table.value? index tag = some value →
        index ∈ table.indices ∧ tag ∈ table.tags) ∧
      (∀ tag, table.column tag = table.indices.filterMap fun index => table.value? index tag) ∧
      (∀ tag ∈ table.tags,
        (table.column tag).length +
          (table.indices.filter fun index => table.isGap index tag).length = table.rowCount) ∧
      table.indices.Pairwise (· < ·) ∧ table.tags.Pairwise (· < ·) ∧
      table.indices.length = table.rowCount ∧ table.tags.length = table.columnCount := by
  have hrectangular := htable.rectangular
  exact ⟨hrectangular.isGap_iff, fun _ _ _ => hrectangular.keys_of_value?,
    column_eq_filterMap hrectangular.ascending_indices,
    fun _ => hrectangular.length_column_add_gaps, hrectangular.ascending_indices,
    hrectangular.ascending_tags, List.length_map _, rfl⟩

/-- The column "load" has a value at 0 and a gap at 1; the column "query", which is left out, has
neither. -/
theorem queries_agree_gap :
    let measurements : List Measurement := [⟨0, "load", 1⟩, ⟨1, "query", 3⟩]
    let table : TimingTable := ⟨["load", "query"],
      [(0, [("load", some 1), ("query", none)]), (1, [("load", none), ("query", some 3)])]⟩
    let selected := table.select fun tag => tag == "load"
    ofMeasurements .reject measurements = .ok table ∧
      selected.isGap 1 "load" = true ∧ selected.isGap 0 "load" = false ∧
      selected.isGap 1 "query" = false ∧
      (selected.column "load").length + 1 = selected.rowCount := by
  intro measurements table selected
  have htable : ofMeasurements .reject measurements = .ok table := by rfl
  have hselected : Reachable selected := .select _ (.ofMeasurements htable)
  obtain ⟨hgap, -, -, hlength, -⟩ := queries_agree hselected
  have hload : "load" ∈ selected.tags := by decide
  have hmissing : selected.isGap 1 "load" = true :=
    (hgap 1 "load").2 ⟨by decide, hload, by rfl⟩
  have hthere : selected.isGap 0 "load" = false := by
    rw [Bool.eq_false_iff, Ne, hgap]
    exact fun h => Option.some_ne_none 1 h.2.2
  have hleftOut : selected.isGap 1 "query" = false := by
    rw [Bool.eq_false_iff, Ne, hgap]
    exact fun h => absurd h.2.1 (by decide)
  have hgaps : (selected.indices.filter fun index => selected.isGap index "load") = [1] := by
    rw [show selected.indices = [0, 1] by rfl]
    simp [hthere, hmissing]
  have hrows := hlength "load" hload
  rw [hgaps] at hrows
  exact ⟨htable, hmissing, hthere, hleftOut, hrows⟩

end TimingReport.TimingTable
