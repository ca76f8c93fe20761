import TimingReport.Proofs.Json.Reading
import TimingReport.Proofs.Json.Unambiguous
import TimingReport.Proofs.Report.FiniteBoxes
import TimingReport.Proofs.Table.Queries

/-!
# A table is known by its text

The text of a table of a log is a JSON document, and the table is the only one that can be read
of it.  Rows and cells are found in the document by their index and tag: a cell with a value is a
number that the value is nearest to, and a gap is null.
-/

namespace TimingReport

open Number

/-! ## Reading a table -/

namespace Json

/-- The tree is an object with the cells of a row. -/
inductive Tree.ReadsRow : Tree → List (String × Option Float) → Prop where
  | intro {cells : List (String × Tree)} {row : List (String × Option Float)} :
      ReadsMembers id Tree.ReadsBound cells row → ReadsRow (.object cells) row

/-- The tree is an object with the tags of a table and its rows, whose keys are the indices in
decimal. -/
inductive Tree.ReadsTable : Tree → TimingTable → Prop where
  | intro {rows : List (String × Tree)} {table : TimingTable} :
      ReadsMembers Int.repr Tree.ReadsRow rows table.rows →
      ReadsTable (.object [("tags", .array (table.tags.map .string)), ("rows", .object rows)]) table

theorem ofList_integerText (index : Int) : String.ofList (integerText index) = index.repr := by
  rw [← toList_toString, String.ofList_toList]
  rfl

namespace Tree

/-- The row of an index in the tree of a table. -/
def row? (tree : Tree) (index : Int) : Option Tree :=
  (tree.member? "rows").bind fun rows => rows.member? index.repr

/-- The cell of an index and a tag in the tree of a table. -/
def cell? (tree : Tree) (index : Int) (tag : String) : Option Tree :=
  (tree.row? index).bind fun row => row.member? tag

theorem rightUnique_readsRow : Relator.RightUnique ReadsRow := by
  rintro tree row other ⟨hcells⟩ ⟨hcells'⟩
  exact rightUnique_readsMembers Function.injective_id rightUnique_readsBound hcells hcells'

theorem rightUnique_readsTable : Relator.RightUnique ReadsTable := by
  rintro tree table other ⟨hrows⟩ hother
  generalize hsame : Tree.object _ = tree at hother
  obtain ⟨hrows'⟩ := hother
  simp only [Tree.object.injEq, List.cons.injEq, Prod.mk.injEq, true_and, and_true,
    Tree.array.injEq] at hsame
  obtain ⟨htags, rfl⟩ := hsame
  rw [TimingTable.mk.injEq]
  exact ⟨List.map_injective_iff.2 (fun _ _ => Tree.string.inj) htags,
    rightUnique_readsMembers (fun _ _ => Int.repr_injective) rightUnique_readsRow hrows hrows'⟩

/-! ## Rows and cells -/

variable {tree : Tree} {table : TimingTable}

theorem ReadsTable.member?_tags (htree : tree.ReadsTable table) :
    tree.member? "tags" = some (.array (table.tags.map .string)) := by
  obtain ⟨-⟩ := htree
  rfl

theorem ReadsTable.member?_rows (htree : tree.ReadsTable table) :
    ∃ rows, tree.member? "rows" = some (.object rows) ∧
      ReadsMembers Int.repr ReadsRow rows table.rows := by
  obtain ⟨hrows⟩ := htree
  exact ⟨_, rfl, hrows⟩

theorem ReadsRow.keys_eq {row : List (String × Option Float)} (htree : tree.ReadsRow row) :
    tree.keys = row.map Prod.fst := by
  obtain ⟨hcells⟩ := htree
  exact hcells.keys_eq

theorem ReadsRow.member? {row : List (String × Option Float)} (htree : tree.ReadsRow row)
    (tag : String) : Option.Rel ReadsBound (tree.member? tag) (row.lookup tag) := by
  obtain ⟨hcells⟩ := htree
  exact hcells.lookup Function.injective_id tag

theorem ReadsTable.row? (htree : tree.ReadsTable table) (index : Int) :
    Option.Rel ReadsRow (tree.row? index) (table.rows.lookup index) := by
  obtain ⟨rows, hmember, hrows⟩ := htree.member?_rows
  rw [Tree.row?, hmember]
  exact hrows.lookup (fun _ _ => Int.repr_injective) index

/-- The tree has the cells of the table. -/
theorem ReadsTable.cell? (htree : tree.ReadsTable table) (index : Int) (tag : String) :
    Option.Rel ReadsBound (tree.cell? index tag) (table.cell? index tag) := by
  have hrow := htree.row? index
  rw [Tree.cell?, TimingTable.cell?]
  generalize tree.row? index = rowTree at hrow
  generalize table.rows.lookup index = row at hrow
  cases hrow with
  | none => exact .none
  | some hrow => exact hrow.member? tag

/-- The rows have the indices of the table as their keys, in the order of the table. -/
theorem ReadsTable.keys_rows (htree : tree.ReadsTable table) :
    ∃ rows, tree.member? "rows" = some rows ∧ rows.keys = table.indices.map Int.repr := by
  obtain ⟨rows, hmember, hrows⟩ := htree.member?_rows
  refine ⟨_, hmember, ?_⟩
  rw [keys, hrows.keys_eq, TimingTable.indices, List.map_map]
  rfl

/-- Every row has the tags of the table as its keys, in the order of the table. -/
theorem ReadsTable.keys_row? (htree : tree.ReadsTable table) (htable : table.Rectangular)
    {index : Int} (hindex : index ∈ table.indices) :
    ∃ row, tree.row? index = some row ∧ row.keys = table.tags := by
  obtain ⟨entry, hentry, rfl⟩ := List.mem_map.1 hindex
  have hrow := htree.row? entry.1
  rw [TimingTable.lookup_eq_of_mem htable.ascending_indices hentry] at hrow
  generalize tree.row? entry.1 = rowTree at hrow
  cases hrow with
  | some hrow => exact ⟨_, rfl, hrow.keys_eq.trans (htable.row_keys entry hentry)⟩

/-- Null stands for the gaps. -/
theorem ReadsTable.cell?_eq_null_iff (htree : tree.ReadsTable table) (index : Int)
    (tag : String) : tree.cell? index tag = some .null ↔ table.isGap index tag = true := by
  have hcell := htree.cell? index tag
  rw [TimingTable.isGap_iff_cell?]
  generalize tree.cell? index tag = cellTree at hcell
  generalize table.cell? index tag = cell at hcell
  cases hcell with
  | none => simp
  | some hcell => rw [Option.some.injEq, Option.some.injEq, hcell.eq_null_iff]

/-- Numbers stand for the values. -/
theorem ReadsTable.readsDouble_cell?_iff (htree : tree.ReadsTable table) (index : Int)
    (tag : String) (x : Float) :
    (∃ cell, tree.cell? index tag = some cell ∧ cell.ReadsDouble x) ↔
      table.value? index tag = some x := by
  have hcell := htree.cell? index tag
  rw [TimingTable.value?]
  generalize tree.cell? index tag = cellTree at hcell
  generalize table.cell? index tag = cell at hcell
  cases hcell with
  | none => simp
  | some hcell => simp [hcell.readsDouble_iff]

end Tree

end Json

/-! ## Tables of logs -/

namespace TimingTable

open TimingReport.TimingLog (Source Measurement readLog isFinite_time_of_arrival)
open TimingReport.Table
open TimingReport.Json

/-- The tables that come of logs: those of the measurements of a log, and what selections leave of
them. -/
inductive OfLog : TimingTable → Prop where
  | ofMeasurements {source : Source} {measurements : List Measurement} {rule : DuplicateRule}
      {table : TimingTable} :
      readLog source = .ok measurements → ofMeasurements rule measurements = .ok table →
      OfLog table
  | select {table : TimingTable} (keep : String → Bool) : OfLog table → OfLog (table.select keep)

/-- All values of the cells are finite. -/
def IsFinite (table : TimingTable) : Prop :=
  ∀ row ∈ table.rows, ∀ cell ∈ row.2, ∀ x ∈ cell.2, isFinite x = true

/-- A value in the cells of finite measurements is the time of one of them. -/
theorem Fills.isFinite {rule : DuplicateRule} {measurements : List Measurement} {cells : Cells}
    {table : TimingTable} (hfills : Fills rule measurements cells table)
    (hfinite : ∀ measurement ∈ measurements, isFinite measurement.time = true) :
    table.IsFinite := by
  intro row hrow cell hcell x hx
  rw [hfills.rows_eq] at hrow
  obtain ⟨entry, hentry, rfl⟩ := List.mem_map.1 hrow
  obtain ⟨tag, -, rfl⟩ := List.mem_map.1 hcell
  have hpicked : pickedTime? rule measurements entry.1 tag = some x := by
    rw [← hfills.time?_eq, Cells.time?, lookup_eq_of_mem hfills.ascending hentry]
    exact hx
  obtain ⟨measurement, hmeasurement, rfl⟩ := exists_time_eq_of_pickedTime? hpicked
  exact hfinite measurement hmeasurement

theorem IsFinite.select {table : TimingTable} (htable : table.IsFinite) (keep : String → Bool) :
    (table.select keep).IsFinite := by
  intro row hrow cell hcell
  obtain ⟨whole, hwhole, rfl⟩ := List.mem_map.1 hrow
  exact htable whole hwhole cell (List.mem_of_mem_filter hcell)

theorem OfLog.reachable {table : TimingTable} (htable : OfLog table) : Reachable table := by
  induction htable with
  | ofMeasurements _ htable => exact .ofMeasurements htable
  | select keep _ ih => exact ih.select keep

theorem OfLog.isFinite {table : TimingTable} (htable : OfLog table) : table.IsFinite := by
  induction htable with
  | ofMeasurements hlog htable =>
    obtain ⟨cells, hfills⟩ := exists_fills_of_ofMeasurements htable
    exact hfills.isFinite (isFinite_time_of_arrival hlog)
  | select keep _ ih => exact ih.select keep

/-! ## Writing a table -/

/-- What is written for the cells of a row. -/
def rowJson (row : List (String × Option Float)) : Value :=
  .object (row.map fun cell => (cell.1, .ofOption .number cell.2))

theorem toJson_eq (table : TimingTable) :
    table.toJson = .object [("tags", .strings table.tags),
      ("rows", .object (table.rows.map fun row => (row.1.repr, rowJson row.2)))] := by
  simp only [toJson, ofList_integerText]
  rfl

theorem readsRow_rowJson {row : List (String × Option Float)}
    (hfinite : ∀ cell ∈ row, ∀ x ∈ cell.2, isFinite x = true) :
    (rowJson row).tree.ReadsRow row := by
  rw [rowJson, Value.tree]
  exact ⟨readsMembers_memberTrees fun cell hcell => readsBound_ofOption (hfinite cell hcell)⟩

/-- What is written for a table of finite values is read as the table. -/
theorem readsTable_toJson {table : TimingTable} (hfinite : table.IsFinite) :
    table.toJson.tree.ReadsTable table := by
  have hrows : ReadsMembers Int.repr Tree.ReadsRow
      (memberTrees (table.rows.map fun row => (row.1.repr, rowJson row.2))) table.rows :=
    readsMembers_memberTrees fun row hrow => readsRow_rowJson (hfinite row hrow)
  rw [toJson_eq]
  simp only [Value.tree, memberTrees, Value.strings, itemTrees_strings]
  exact ⟨hrows⟩

/-- Either text of a table of a log is one JSON document.  No other table can be read of it, so no
other table of a log has the same text.  Null stands for the gaps and numbers stand for the
values, with all their bits; the rows are in the order of their indices, and the cells of each in
the order of their tags. -/
theorem toJson_reads_back {print : Value → String}
    (hprint : print ∈ [Value.compactText, Value.prettyText]) {table : TimingTable}
    (htable : OfLog table) :
    ∃ tree, IsDocument (print table.toJson) tree ∧
      (∀ other, IsDocument (print table.toJson) other → other = tree) ∧
      (∀ other : TimingTable, tree.ReadsTable other ↔ other = table) ∧
      (∀ other : TimingTable, OfLog other → print other.toJson = print table.toJson →
        other = table) ∧
      (∀ index tag, tree.cell? index tag = some .null ↔ table.isGap index tag = true) ∧
      (∀ index tag x, (∃ cell, tree.cell? index tag = some cell ∧ cell.ReadsDouble x) ↔
        table.value? index tag = some x) ∧
      tree.member? "tags" = some (.array (table.tags.map .string)) ∧
      table.tags.Pairwise (· < ·) ∧
      (∃ rows, tree.member? "rows" = some rows ∧ rows.keys = table.indices.map Int.repr) ∧
      table.indices.Pairwise (· < ·) ∧
      ∀ index ∈ table.indices, ∃ row, tree.row? index = some row ∧ row.keys = table.tags := by
  have hdocument : ∀ value : Value, IsDocument (print value) value.tree := by
    simp only [List.mem_cons, List.not_mem_nil, or_false] at hprint
    rcases hprint with rfl | rfl
    · exact isDocument_compactText
    · exact isDocument_prettyText
  have hrectangular := htable.reachable.rectangular
  have hread := readsTable_toJson htable.isFinite
  have hunique : ∀ other : TimingTable, table.toJson.tree.ReadsTable other → other = table :=
    fun other hother => Tree.rightUnique_readsTable hother hread
  refine ⟨table.toJson.tree, hdocument table.toJson,
    fun other hother => (hdocument table.toJson).unique hother,
    fun other => ⟨hunique other, ?_⟩, fun other hother hsame => ?_, hread.cell?_eq_null_iff,
    hread.readsDouble_cell?_iff, hread.member?_tags, hrectangular.ascending_tags,
    hread.keys_rows, hrectangular.ascending_indices, fun _ => hread.keys_row? hrectangular⟩
  · rintro rfl
    exact hread
  · have hotherDocument := hdocument other.toJson
    rw [hsame] at hotherDocument
    have htree := (hdocument table.toJson).unique hotherDocument
    exact hunique other (htree ▸ readsTable_toJson hother.isFinite)

/-- Two logs that differ in the sign of a zero have tables with different texts.  The zero is
found at its index and its tag, and the gap beside it is null. -/
theorem toJson_reads_back_zero_signs :
    let log (zero : String) : Source :=
      .ofBytes ("-1,\"a\"\"\\\x01é\"," ++ zero ++ "\n10,b,2.5\n").toUTF8.data.toList
    let tabulated (source : Source) : Option TimingTable :=
      (readLog source).toOption.bind fun measurements =>
        (ofMeasurements .reject measurements).toOption
    let tag := "a\"\\\x01é"
    ∃ table other tree, tabulated (log "-0") = some table ∧ tabulated (log "0") = some other ∧
      other.toJson.compactText ≠ table.toJson.compactText ∧
      IsDocument table.toJson.compactText tree ∧ tree.cell? (-1) "b" = some .null ∧
      (∃ cell, tree.cell? (-1) tag = some cell ∧ cell.ReadsDouble (-0)) ∧
      tree.member? "tags" = some (.array [.string tag, .string "b"]) := by
  intro log tabulated tag
  have hofLog : ∀ {source : Source} {table : TimingTable}, tabulated source = some table →
      OfLog table := by
    intro source table htable
    obtain ⟨measurements, hlog, htable⟩ := Option.bind_eq_some_iff.1 htable
    rw [Fallible.toOption_eq_some_iff] at hlog htable
    exact .ofMeasurements hlog htable
  have hchecks : (tabulated (log "-0")).map (fun table =>
      (table.value? (-1) tag, table.isGap (-1) "b", table.tags)) =
        some (some (-0), true, [tag, "b"]) := by decide +kernel
  have hchecks' : (tabulated (log "0")).map (fun table => table.value? (-1) tag) =
      some (some 0) := by decide +kernel
  obtain ⟨table, htable, hchecked⟩ := Option.map_eq_some_iff.1 hchecks
  obtain ⟨other, hother, hzero⟩ := Option.map_eq_some_iff.1 hchecks'
  obtain ⟨hvalue, hgap, htags⟩ := by simpa only [Prod.mk.injEq] using hchecked
  obtain ⟨tree, hdocument, -, -, htables, hgaps, hvalues, htagTrees, -⟩ :=
    toJson_reads_back (List.mem_cons_self (a := Value.compactText)) (hofLog htable)
  rw [htags] at htagTrees
  refine ⟨table, other, tree, htable, hother, fun hsame => ?_, hdocument, (hgaps _ _).2 hgap,
    (hvalues _ _ _).2 hvalue, htagTrees⟩
  obtain rfl := htables other (hofLog hother) hsame
  rw [hvalue] at hzero
  exact absurd hzero (by decide +kernel)

end TimingTable

end TimingReport
