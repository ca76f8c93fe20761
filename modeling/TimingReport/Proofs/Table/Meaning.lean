import TimingReport.Proofs.Table.Lookup
import TimingReport.Table.TimingTable

/-!
# What a timing table says about its measurements

Measurements are added to the cells one by one.  The invariant is that after any
number of them the cells hold, for every pair of index and tag, the time that the
duplicate rule picks from those added so far.  Filling the rows up to all tags then
neither loses nor invents a cell.
-/

namespace TimingReport.TimingTable

open TimingReport.TimingLog (Measurement)
open TimingReport.Table

/-- Whether the measurement belongs into the cell of an index and a tag. -/
def belongsTo (index : Int) (tag : String) (measurement : Measurement) : Bool :=
  measurement.index = index && measurement.tag = tag

/-- The time that a rule picks for a cell: the last rule picks the latest of its
measurements, the others the earliest. -/
def pickedTime? (rule : DuplicateRule) (measurements : List Measurement) (index : Int)
    (tag : String) : Option Float :=
  match rule with
  | .last => (measurements.reverse.find? (belongsTo index tag)).map Measurement.time
  | .first | .reject => (measurements.find? (belongsTo index tag)).map Measurement.time

/-- No two measurements belong into the same cell. -/
def NoClash (measurements : List Measurement) : Prop :=
  (measurements.map (fun measurement => (measurement.index, measurement.tag))).Nodup

theorem pickedTime?_eq_none_iff (rule : DuplicateRule) (measurements : List Measurement)
    (index : Int) (tag : String) :
    pickedTime? rule measurements index tag = none ↔
      ∀ measurement ∈ measurements, belongsTo index tag measurement = false := by
  cases rule <;> simp [pickedTime?]

/-- A further measurement is picked for its own cell if the cell is free or the rule
is the last one; it changes nothing else. -/
theorem pickedTime?_append (rule : DuplicateRule) (measurements : List Measurement)
    (measurement : Measurement) (index : Int) (tag : String) :
    pickedTime? rule (measurements ++ [measurement]) index tag =
      if belongsTo index tag measurement then
        if rule = .last then some measurement.time
        else (pickedTime? rule measurements index tag).or (some measurement.time)
      else pickedTime? rule measurements index tag := by
  cases hbelongs : belongsTo index tag measurement <;>
    cases rule <;> simp [pickedTime?, hbelongs, List.find?_append]

/-! ## The cells while measurements are added -/

theorem time?_put {cells : Cells} (hcells : Ascending (cells.map Prod.fst))
    (measurement : Measurement) (index : Int) (tag : String) :
    (cells.put measurement).time? index tag =
      if belongsTo index tag measurement then some measurement.time
      else cells.time? index tag := by
  rw [Cells.put, Cells.time?, Cells.time?]
  by_cases hindex : index = measurement.index
  · subst hindex
    rw [lookup_alter_self _ _ hcells, Option.bind_some]
    by_cases htag : tag = measurement.tag
    · subst htag
      rw [lookup_alter_const]
      simp [belongsTo]
    · rw [lookup_alter_of_ne htag]
      cases hrow : cells.lookup measurement.index <;> simp [belongsTo, Ne.symm htag]
  · rw [lookup_alter_of_ne hindex]
    simp [belongsTo, Ne.symm hindex]

/-- The cells hold what the rule picks from the measurements. -/
structure Holds (rule : DuplicateRule) (measurements : List Measurement)
    (cells : Cells) : Prop where
  ascending : Ascending (cells.map Prod.fst)
  mem_indices_iff : ∀ index,
    index ∈ cells.map Prod.fst ↔ ∃ measurement ∈ measurements, measurement.index = index
  time?_eq : ∀ index tag, cells.time? index tag = pickedTime? rule measurements index tag
  noClash : rule = .reject → NoClash measurements

theorem holds_nil (rule : DuplicateRule) : Holds rule [] [] := by
  refine ⟨List.Pairwise.nil, by simp, fun index tag => ?_, fun _ => List.nodup_nil⟩
  cases rule <;> rfl

theorem Holds.put {rule : DuplicateRule} {measurements : List Measurement} {cells : Cells}
    (hcells : Holds rule measurements cells) {measurement : Measurement}
    (hpicked : rule = .last ∨
      cells.time? measurement.index measurement.tag = none) :
    Holds rule (measurements ++ [measurement]) (cells.put measurement) := by
  refine ⟨?_, fun index => ?_, fun index tag => ?_, fun hreject => ?_⟩
  · rw [Cells.put, keys_alter]
    exact ascending_insertKey _ hcells.ascending
  · rw [Cells.put, keys_alter, mem_insertKey, hcells.mem_indices_iff]
    simp only [List.mem_append, List.mem_singleton, or_and_right, exists_or, exists_eq_left]
    rw [or_comm, eq_comm]
  · rw [time?_put hcells.ascending, pickedTime?_append, hcells.time?_eq]
    cases hbelongs : belongsTo index tag measurement with
    | false => rfl
    | true =>
      simp only [belongsTo, Bool.and_eq_true, decide_eq_true_eq] at hbelongs
      obtain ⟨rfl, rfl⟩ := hbelongs
      rcases hpicked with rfl | hfree
      · rfl
      · rw [hcells.time?_eq] at hfree
        simp [hfree]
  · have hfree : pickedTime? rule measurements measurement.index measurement.tag = none := by
      rcases hpicked with hlast | hfree
      · rw [hreject] at hlast
        cases hlast
      · rw [← hcells.time?_eq, hfree]
    rw [pickedTime?_eq_none_iff] at hfree
    rw [NoClash, List.map_append, List.nodup_append]
    refine ⟨hcells.noClash hreject, by simp, ?_⟩
    intro cell hcell other hother heq
    obtain ⟨earlier, hearlier, rfl⟩ := List.mem_map.1 hcell
    rw [List.map_singleton, List.mem_singleton] at hother
    rw [hother, Prod.mk.injEq] at heq
    have hbelongs := hfree earlier hearlier
    simp [belongsTo, heq] at hbelongs

theorem Holds.keep {measurements : List Measurement} {cells : Cells}
    (hcells : Holds .first measurements cells) {measurement : Measurement} {first : Float}
    (hthere : cells.time? measurement.index measurement.tag = some first) :
    Holds .first (measurements ++ [measurement]) cells := by
  refine ⟨hcells.ascending, fun index => ?_, fun index tag => ?_, fun hreject => by cases hreject⟩
  · rw [hcells.mem_indices_iff]
    simp only [List.mem_append, List.mem_singleton, or_and_right, exists_or, exists_eq_left]
    refine ⟨.inl, ?_⟩
    rintro (hindex | rfl)
    · exact hindex
    · rw [← hcells.mem_indices_iff]
      by_contra hmissing
      rw [← lookup_eq_none_iff_not_mem] at hmissing
      simp [Cells.time?, hmissing] at hthere
  · rw [pickedTime?_append, hcells.time?_eq]
    cases hbelongs : belongsTo index tag measurement with
    | false => rfl
    | true =>
      simp only [belongsTo, Bool.and_eq_true, decide_eq_true_eq] at hbelongs
      obtain ⟨rfl, rfl⟩ := hbelongs
      rw [hcells.time?_eq] at hthere
      simp [hthere]

/-- Adding a measurement keeps the invariant. -/
theorem Holds.add {rule : DuplicateRule} {measurements : List Measurement}
    {cells next : Cells} (hcells : Holds rule measurements cells) {measurement : Measurement}
    (hadd : cells.add rule measurement = .ok next) :
    Holds rule (measurements ++ [measurement]) next := by
  cases hthere : cells.time? measurement.index measurement.tag with
  | none =>
    simp only [Cells.add, hthere, Except.ok.injEq] at hadd
    exact hadd ▸ hcells.put (.inr hthere)
  | some first =>
    cases rule with
    | reject => simp [Cells.add, hthere] at hadd
    | first =>
      simp only [Cells.add, hthere, Except.ok.injEq] at hadd
      exact hadd ▸ hcells.keep hthere
    | last =>
      simp only [Cells.add, hthere, Except.ok.injEq] at hadd
      exact hadd ▸ hcells.put (.inl rfl)

/-- Adding all measurements in turn keeps the invariant. -/
theorem Holds.foldlM {rule : DuplicateRule} {added : List Measurement} :
    ∀ {measurements : List Measurement} {cells final : Cells}, Holds rule added cells →
      measurements.foldlM (Cells.add rule) cells = .ok final →
      Holds rule (added ++ measurements) final := by
  intro measurements
  induction measurements generalizing added with
  | nil =>
    intro cells final hcells hfold
    obtain rfl := Except.ok.inj hfold
    simpa using hcells
  | cons measurement rest ih =>
    intro cells final hcells hfold
    rw [List.foldlM_cons] at hfold
    cases hadd : cells.add rule measurement with
    | error clash => simp [hadd, bind, Except.bind] at hfold
    | ok next =>
      rw [hadd] at hfold
      simpa using ih (hcells.add hadd) hfold

/-- Rules that pick one of several measurements never fail. -/
theorem exists_foldlM_add {rule : DuplicateRule} (hrule : rule ≠ .reject)
    (measurements : List Measurement) :
    ∀ cells : Cells, ∃ final, measurements.foldlM (Cells.add rule) cells = .ok final := by
  induction measurements with
  | nil => exact fun cells => ⟨cells, rfl⟩
  | cons measurement rest ih =>
    intro cells
    have hadd : ∃ next, cells.add rule measurement = .ok next := by
      cases hthere : cells.time? measurement.index measurement.tag <;>
        cases rule <;> simp_all [Cells.add]
    obtain ⟨next, hadd⟩ := hadd
    obtain ⟨final, hfold⟩ := ih next
    exact ⟨final, by rw [List.foldlM_cons, hadd]; exact hfold⟩

/-- Measurements without a clash can all be added, whatever the rule. -/
theorem Holds.exists_foldlM_of_noClash {rule : DuplicateRule} {measurements : List Measurement} :
    ∀ {added : List Measurement} {cells : Cells}, Holds rule added cells →
      (rule = .reject → NoClash (added ++ measurements)) →
      ∃ final, measurements.foldlM (Cells.add rule) cells = .ok final := by
  induction measurements with
  | nil => exact fun _ _ => ⟨_, rfl⟩
  | cons measurement rest ih =>
    intro added cells hcells hnoClash
    have hadd : ∃ next, cells.add rule measurement = .ok next := by
      cases hthere : cells.time? measurement.index measurement.tag with
      | none => simp [Cells.add, hthere]
      | some first =>
        cases rule with
        | first => simp [Cells.add, hthere]
        | last => simp [Cells.add, hthere]
        | reject =>
          -- The cell is taken by an earlier measurement, which clashes with this one.
          exfalso
          have hpicked : pickedTime? .reject added measurement.index measurement.tag ≠ none := by
            rw [← hcells.time?_eq, hthere]
            exact Option.some_ne_none _
          rw [ne_eq, pickedTime?_eq_none_iff, not_forall] at hpicked
          obtain ⟨earlier, hearlier⟩ := hpicked
          simp only [belongsTo, Classical.not_imp, Bool.not_eq_false, Bool.and_eq_true,
            decide_eq_true_eq] at hearlier
          have hdisjoint := hnoClash rfl
          rw [NoClash, List.map_append, List.nodup_append] at hdisjoint
          exact hdisjoint.2.2 _ (List.mem_map_of_mem hearlier.1) _
            (List.mem_map_of_mem List.mem_cons_self) (Prod.ext hearlier.2.1 hearlier.2.2)
    obtain ⟨next, hadd⟩ := hadd
    obtain ⟨final, hfold⟩ := ih (hcells.add hadd) (by simpa using hnoClash)
    exact ⟨final, by rw [List.foldlM_cons, hadd]; exact hfold⟩

/-! ## The finished table -/

/-- The table with a cell for every tag in every row. -/
structure Fills (rule : DuplicateRule) (measurements : List Measurement) (cells : Cells)
    (table : TimingTable) : Prop extends Holds rule measurements cells where
  tags_eq : table.tags = sortedKeys (measurements.map Measurement.tag)
  rows_eq : table.rows = cells.map (fun entry => (entry.1, fillRow table.tags entry.2))

/-- A finished table comes from cells that hold what its rule picks. -/
theorem exists_fills_of_ofMeasurements {rule : DuplicateRule} {measurements : List Measurement}
    {table : TimingTable} (htable : ofMeasurements rule measurements = .ok table) :
    ∃ cells, Fills rule measurements cells table := by
  rw [ofMeasurements] at htable
  cases hfold : measurements.foldlM (Cells.add rule) [] with
  | error clash => simp [hfold, Except.map] at htable
  | ok cells =>
    rw [hfold] at htable
    obtain rfl := Except.ok.inj htable
    have hcells : Holds rule measurements cells := by simpa using (holds_nil rule).foldlM hfold
    exact ⟨cells, hcells, rfl, rfl⟩

/-- Measurements are refused exactly for a clash under the rule that rejects it. -/
theorem exists_ofMeasurements_iff {rule : DuplicateRule} {measurements : List Measurement} :
    (∃ table, ofMeasurements rule measurements = .ok table) ↔
      (rule = .reject → NoClash measurements) := by
  constructor
  · rintro ⟨table, htable⟩
    obtain ⟨cells, hfills⟩ := exists_fills_of_ofMeasurements htable
    exact hfills.noClash
  · intro hnoClash
    have hadded : rule = .reject → NoClash ([] ++ measurements) := by simpa using hnoClash
    obtain ⟨cells, hfold⟩ := (holds_nil rule).exists_foldlM_of_noClash hadded
    exact ⟨_, by rw [ofMeasurements, hfold]; rfl⟩

namespace Fills

variable {rule : DuplicateRule} {measurements : List Measurement} {cells : Cells}
  {table : TimingTable}

theorem mem_tags_iff (hfills : Fills rule measurements cells table) (tag : String) :
    tag ∈ table.tags ↔ ∃ measurement ∈ measurements, measurement.tag = tag := by
  rw [hfills.tags_eq, mem_sortedKeys, List.mem_map]

theorem indices_eq (hfills : Fills rule measurements cells table) :
    table.indices = cells.map Prod.fst := by
  rw [indices, hfills.rows_eq, List.map_map]
  rfl

/-- Filling up loses no cell and invents none. -/
theorem cell?_eq (hfills : Fills rule measurements cells table) (index : Int) (tag : String) :
    table.cell? index tag =
      if index ∈ table.indices ∧ tag ∈ table.tags then
        some (pickedTime? rule measurements index tag)
      else none := by
  rw [cell?, hfills.rows_eq, lookup_map_value, hfills.indices_eq, ← hfills.time?_eq, Cells.time?]
  cases hrow : cells.lookup index with
  | none =>
    have hindex := (lookup_eq_none_iff_not_mem index cells).1 hrow
    rw [if_neg (fun hthere => hindex hthere.1)]
    rfl
  | some row =>
    have hindex : index ∈ cells.map Prod.fst := by
      by_contra hmissing
      rw [← lookup_eq_none_iff_not_mem, hrow] at hmissing
      cases hmissing
    rw [Option.map_some, Option.bind_some, fillRow, lookup_map_key]
    simp [hindex]

theorem value?_eq (hfills : Fills rule measurements cells table) (index : Int) (tag : String) :
    table.value? index tag = pickedTime? rule measurements index tag := by
  rw [value?, hfills.cell?_eq]
  split
  · rfl
  · next houtside =>
    symm
    rw [Option.join_none, pickedTime?_eq_none_iff]
    intro measurement hmeasurement
    by_contra hbelongs
    simp only [belongsTo, Bool.not_eq_false, Bool.and_eq_true, decide_eq_true_eq] at hbelongs
    refine houtside ⟨?_, (hfills.mem_tags_iff tag).2 ⟨measurement, hmeasurement, hbelongs.2⟩⟩
    rw [hfills.indices_eq]
    exact (hfills.mem_indices_iff index).2 ⟨measurement, hmeasurement, hbelongs.1⟩

theorem row_keys (hfills : Fills rule measurements cells table)
    {row : Int × List (String × Option Float)} (hrow : row ∈ table.rows) :
    row.2.map Prod.fst = table.tags := by
  rw [hfills.rows_eq] at hrow
  obtain ⟨entry, -, rfl⟩ := List.mem_map.1 hrow
  rw [fillRow, List.map_map]
  exact List.map_id _

end Fills

/-- What a table of measurements says: its columns are the tags and its rows the
indices that were measured, each once and in ascending order; every row has a cell for
every column; and a cell has the time that the rule picks, or none if nothing was
measured for it.  Only the rule that rejects duplicates can refuse measurements, and
what it accepts has no duplicates. -/
theorem ofMeasurements_meaning (rule : DuplicateRule) (measurements : List Measurement) :
    (rule ≠ .reject → ∃ table, ofMeasurements rule measurements = .ok table) ∧
      ∀ table, ofMeasurements rule measurements = .ok table →
        table.tags.Pairwise (· < ·) ∧
        (∀ tag, tag ∈ table.tags ↔ ∃ measurement ∈ measurements, measurement.tag = tag) ∧
        table.indices.Pairwise (· < ·) ∧
        (∀ index, index ∈ table.indices ↔
          ∃ measurement ∈ measurements, measurement.index = index) ∧
        (∀ row ∈ table.rows, row.2.map Prod.fst = table.tags) ∧
        (∀ index tag, table.cell? index tag =
          if index ∈ table.indices ∧ tag ∈ table.tags then
            some (pickedTime? rule measurements index tag)
          else none) ∧
        (∀ index tag, table.value? index tag = pickedTime? rule measurements index tag) ∧
        (∀ index tag, table.value? index tag = none ↔ ∀ measurement ∈ measurements,
          ¬ (measurement.index = index ∧ measurement.tag = tag)) ∧
        (rule = .reject → NoClash measurements) := by
  constructor
  · intro hrule
    obtain ⟨cells, hfold⟩ := exists_foldlM_add hrule measurements []
    exact ⟨_, by rw [ofMeasurements, hfold]; rfl⟩
  · intro table htable
    obtain ⟨cells, hfills⟩ := exists_fills_of_ofMeasurements htable
    refine ⟨?_, hfills.mem_tags_iff, ?_, ?_, fun _ => hfills.row_keys, hfills.cell?_eq,
      hfills.value?_eq, fun index tag => ?_, hfills.noClash⟩
    · rw [hfills.tags_eq]
      exact ascending_sortedKeys _
    · rw [hfills.indices_eq]
      exact hfills.ascending
    · rw [hfills.indices_eq]
      exact hfills.mem_indices_iff
    · rw [hfills.value?_eq, pickedTime?_eq_none_iff]
      simp [belongsTo]

/-- The later of two times in one cell wins, and the cell beside it stays empty. -/
theorem ofMeasurements_meaning_twice :
    let measurements : List Measurement := [⟨1, "b", 2⟩, ⟨0, "a", 1⟩, ⟨1, "b", 3⟩]
    (∃ table, ofMeasurements .last measurements = .ok table ∧
        table.value? 1 "b" = some 3 ∧ table.value? 0 "b" = none ∧ 0 ∈ table.indices) ∧
      ∃ table, ofMeasurements .reject (measurements.take 2) = .ok table ∧
        table.value? 1 "b" = some 2 ∧ NoClash (measurements.take 2) := by
  intro measurements
  obtain ⟨hlast, hmeaning⟩ := ofMeasurements_meaning .last measurements
  obtain ⟨table, htable⟩ := hlast (by decide)
  obtain ⟨-, -, -, hindices, -, -, hvalue, -⟩ := hmeaning table htable
  have hzero : 0 ∈ table.indices := (hindices 0).2 ⟨⟨0, "a", 1⟩, by simp [measurements], rfl⟩
  refine ⟨⟨table, htable, hvalue 1 "b", hvalue 0 "b", hzero⟩, ?_⟩
  obtain ⟨-, hmeaning⟩ := ofMeasurements_meaning .reject (measurements.take 2)
  have haccepted : (ofMeasurements .reject (measurements.take 2)).isOk = true := by
    decide +kernel
  cases htable : ofMeasurements .reject (measurements.take 2) with
  | error clash =>
    rw [htable] at haccepted
    cases haccepted
  | ok table =>
    obtain ⟨-, -, -, -, -, -, hvalue, -, hnoClash⟩ := hmeaning table htable
    exact ⟨table, rfl, hvalue 1 "b", hnoClash rfl⟩

end TimingReport.TimingTable
