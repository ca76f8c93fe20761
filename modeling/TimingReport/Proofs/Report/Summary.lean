import TimingReport.Proofs.Box.Finite
import TimingReport.Proofs.Json.Reading
import TimingReport.Proofs.Json.Unambiguous
import TimingReport.Proofs.Report.Meaning
import TimingReport.Proofs.Report.Outputs

/-!
# The summary loses nothing

The summary is a JSON document.  Reading its numbers as the nearest doubles gives back the result
of the report and no other one: strings character for character, and doubles with all their bits.
-/

namespace TimingReport

open TimingReport.Json (Tree IsDocument)
open TimingReport.Number

/-! ## Reading a summary -/

namespace Json

/-- The tree is null nowhere, at any depth. -/
inductive Tree.Filled : Tree → Prop where
  | bool (value : Bool) : Filled (.bool value)
  | number (negative : Bool) (magnitude : ℚ) : Filled (.number negative magnitude)
  | string (value : String) : Filled (.string value)
  | array {items : List Tree} : (∀ item ∈ items, item.Filled) → Filled (.array items)
  | object {members : List (String × Tree)} :
      (∀ member ∈ members, member.2.Filled) → Filled (.object members)

/-- The tree is an object with the members of a box, which it gives. -/
inductive Tree.ReadsBox : Tree → BoxSummary → Prop where
  | intro {min q1 median q3 max whiskerLow whiskerHigh : Tree} {outliers : List Tree}
      {box : BoxSummary} :
      min.ReadsDouble box.min → q1.ReadsDouble box.q1 → median.ReadsDouble box.median →
      q3.ReadsDouble box.q3 → max.ReadsDouble box.max → whiskerLow.ReadsDouble box.whiskerLow →
      whiskerHigh.ReadsDouble box.whiskerHigh →
      List.Forall₂ Tree.ReadsDouble outliers box.outliers →
      ReadsBox (.object [("tag", .string box.tag), ("count", .number false box.count), ("min", min),
        ("q1", q1), ("median", median), ("q3", q3), ("max", max), ("whisker_low", whiskerLow),
        ("whisker_high", whiskerHigh), ("outliers", .array outliers)]) box

/-- The tree is an object with the members of a result, which it gives. -/
inductive Tree.ReadsResult : Tree → Report.Result → Prop where
  | intro {bound : Tree} {boxes : List Tree} {result : Report.Result} :
      bound.ReadsBound result.axisBound → List.Forall₂ Tree.ReadsBox boxes result.boxes →
      ReadsResult (.object [("input", .string result.input), ("output", .string result.output),
        ("rows", .number false result.rows), ("tags", .array (result.tags.map .string)),
        ("y_bound", bound), ("labeled", .bool result.labeled), ("boxes", .array boxes)]) result

namespace Tree

/-! ## What is read is one result -/

theorem rightUnique_readsBox : Relator.RightUnique ReadsBox := by
  rintro tree box other ⟨hmin, hq1, hmedian, hq3, hmax, hlow, hhigh, houtliers⟩ hother
  generalize hsame : Tree.object _ = tree at hother
  obtain ⟨hmin', hq1', hmedian', hq3', hmax', hlow', hhigh', houtliers'⟩ := hother
  simp only [Tree.object.injEq, List.cons.injEq, Prod.mk.injEq, true_and, and_true,
    Tree.string.injEq, Tree.number.injEq, Nat.cast_inj, Tree.array.injEq] at hsame
  obtain ⟨htag, hcount, rfl, rfl, rfl, rfl, rfl, rfl, rfl, rfl⟩ := hsame
  rw [BoxSummary.mk.injEq]
  have hdouble := rightUnique_readsDouble
  exact ⟨htag, hcount, hdouble hmin hmin', hdouble hq1 hq1', hdouble hmedian hmedian',
    hdouble hq3 hq3', hdouble hmax hmax', hdouble hlow hlow', hdouble hhigh hhigh',
    List.right_unique_forall₂' hdouble houtliers houtliers'⟩

theorem rightUnique_readsResult : Relator.RightUnique ReadsResult := by
  rintro tree result other ⟨hbound, hboxes⟩ hother
  generalize hsame : Tree.object _ = tree at hother
  obtain ⟨hbound', hboxes'⟩ := hother
  simp only [Tree.object.injEq, List.cons.injEq, Prod.mk.injEq, true_and, and_true,
    Tree.string.injEq, Tree.number.injEq, Nat.cast_inj, Tree.array.injEq, Tree.bool.injEq] at hsame
  obtain ⟨hinput, houtput, hrows, htags, rfl, hlabeled, rfl⟩ := hsame
  rw [Report.Result.mk.injEq]
  exact ⟨hinput, houtput, hrows, List.map_injective_iff.2 (fun _ _ => Tree.string.inj) htags,
    rightUnique_readsBound hbound hbound', hlabeled,
    List.right_unique_forall₂' rightUnique_readsBox hboxes hboxes'⟩

/-! ## What is read of a box is filled -/

theorem ReadsDouble.filled {tree : Tree} {x : Float} (htree : tree.ReadsDouble x) :
    tree.Filled := by
  cases htree with
  | intro => exact .number _ _

theorem filled_of_forall₂ {α : Type} {relation : Tree → α → Prop}
    (hrelation : ∀ {tree : Tree} {value : α}, relation tree value → tree.Filled)
    {trees : List Tree} {values : List α} (hall : List.Forall₂ relation trees values) :
    (Tree.array trees).Filled := by
  refine .array fun tree htree => ?_
  induction hall with
  | nil => cases htree
  | cons hhead _ ih =>
    rcases List.mem_cons.1 htree with rfl | htree
    · exact hrelation hhead
    · exact ih htree

theorem ReadsBox.filled {tree : Tree} {box : BoxSummary} (htree : tree.ReadsBox box) :
    tree.Filled := by
  obtain ⟨hmin, hq1, hmedian, hq3, hmax, hlow, hhigh, houtliers⟩ := htree
  refine .object fun member hmember => ?_
  simp only [List.mem_cons, List.not_mem_nil, or_false] at hmember
  rcases hmember with rfl | rfl | rfl | rfl | rfl | rfl | rfl | rfl | rfl | rfl
  · exact .string _
  · exact .number _ _
  · exact hmin.filled
  · exact hq1.filled
  · exact hmedian.filled
  · exact hq3.filled
  · exact hmax.filled
  · exact hlow.filled
  · exact hhigh.filled
  · exact filled_of_forall₂ ReadsDouble.filled houtliers

/-! ## The members of a result -/

theorem ReadsResult.member?_bound {tree : Tree} {result : Report.Result}
    (htree : tree.ReadsResult result) :
    ∃ bound, tree.member? "y_bound" = some bound ∧ bound.ReadsBound result.axisBound := by
  obtain ⟨hbound, -⟩ := htree
  exact ⟨_, rfl, hbound⟩

theorem ReadsResult.member?_boxes {tree : Tree} {result : Report.Result}
    (htree : tree.ReadsResult result) :
    ∃ boxes, tree.member? "boxes" = some (.array boxes) ∧
      List.Forall₂ Tree.ReadsBox boxes result.boxes := by
  obtain ⟨-, hboxes⟩ := htree
  exact ⟨_, rfl, hboxes⟩

end Tree

/-! ## What is written is read -/

theorem tree_natural (n : Nat) : (Value.integer n).tree = .number false n := by
  simp [Value.tree]

theorem readsBox_toJson {box : BoxSummary} (hfinite : ∀ x ∈ box.numbers, isFinite x = true) :
    box.toJson.tree.ReadsBox box := by
  have hread : ∀ x ∈ box.numbers, (Value.number x).tree.ReadsDouble x :=
    fun x hx => readsDouble_number (hfinite x hx)
  have houtliers : List.Forall₂ Tree.ReadsDouble
      (itemTrees (box.outliers.map .number)) box.outliers :=
    forall₂_itemTrees fun x hx => hread x (List.mem_append_right _ hx)
  have hmembers := Tree.ReadsBox.intro (hread box.min (by simp [BoxSummary.numbers]))
    (hread box.q1 (by simp [BoxSummary.numbers])) (hread box.median (by simp [BoxSummary.numbers]))
    (hread box.q3 (by simp [BoxSummary.numbers])) (hread box.max (by simp [BoxSummary.numbers]))
    (hread box.whiskerLow (by simp [BoxSummary.numbers]))
    (hread box.whiskerHigh (by simp [BoxSummary.numbers])) houtliers
  rwa [← tree_natural] at hmembers

theorem readsResult_toJson {result : Report.Result}
    (hbound : ∀ x ∈ result.axisBound, isFinite x = true)
    (hboxes : ∀ box ∈ result.boxes, ∀ x ∈ box.numbers, isFinite x = true) :
    result.toJson.tree.ReadsResult result := by
  have hread : List.Forall₂ Tree.ReadsBox
      (itemTrees (result.boxes.map BoxSummary.toJson)) result.boxes :=
    forall₂_itemTrees fun box hbox => readsBox_toJson (hboxes box hbox)
  have hmembers := Tree.ReadsResult.intro (readsBound_ofOption hbound) hread
  rwa [← tree_natural, ← itemTrees_strings] at hmembers

end Json

/-! ## The summary of a report -/

namespace Report

/-- Nothing but finite numbers gets into the boxes of a report. -/
theorem isFinite_numbers_of_run {machine : Machine} {plan : Plan} {files : FileStore}
    {fonts : FontCache} {result : Result} {after : Session}
    (hrun : (run machine plan).runOn files fonts = (.ok result, after)) :
    ∀ box ∈ result.boxes, ∀ x ∈ box.numbers, isFinite x = true := by
  obtain ⟨sketch, hsketch, rfl⟩ := sketch_of_run hrun
  obtain ⟨hdraft, -⟩ := sketched_ok_iff.1 hsketch
  obtain ⟨hmeasured, htabulated, -⟩ := drafted_ok_iff.1 hdraft
  obtain ⟨content, -, hlog⟩ := measured_ok_iff.1 hmeasured
  obtain ⟨table, htable, hselect⟩ := tabulated_ok_iff.1 htabulated
  obtain ⟨cells, hfills⟩ := TimingTable.exists_fills_of_ofMeasurements htable
  intro box hbox
  change box ∈ boxesOf sketch.table at hbox
  rw [← hselect, boxesOf_select hfills] at hbox
  obtain ⟨tag, -, hsamples⟩ := List.mem_filterMap.1 hbox
  refine isFinite_of_mem_numbers (fun time htime => ?_) hsamples
  obtain ⟨measurement, hmeasurement, rfl⟩ := TimingTable.exists_time_eq_of_mem_timesOf htime
  exact TimingLog.isFinite_time_of_readLog hlog measurement hmeasurement

/-- An axis with a bound has a range only if the bound is finite. -/
theorem isFinite_of_axisRange {boxes : List BoxSummary} {bound : Option Float}
    {range : Chart.Range} (hrange : Chart.axisRange boxes bound = .ok range) :
    ∀ x ∈ bound, isFinite x = true := by
  rintro x rfl
  rw [Chart.axisRange] at hrange
  split at hrange
  · next hbound => exact (Bool.and_eq_true_iff.1 hbound).1
  · cases hrange

/-- The summary of a successful report is one JSON document, and its result is the only one
that can be read of it.  Its bound is null for a report without a bound and only there, and its
boxes are null nowhere. -/
theorem summary_reads_back {machine : Machine} {plan : Plan} {files : FileStore}
    {fonts : FontCache} {result : Result} {after : Session} {summary : String}
    (hrun : (run machine plan).runOn files fonts = (.ok result, after))
    (hsummary : plan.summary = some summary) :
    ∃ text tree, after.files.read summary = .ok (.data text.toUTF8) ∧ IsDocument text tree ∧
      (∀ other, IsDocument text other → other = tree) ∧
      (∀ other : Result, tree.ReadsResult other ↔ other = result) ∧
      (tree.member? "y_bound" = some .null ↔ plan.bounded = false) ∧
      ∃ boxes, tree.member? "boxes" = some boxes ∧ boxes.Filled := by
  obtain ⟨found, image, charted, -, -, ⟨range, hrange, -⟩, -⟩ := exists_charted_of_run hrun
  obtain ⟨sketch, -, hresult⟩ := sketch_of_run hrun
  have hbound : result.axisBound = plan.axisBound := by rw [hresult, Sketch.result]
  have hdocument := Json.isDocument_prettyText result.toJson
  have hread : result.toJson.tree.ReadsResult result :=
    Json.readsResult_toJson (hbound ▸ isFinite_of_axisRange hrange) (isFinite_numbers_of_run hrun)
  refine ⟨result.summaryText, result.toJson.tree, read_summary_of_run hrun hsummary, hdocument,
    fun other hother => hdocument.unique hother, fun other => ⟨fun hother => ?_, ?_⟩, ?_, ?_⟩
  · exact Json.Tree.rightUnique_readsResult hother hread
  · rintro rfl
    exact hread
  · obtain ⟨bound, hmember, hreadBound⟩ := hread.member?_bound
    rw [hmember, Option.some.injEq, hreadBound.eq_null_iff, hbound, Plan.axisBound]
    cases plan.bounded <;> simp
  · obtain ⟨boxes, hmember, hreadBoxes⟩ := hread.member?_boxes
    exact ⟨_, hmember, Json.Tree.filled_of_forall₂ Json.Tree.ReadsBox.filled hreadBoxes⟩

/-- Neither what is escaped in a tag nor the sign of a zero gets lost. -/
theorem summary_reads_back_negative_zero :
    let log := "0,\"a\"\"\\\x01é\",-0\n".toUTF8
    let files : FileStore := ⟨[(["a.csv"], .file (.data log))], []⟩
    let plan : Plan :=
      { Plan.default with
        input := "a.csv", output := "p.png", summary := some "s.json", bounded := false }
    let machine := Machine.reference
    ∃ result after text tree, (run machine plan).runOn files [] = (.ok result, after) ∧
      result.tags = ["a\"\\\x01é"] ∧
      result.boxes.map (fun box => isNegative box.median) = [true] ∧
      after.files.read "s.json" = .ok (.data text.toUTF8) ∧ IsDocument text tree ∧
      (∀ other : Result, tree.ReadsResult other ↔ other = result) ∧
      tree.member? "y_bound" = some .null := by
  intro log files plan machine
  obtain ⟨result, after, hrun⟩ := @exists_of_isOk _ (run machine plan) files []
    (by decide +kernel)
  have hchecks : (((run machine plan).runOn files []).1.toOption.map fun result =>
      (result.tags, result.boxes.map fun box => isNegative box.median)) =
        some (["a\"\\\x01é"], [true]) := by decide +kernel
  rw [hrun] at hchecks
  obtain ⟨htags, hsigns⟩ := Prod.mk.inj (Option.some.inj hchecks)
  obtain ⟨text, tree, hread, hdocument, -, hreads, hbound, -⟩ := summary_reads_back hrun rfl
  exact ⟨result, after, text, tree, hrun, htags, hsigns, hread, hdocument, hreads, hbound.2 rfl⟩

end Report

end TimingReport
