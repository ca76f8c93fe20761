import TimingReport.Proofs.Report.Course
import TimingReport.Report.Reference

/-!
# A failed report leaves no trace

A report touches two files at most, those that its plan names for the chart and the summary.
Until the chart is complete it touches none: whatever fails while the chart is drawn or moved
into place, the file in which it was made is removed again.
-/

namespace TimingReport.Report

open Step
open Files (Location)
open Files.Store (Placed SameDirectories)

/-- The locations of the files that a plan has written. -/
def outputLocations (plan : Plan) (files : FileStore) : List Location :=
  (plan.output :: plan.summary.toList).filterMap files.target?

/-- Beyond the outputs of its plan, a report leaves everything as it was. -/
structure ChangesOnlyOutputs (plan : Plan) (before after : FileStore) : Prop
    extends SameDirectories before after where
  node?_eq : ∀ location ∉ outputLocations plan before,
    after.node? location = before.node? location

namespace ChangesOnlyOutputs

variable {plan : Plan} {before after : FileStore}

theorem refl (plan : Plan) (files : FileStore) : ChangesOnlyOutputs plan files files :=
  ⟨.refl files, fun _ _ => rfl⟩

theorem placed (hbefore : ChangesOnlyOutputs plan before after) {content : Content}
    {path : String} (hpath : path ∈ plan.output :: plan.summary.toList) {later : FileStore}
    (hplaced : Placed content path after later) : ChangesOnlyOutputs plan before later := by
  refine ⟨hbefore.toSameDirectories.trans hplaced.sameDirectories, fun location hlocation => ?_⟩
  rw [hplaced.node?_eq, hbefore.node?_eq location hlocation]
  rw [hbefore.target?_eq]
  intro htarget
  exact hlocation (List.mem_filterMap.2 ⟨path, hpath, htarget⟩)

/-- Paths to other files find what they found before. -/
theorem view_eq (hchanges : ChangesOnlyOutputs plan before after) {path : String}
    (hpath : ∀ location ∈ outputLocations plan before, before.target? path ≠ some location) :
    after.view path = before.view path := by
  refine Files.Store.view_eq hchanges.toSameDirectories fun location htarget => ?_
  exact hchanges.node?_eq location fun hmem => hpath location hmem htarget

end ChangesOnlyOutputs

end TimingReport.Report
