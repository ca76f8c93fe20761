import TimingReport.Proofs.Files.Alike
import TimingReport.Proofs.Report.Exec
import TimingReport.Proofs.Table.Rearranged

/-!
# Reports that go on alike

Behind the table, a report looks at no log again.  On two sessions whose files differ only in
contents that are no fonts, each of its steps has the same outcome and says the same, and the
sessions stay alike; so does the rest of the report as a whole.
-/

namespace TimingReport.Report

open Step
open Fallible (Together)

/-- The files are alike, and all else is the same. -/
structure Session.Alike (related : Content → Content → Prop) (left right : Session) : Prop where
  files : Files.Store.Alike related left.files right.files
  fonts : right.fonts = left.fonts
  events : right.events = left.events

/-- On sessions that are alike, the step has the same outcome and leaves sessions that are alike. -/
def Lockstep {α : Type} (related : Content → Content → Prop) (step : Step α) : Prop :=
  ∀ left right : Session, left.Alike related right →
    (step.exec right).1 = (step.exec left).1 ∧
      (step.exec left).2.Alike related (step.exec right).2

section

variable {α β : Type} {related : Content → Content → Prop}

/-! ## Putting steps together -/

theorem lockstep_pure (value : α) : Lockstep related (pure value : Step α) :=
  fun _ _ halike => ⟨rfl, halike⟩

theorem Lockstep.bind {step : Step α} {next : α → Step β} (hstep : Lockstep related step)
    (hnext : ∀ value, Lockstep related (next value)) : Lockstep related (step >>= next) := by
  intro left right halike
  obtain ⟨hsame, hafter⟩ := hstep left right halike
  rw [exec_bind, exec_bind]
  rcases hleft : step.exec left with ⟨failure | value, leftAfter⟩ <;>
    rcases hright : step.exec right with ⟨other, rightAfter⟩ <;>
      rw [hleft, hright] at hsame hafter <;> obtain rfl : other = _ := hsame
  · exact ⟨rfl, hafter⟩
  · exact hnext value _ _ hafter

theorem lockstep_forM {path : Option String} {step : String → Step Unit}
    (hstep : ∀ path, Lockstep related (step path)) : Lockstep related (path.forM step) := by
  cases path with
  | none => exact lockstep_pure ()
  | some path => exact hstep path

theorem lockstep_emit (event : Event) : Lockstep related (emit event) := by
  intro left right halike
  refine ⟨rfl, halike.files, halike.fonts, ?_⟩
  simp only [exec_emit, halike.events]

/-! ## The steps of a report -/

theorem lockstep_checkParent (path : String) : Lockstep related (checkParent path) := by
  intro left right halike
  have hmissing : missingParent? right.files path = missingParent? left.files path := by
    simp only [missingParent?, halike.files.isDirectory_eq]
  rw [exec_checkParent, exec_checkParent, hmissing]
  cases missingParent? left.files path <;> exact ⟨rfl, halike⟩

section

variable {library : Chart.Library} {left right : FileStore}
  (hnoFont : ∀ content other, related content other →
    library.isFont content.bytes = false ∧ library.isFont other.bytes = false)

include hnoFont

/-- Contents that are no fonts do not matter for what comes of loading one. -/
theorem register_alike (halike : left.Alike related right) (fonts : FontCache)
    (path : String) : register library right fonts path = register library left fonts path := by
  rw [register, register]
  cases fonts.font? path with
  | some font => rfl
  | none =>
    rcases halike.read_cases path with hsame | ⟨content, other, hrelated, hleft, hright⟩
    · rw [hsame]
    · obtain ⟨hcontent, hother⟩ := hnoFont content other hrelated
      simp only [hleft, hright, hcontent, hother, Bool.false_eq_true, if_false]

theorem searchFont_alike (halike : left.Alike related right) (fonts : FontCache)
    (font : Option String) :
    searchFont library right fonts font = searchFont library left fonts font := by
  have hsystem : ∀ paths, searchSystem library right fonts paths =
      searchSystem library left fonts paths := by
    intro paths
    induction paths with
    | nil => rfl
    | cons path rest ih =>
      simp only [searchSystem, halike.isFile_eq, register_alike hnoFont halike, ih]
  cases font with
  | some path => exact register_alike hnoFont halike fonts path
  | none => rw [searchFont, searchFont, hsystem]

end

theorem lockstep_findFont {machine : Machine} (hnoFont : ∀ content other, related content other →
      machine.library.isFont content.bytes = false ∧ machine.library.isFont other.bytes = false)
    (font : Option String) : Lockstep related (findFont machine font) := by
  intro left right halike
  rw [exec_findFont, exec_findFont, halike.fonts, searchFont_alike hnoFont halike.files]
  cases searchFont machine.library left.files left.fonts font with
  | error fault => exact ⟨rfl, halike⟩
  | ok found => exact ⟨rfl, halike.files, rfl, by simp only [halike.events]⟩

theorem lockstep_stagingDirectory (path : String) : Lockstep related (stagingDirectory path) := by
  intro left right halike
  rw [exec_stagingDirectory, exec_stagingDirectory, halike.files.workingDirectory]
  cases Files.parent? path with
  | none => exact ⟨rfl, halike⟩
  | some parent =>
    dsimp only
    split
    · exact ⟨rfl, halike⟩
    · rcases halike.files.lookup_cases parent with hsame | ⟨_, _, _, -, hleft, hright⟩
      · rw [hsame]
        rcases left.files.lookup parent with error | ⟨location, node⟩
        · exact ⟨rfl, halike⟩
        · cases node <;> exact ⟨rfl, halike⟩
      · rw [hleft, hright]
        exact ⟨rfl, halike⟩

theorem lockstep_putFile (location : Files.Location) (content : Content) :
    Lockstep related (putFile location content) :=
  fun _ _ halike => ⟨rfl, halike.files.put _ (.same _), halike.fonts, halike.events⟩

theorem lockstep_discard (staging : Files.Location) (failure : Failure) :
    Lockstep related (discard staging failure) :=
  fun _ _ halike => ⟨rfl, halike.files.remove staging, halike.fonts, halike.events⟩

theorem lockstep_openStaging (path : String) : Lockstep related (openStaging path) := by
  refine (lockstep_stagingDirectory path).bind fun directory => ?_
  intro left right halike
  have hname := halike.files.freshName_eq ".perf-report-" ".png"
  rw [exec_bind_of_ok (exec_get left), exec_bind_of_ok (exec_get right), hname]
  exact (lockstep_putFile _ _).bind (fun _ => lockstep_pure _) left right halike

theorem lockstep_placeChart (staging : Files.Location) (path : String) :
    Lockstep related (placeChart staging path) := by
  intro left right halike
  have hmove := halike.files.moveOnto staging path
  rw [exec_placeChart, exec_placeChart]
  generalize left.files.moveOnto staging path = leftMoved at hmove
  generalize right.files.moveOnto staging path = rightMoved at hmove
  cases hmove with
  | error error => exact ⟨rfl, halike.files.remove staging, halike.fonts, halike.events⟩
  | ok hfiles => exact ⟨rfl, hfiles, halike.fonts, halike.events⟩

theorem lockstep_writeChart (machine : Machine) (path : String) (chart : Chart) :
    Lockstep related (writeChart machine path chart) := by
  refine (lockstep_openStaging path).bind fun staging => ?_
  cases machine.draw chart with
  | error reason => exact lockstep_discard staging _
  | ok image =>
    dsimp only
    cases machine.faults.presenting image with
    | some reason => exact lockstep_discard staging _
    | none => exact (lockstep_putFile staging _).bind fun _ => lockstep_placeChart staging path

theorem lockstep_drawChart {machine : Machine} (hnoFont : ∀ content other, related content other →
      machine.library.isFont content.bytes = false ∧ machine.library.isFont other.bytes = false)
    (plan : Plan) (boxes : List BoxSummary) (path : String) :
    Lockstep related (drawChart machine plan boxes path) := by
  rw [drawChart]
  cases boxes.isEmpty with
  | true => exact fun _ _ halike => ⟨rfl, halike⟩
  | false =>
    simp only [Bool.false_eq_true, if_false]
    cases Chart.axisRange boxes plan.axisBound with
    | error fault => exact fun _ _ halike => ⟨rfl, halike⟩
    | ok range =>
      refine (lockstep_findFont hnoFont plan.font).bind fun font => ?_
      refine (lockstep_emit _).bind fun _ => ?_
      exact (lockstep_writeChart machine path _).bind fun _ => lockstep_pure _

/-- What comes of saving a summary does not depend on the contents of other files. -/
theorem saved_alike {left right : FileStore} (halike : left.Alike related right)
    (machine : Machine) (path : String) (result : Result) :
    (saved machine right path result).1 = (saved machine left path result).1 ∧
      (saved machine left path result).2.Alike related (saved machine right path result).2 := by
  rw [saved_eq_write, saved_eq_write]
  cases machine.faults.serializing result with
  | some reason => exact ⟨rfl, halike⟩
  | none =>
    dsimp only
    generalize Content.data _ = content
    have hwrite := halike.write path content
    generalize left.write path content = leftWritten at hwrite
    generalize right.write path content = rightWritten at hwrite
    cases hwrite with
    | error error => exact ⟨rfl, halike⟩
    | ok hfiles => exact ⟨rfl, hfiles⟩

theorem lockstep_saveSummary (machine : Machine) (path : String) (result : Result) :
    Lockstep related (saveSummary machine path result) := by
  intro left right halike
  rw [exec_saveSummary, exec_saveSummary]
  obtain ⟨hsame, hfiles⟩ := saved_alike halike.files machine path result
  exact ⟨hsame, hfiles, halike.fonts, halike.events⟩

/-! ## The rest of a report -/

/-- What a report does behind its table. -/
def plotTable (machine : Machine) (plan : Plan) (records : Nat) (table : TimingTable) :
    Step Result := do
  emit (.pivoted records table.rowCount table.columnCount)
  let boxes := boxesOf table
  checkParent plan.output
  plan.summary.forM checkParent
  let labeled ← drawChart machine plan boxes plan.output
  emit (.wroteChart plan.output boxes.length)
  return {
    input := plan.input
    output := plan.output
    rows := table.rowCount
    tags := boxes.map BoxSummary.tag
    axisBound := plan.axisBound
    labeled
    boxes }

theorem plotLog_eq (machine : Machine) (plan : Plan) :
    plotLog machine plan = emit (.loading plan.input) >>= fun _ =>
      readMeasurements plan.input >>= fun measurements =>
        tabulate plan measurements >>= plotTable machine plan measurements.length := rfl

theorem lockstep_plotTable {machine : Machine} (hnoFont : ∀ content other, related content other →
      machine.library.isFont content.bytes = false ∧ machine.library.isFont other.bytes = false)
    (plan : Plan) (records : Nat) (table : TimingTable) :
    Lockstep related (plotTable machine plan records table) := by
  refine (lockstep_emit _).bind fun _ => ?_
  refine (lockstep_checkParent _).bind fun _ => ?_
  refine (lockstep_forM lockstep_checkParent).bind fun _ => ?_
  refine (lockstep_drawChart hnoFont plan _ _).bind fun labeled => ?_
  exact (lockstep_emit _).bind fun _ => lockstep_pure _

/-- The outcomes are the same, or both tell of a clash where clashes are rejected. -/
def SameOrClash (plan : Plan) (left right : Except Failure α) : Prop :=
  right = left ∨ plan.duplicateRule = .reject ∧ ∃ clash otherClash,
    left = .error (.duplicate clash) ∧ right = .error (.duplicate otherClash)

/-- Steps in lockstep may follow where outcomes are the same or clash. -/
theorem Lockstep.sameOrClash_bind {plan : Plan} {step otherStep : Step α} {next : α → Step β}
    (hnext : ∀ value, Lockstep related (next value)) {left right : Session}
    (hsame : SameOrClash plan (step.exec left).1 (otherStep.exec right).1)
    (hafter : (step.exec left).2.Alike related (otherStep.exec right).2) :
    SameOrClash plan ((step >>= next).exec left).1 ((otherStep >>= next).exec right).1 ∧
      ((step >>= next).exec left).2.Alike related ((otherStep >>= next).exec right).2 := by
  rw [exec_bind, exec_bind]
  rcases hleft : step.exec left with ⟨outcome, leftAfter⟩
  rcases hright : otherStep.exec right with ⟨otherOutcome, rightAfter⟩
  rw [hleft, hright] at hsame hafter
  rcases hsame with rfl | ⟨hreject, clash, otherClash, rfl, rfl⟩
  · cases otherOutcome with
    | error failure => exact ⟨.inl rfl, hafter⟩
    | ok value => exact (hnext value _ _ hafter).imp .inl id
  · exact ⟨.inr ⟨hreject, clash, otherClash, rfl, rfl⟩, hafter⟩

/-- Where the log has measurements, a report goes on with their table. -/
theorem exec_plotLog_of_readLog {machine : Machine} {plan : Plan} {session : Session}
    {content : Content}
    {measurements : List TimingLog.Measurement}
    (hread : session.files.read plan.input = .ok content)
    (hlog : TimingLog.readLog (.ofBytes content.bytes) = .ok measurements) :
    (plotLog machine plan).exec session =
      (tabulate plan measurements >>= plotTable machine plan measurements.length).exec
        { session with events := session.events ++ [.loading plan.input] ++
            [.parsed measurements.length plan.input] } := by
  have hparsed := exec_readMeasurements plan.input
    { session with events := session.events ++ [.loading plan.input] }
  simp only [hread, hlog] at hparsed
  rw [plotLog_eq, exec_bind_of_ok (exec_emit _ _), exec_bind_of_ok hparsed]

/-- Reports on rearranged measurements go on alike. -/
theorem run_alike {machine : Machine} (hnoFont : ∀ content other, related content other →
      machine.library.isFont content.bytes = false ∧ machine.library.isFont other.bytes = false)
    {plan : Plan}
    {left right : Session} (halike : left.Alike related right)
    {content other : Content} {measurements otherMeasurements : List TimingLog.Measurement}
    (hread : left.files.read plan.input = .ok content)
    (hlog : TimingLog.readLog (.ofBytes content.bytes) = .ok measurements)
    (hotherRead : right.files.read plan.input = .ok other)
    (hotherLog : TimingLog.readLog (.ofBytes other.bytes) = .ok otherMeasurements)
    (hrearranged : TimingTable.Rearranged measurements otherMeasurements) :
    SameOrClash plan ((run machine plan).exec left).1 ((run machine plan).exec right).1 ∧
      ((run machine plan).exec left).2.Alike related ((run machine plan).exec right).2 := by
  have hsave : ∀ result, Lockstep related (do
      plan.summary.forM fun path => do
        saveSummary machine path result
        emit (.wroteSummary path)
      return result : Step Result) := fun result =>
    (lockstep_forM fun path =>
      (lockstep_saveSummary machine path result).bind fun _ => lockstep_emit _).bind
        fun _ => lockstep_pure result
  have hplot :
      SameOrClash plan ((plotLog machine plan).exec left).1
          ((plotLog machine plan).exec right).1 ∧
        ((plotLog machine plan).exec left).2.Alike related
          ((plotLog machine plan).exec right).2 := by
    rw [exec_plotLog_of_readLog hread hlog, exec_plotLog_of_readLog hotherRead hotherLog,
      ← hrearranged.perm.length_eq]
    refine Lockstep.sameOrClash_bind (lockstep_plotTable hnoFont plan _) ?_ ?_
    · rw [exec_tabulate, exec_tabulate]
      rcases hrearranged.ofMeasurements_eq plan.duplicateRule with
        hsame | ⟨hreject, clash, otherClash, hclash, hotherClash⟩
      · rw [hsame]
        cases TimingTable.ofMeasurements plan.duplicateRule measurements <;> exact .inl rfl
      · rw [hclash, hotherClash]
        exact .inr ⟨hreject, clash, otherClash, rfl, rfl⟩
    · have hevents := congrArg (· ++ [Event.loading plan.input] ++
        [.parsed measurements.length plan.input]) halike.events
      rw [exec_tabulate, exec_tabulate]
      cases TimingTable.ofMeasurements plan.duplicateRule measurements <;>
        cases TimingTable.ofMeasurements plan.duplicateRule otherMeasurements <;>
          exact ⟨halike.files, halike.fonts, hevents⟩
  exact Lockstep.sameOrClash_bind hsave hplot.1 hplot.2

end

end TimingReport.Report
