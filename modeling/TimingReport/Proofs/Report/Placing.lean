import TimingReport.Proofs.Fallible
import TimingReport.Proofs.Files.Again
import TimingReport.Proofs.Report.Exec
import TimingReport.Report.Reference

/-!
# What is written, on its way to its path

A chart is drawn into a file of its own, next to its path, and moved onto the path at the end.
All that matters of it is its picture and the location it is moved to: either the picture stands
there and nothing else has changed, or nothing has changed at all.  A summary is written at its
path, so there it may be cut off.
-/

namespace TimingReport.Report

open Step
open Chart (Image)
open Files (Location)

theorem exec_stagingDirectory_eq (path : String) (session : Session) :
    (stagingDirectory path).exec session =
      (((stagingDirectory path).exec ⟨session.files, [], []⟩).1, session) := by
  rw [exec_stagingDirectory, exec_stagingDirectory]
  cases Files.parent? path with
  | none => rfl
  | some parent =>
    dsimp only
    split
    · rfl
    · rcases session.files.lookup parent with error | ⟨location, node⟩
      · rfl
      · cases node <;> rfl

/-- Where the check of the parent finds nothing missing, there is a directory for the chart. -/
theorem exists_stagingDirectory {path : String} {session : Session}
    (hparent : missingParent? session.files path = none) :
    ∃ directory, (stagingDirectory path).exec session = (.ok directory, session) := by
  rw [missingParent?] at hparent
  rw [exec_stagingDirectory]
  cases hpath : Files.parent? path with
  | none => exact ⟨_, rfl⟩
  | some parent =>
    dsimp only
    split
    · exact ⟨_, rfl⟩
    · next hempty =>
      have hdirectory : session.files.isDirectory parent = true := by
        simpa [hpath, hempty] using hparent
      rw [Files.Store.isDirectory] at hdirectory
      split at hdirectory
      · next location hlookup =>
        rw [hlookup]
        exact ⟨_, rfl⟩
      · cases hdirectory

/-- Where there is a directory for the chart, the check of the parent finds it. -/
theorem missingParent?_of_stagingDirectory {path : String} {session : Session}
    {directory : Location} (hstaging : ((stagingDirectory path).exec session).1 = .ok directory) :
    missingParent? session.files path = none := by
  rw [exec_stagingDirectory] at hstaging
  rw [missingParent?]
  cases hparent : Files.parent? path with
  | none => rfl
  | some parent =>
    by_cases hempty : parent = ""
    · simp [hempty]
    · simp only [hparent, if_neg hempty] at hstaging
      rcases hlookup : session.files.lookup parent with error | ⟨location, node⟩
      · simp [hlookup] at hstaging
      · cases node with
        | file content => simp [hlookup] at hstaging
        | directory => simp [Files.Store.isDirectory, hlookup]

/-- The location that the chart for a path is moved to, or why it is moved nowhere. -/
def chartLocation (files : FileStore) (path : String) : Except Failure Location := do
  let directory ← ((stagingDirectory path).exec ⟨files, [], []⟩).1
  let staging := directory ++ [files.freshName ".perf-report-" ".png"]
  ((files.put staging (.file (.data .empty))).fileLocation path .busy .notADirectory).mapError
    (fun error => .write path (.system error))

/-- The picture of the chart for a path, or why there is none. -/
def drawn (machine : Machine) (path : String) (chart : Chart) : Except Failure Image :=
  match machine.draw chart with
  | .error reason => .error (.draw (.library reason))
  | .ok image =>
    match machine.faults.presenting image with
    | some reason => .error (.write path (.other reason))
    | none => .ok image

/-- Where the picture of a chart is moved to, and the picture. -/
def pictured (machine : Machine) (files : FileStore) (path : String) (chart : Chart) :
    Except Failure (Location × Image) := do
  let _ ← ((stagingDirectory path).exec ⟨files, [], []⟩).1
  let image ← drawn machine path chart
  let location ← chartLocation files path
  return (location, image)

/-- A picture is written to its location, or nothing has changed. -/
theorem exec_writeChart (machine : Machine) (path : String) (chart : Chart)
    (session : Session) :
    (writeChart machine path chart).exec session =
      match pictured machine session.files path chart with
      | .error failure => (.error failure, session)
      | .ok (location, image) =>
        (.ok (),
          { session with files := session.files.put location (.file (.picture image)) }) := by
  rw [writeChart, openStaging, exec_bind, exec_bind, exec_stagingDirectory_eq, pictured,
    chartLocation, drawn]
  cases ((stagingDirectory path).exec ⟨session.files, [], []⟩).1 with
  | error failure => rfl
  | ok directory =>
    dsimp only
    rw [exec_bind_of_ok (exec_get _), exec_bind_of_ok (exec_putFile _ _ _), exec_pure]
    have hfresh := Files.Store.node?_freshName session.files directory ".perf-report-" ".png"
    dsimp only [bind, Except.bind]
    generalize directory ++ [session.files.freshName ".perf-report-" ".png"] = staging at hfresh ⊢
    have hroot : staging ≠ [] := by
      rintro rfl
      simp [Files.Store.node?] at hfresh
    have hdiscarded : ∀ failure, (discard staging failure).exec
        { session with files := session.files.put staging (.file (.data .empty)) } =
          (.error failure, session) := by
      intro failure
      rw [exec_discard]
      simp only [Files.Store.remove_put, Files.Store.remove_of_node?_eq_none hfresh]
    cases machine.draw chart with
    | error reason => exact hdiscarded _
    | ok image =>
      dsimp only
      cases machine.faults.presenting image with
      | some reason => exact hdiscarded _
      | none =>
        change (putFile staging (.picture image) >>= fun _ => placeChart staging path).exec
          _ = _
        rw [exec_bind_of_ok (exec_putFile _ _ _), exec_placeChart]
        have hway := (Files.Store.alike_put session.files staging (.data .empty)
          (.picture image)).fileLocation_eq path .busy .notADirectory
        simp only [Files.Store.put_put, Files.Store.moveOnto,
          Files.Store.node?_put_self _ hroot, hway, Files.Store.remove_put,
          Files.Store.remove_of_node?_eq_none hfresh, bind, Except.bind]
        cases (session.files.put staging (.file (.data .empty))).fileLocation path .busy
            .notADirectory <;> rfl

/-- A chart can be moved to a location if its parent is there, its path leads to the location and
no directory stands there. -/
theorem chartLocation_ok_iff {files : FileStore} {path : String} {location : Location} :
    chartLocation files path = .ok location ↔
      missingParent? files path = none ∧ files.target? path = some location ∧
        files.node? location ≠ some .directory := by
  have hfound : ∀ directory : Location,
      (files.put (directory ++ [files.freshName ".perf-report-" ".png"])
          (.file (.data .empty))).fileLocation path .busy .notADirectory = .ok location ↔
        files.target? path = some location ∧ files.node? location ≠ some .directory := by
    intro directory
    have hfresh := Files.Store.node?_freshName files directory ".perf-report-" ".png"
    have hnode : files.node? (directory ++ [files.freshName ".perf-report-" ".png"]) ≠
        some .directory := by simp [hfresh]
    have hsame := Files.Store.sameDirectories_put hnode (Content.data .empty)
    rw [Files.Store.fileLocation_ok_iff, hsame.target?_eq, ne_eq, hsame.directory_iff]
  rw [chartLocation]
  cases hstaging : ((stagingDirectory path).exec ⟨files, [], []⟩).1 with
  | error failure =>
    refine iff_of_false (by simp [bind, Except.bind]) fun hplace => ?_
    obtain ⟨directory, hdirectory⟩ := @exists_stagingDirectory path ⟨files, [], []⟩ hplace.1
    rw [hdirectory] at hstaging
    cases hstaging
  | ok directory =>
    have hparent := @missingParent?_of_stagingDirectory path ⟨files, [], []⟩ directory hstaging
    simp only [bind, Except.bind, Fallible.mapError_ok_iff, hfound, hparent, true_and]

/-- Where there is a directory for the chart, it is the system that does not let it be moved. -/
theorem exists_of_chartLocation_error {files : FileStore} {path : String} {failure : Failure}
    (hparent : missingParent? files path = none)
    (hlocation : chartLocation files path = .error failure) :
    ∃ error, failure = .write path (.system error) := by
  obtain ⟨directory, hdirectory⟩ := @exists_stagingDirectory path ⟨files, [], []⟩ hparent
  rw [chartLocation, hdirectory] at hlocation
  obtain ⟨error, -, rfl⟩ := Fallible.mapError_error_iff.1 hlocation
  exact ⟨error, rfl⟩

section

variable {machine : Machine} {files : FileStore} {path : String} {chart : Chart}
  {location : Location} {image : Image}

/-- The picture stands at the path, and nothing else has changed. -/
theorem placed_of_chartLocation (hlocation : chartLocation files path = .ok location)
    (content : Content) :
    Files.Store.Placed content path files (files.put location (.file content)) := by
  obtain ⟨-, htarget, hnode⟩ := chartLocation_ok_iff.1 hlocation
  exact ⟨location, htarget, hnode, rfl⟩

theorem drawn_ok_iff :
    drawn machine path chart = .ok image ↔
      machine.draw chart = .ok image ∧ machine.faults.presenting image = none := by
  rw [drawn]
  cases machine.draw chart with
  | error reason => simp
  | ok found =>
    dsimp only
    cases hpresent : machine.faults.presenting found with
    | none =>
      simp only [Except.ok.injEq]
      exact ⟨fun hsame => ⟨hsame, hsame ▸ hpresent⟩, And.left⟩
    | some reason =>
      simp only [reduceCtorEq, Except.ok.injEq, false_iff, not_and]
      rintro rfl
      simp [hpresent]

theorem pictured_ok_iff :
    pictured machine files path chart = .ok (location, image) ↔
      chartLocation files path = .ok location ∧ drawn machine path chart = .ok image := by
  rw [pictured]
  cases hstaging : ((stagingDirectory path).exec ⟨files, [], []⟩).1 with
  | error failure => simp [chartLocation, hstaging, bind, Except.bind]
  | ok directory =>
    cases drawn machine path chart <;> cases chartLocation files path <;>
      simp [bind, Except.bind, pure, Except.pure, and_comm]

/-- Where there is a directory for the chart, it is not drawn, or it is not moved. -/
theorem pictured_error_cases {failure : Failure}
    (hparent : missingParent? files path = none)
    (hpictured : pictured machine files path chart = .error failure) :
    drawn machine path chart = .error failure ∨
      (∃ image, drawn machine path chart = .ok image) ∧
        chartLocation files path = .error failure := by
  obtain ⟨directory, hdirectory⟩ := @exists_stagingDirectory path ⟨files, [], []⟩ hparent
  simp only [pictured, hdirectory, bind, Except.bind] at hpictured
  cases hdrawn : drawn machine path chart with
  | error fault =>
    simp only [hdrawn] at hpictured
    exact .inl (congrArg _ (Except.error.inj hpictured))
  | ok image =>
    cases hlocation : chartLocation files path with
    | error fault =>
      simp only [hdrawn, hlocation] at hpictured
      exact .inr ⟨⟨image, rfl⟩, congrArg _ (Except.error.inj hpictured)⟩
    | ok location =>
      simp only [hdrawn, hlocation] at hpictured
      cases hpictured

end

/-! ## What is always drawn -/

/-- The machine draws every chart and puts every picture into its file. -/
def Machine.DrawsAll (machine : Machine) : Prop :=
  (∀ chart part, machine.faults.drawing chart part = none) ∧
    ∀ image, machine.faults.presenting image = none

theorem Machine.DrawsAll.exists_drawn {machine : Machine} (hdraws : machine.DrawsAll)
    (path : String) (chart : Chart) : ∃ image, drawn machine path chart = .ok image :=
  ⟨_, drawn_ok_iff.2 ⟨Machine.draw_ok_iff.2 ⟨fun part _ => hdraws.1 chart part, rfl⟩,
    hdraws.2 _⟩⟩

theorem Machine.drawsAll_reference : Machine.reference.DrawsAll :=
  ⟨fun _ _ => rfl, fun _ => rfl⟩

/-! ## The summary -/

/-- The ways in which saving a summary ends: nothing has changed, or its file holds the
first bytes of the text, or it holds all of them. -/
inductive Saves (machine : Machine) (files : FileStore) (path : String) (result : Result) :
    Except Failure Unit × FileStore → Prop where
  | notTold {reason : String} (hreason : machine.faults.serializing result = some reason) :
    Saves machine files path result (.error (.write path (.other reason)), files)
  | notOpened {error : Files.SystemError}
    (htold : machine.faults.serializing result = none) (hplace : ¬ files.CanHold path) :
    Saves machine files path result (.error (.write path (.system error)), files)
  | cutOff {cut : CutOff} {after : FileStore}
    (htold : machine.faults.serializing result = none)
    (hcut : machine.faults.saving path result.summaryText.toUTF8 = some cut)
    (hplaced : Files.Store.Placed (.data (cut.rest result.summaryText.toUTF8)) path files
      after) :
    Saves machine files path result (.error (.write path (.other cut.reason)), after)
  | whole {after : FileStore} (htold : machine.faults.serializing result = none)
    (hwhole : machine.faults.saving path result.summaryText.toUTF8 = none)
    (hplaced : Files.Store.Placed (.data result.summaryText.toUTF8) path files after) :
    Saves machine files path result (.ok (), after)

/-- A file is not written exactly if there is no place for it. -/
theorem not_canHold_of_write_error {files : FileStore} {path : String} {content : Content}
    {error : Files.SystemError} (hwrite : files.write path content = .error error) :
    ¬ files.CanHold path := by
  intro hplace
  obtain ⟨after, hafter⟩ := Files.Store.exists_write_iff.2 hplace
  rw [hwrite] at hafter
  cases hafter

theorem saves_saved (machine : Machine) (files : FileStore) (path : String)
    (result : Result) :
    Saves machine files path result (saved machine files path result) := by
  rw [saved]
  cases htold : machine.faults.serializing result with
  | some reason => exact .notTold htold
  | none =>
    dsimp only
    cases hsaving : machine.faults.saving path result.summaryText.toUTF8 with
    | none =>
      dsimp only
      split
      · next hwrite => exact .notOpened htold (not_canHold_of_write_error hwrite)
      · next hwrite => exact .whole htold hsaving (Files.Store.write_ok_iff.1 hwrite)
    | some cut =>
      dsimp only
      split
      · next hwrite => exact .notOpened htold (not_canHold_of_write_error hwrite)
      · next hwrite => exact .cutOff htold hsaving (Files.Store.write_ok_iff.1 hwrite)

end TimingReport.Report
