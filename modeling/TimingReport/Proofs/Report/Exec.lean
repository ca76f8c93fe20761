import TimingReport.Proofs.Files.Frame
import TimingReport.Report.Run

/-!
# What each step of a report does

`Step.exec` runs a step on a session.  The equations below give, step by step,
the result and the session that is left; a statement about a whole report is
assembled from them, and no later proof opens a step again.
-/

namespace TimingReport.Report

namespace Step

variable {α β : Type}

def exec (step : Step α) (session : Session) : Except Failure α × Session :=
  step.run.run session

theorem runOn_eq_exec (step : Step α) (files : FileStore) (fonts : FontCache) :
    step.runOn files fonts = step.exec ⟨files, fonts, []⟩ := rfl

@[simp]
theorem exec_pure (value : α) (session : Session) :
    exec (pure value) session = (.ok value, session) := rfl

@[simp]
theorem exec_throw (failure : Failure) (session : Session) :
    exec (throw failure : Step α) session = (.error failure, session) := rfl

@[simp]
theorem exec_get (session : Session) : exec get session = (.ok session, session) := rfl

@[simp]
theorem exec_set (next session : Session) : exec (set next) session = (.ok (), next) := rfl

@[simp]
theorem exec_modify (change : Session → Session) (session : Session) :
    exec (modify change) session = (.ok (), change session) := rfl

theorem exec_bind (step : Step α) (next : α → Step β) (session : Session) :
    exec (step >>= next) session =
      match step.exec session with
      | (.ok value, after) => (next value).exec after
      | (.error failure, after) => (.error failure, after) := by
  simp only [exec, ExceptT.run_bind, StateT.run_bind]
  rcases step.run.run session with ⟨outcome, after⟩
  cases outcome <;> rfl

theorem exec_bind_of_ok {step : Step α} {session after : Session} {value : α}
    (hstep : step.exec session = (.ok value, after)) (next : α → Step β) :
    exec (step >>= next) session = (next value).exec after := by
  rw [exec_bind, hstep]

theorem exec_bind_of_error {step : Step α} {session after : Session} {failure : Failure}
    (hstep : step.exec session = (.error failure, after)) (next : α → Step β) :
    exec (step >>= next) session = (.error failure, after) := by
  rw [exec_bind, hstep]

end Step

open Step

@[simp]
theorem exec_emit (event : Event) (session : Session) :
    (emit event).exec session =
      (.ok (), { session with events := session.events ++ [event] }) := rfl

theorem exec_readMeasurements (path : String) (session : Session) :
    (readMeasurements path).exec session =
      match session.files.read path with
      | .error error => (.error (.read path (.unreadable error.message)), session)
      | .ok content =>
        match TimingLog.readLog (.ofBytes content.bytes) with
        | .error fault => (.error (.read path fault), session)
        | .ok measurements =>
          (.ok measurements,
            { session with events := session.events ++ [.parsed measurements.length path] }) := by
  rw [readMeasurements, exec_bind_of_ok (exec_get session)]
  cases session.files.read path with
  | error error => rfl
  | ok content =>
    dsimp only
    cases TimingLog.readLog (.ofBytes content.bytes) <;> rfl

theorem exec_tabulate (plan : Plan) (measurements : List TimingLog.Measurement)
    (session : Session) :
    (tabulate plan measurements).exec session =
      match TimingTable.ofMeasurements plan.duplicateRule measurements with
      | .ok table => (.ok (table.select plan.plots), session)
      | .error clash => (.error (.duplicate clash), session) := by
  rw [tabulate]
  cases TimingTable.ofMeasurements plan.duplicateRule measurements <;> rfl

/-- The directory that a file would go into, if there is no such directory. -/
def missingParent? (files : FileStore) (path : String) : Option String :=
  match Files.parent? path with
  | none => none
  | some parent => if parent = "" || files.isDirectory parent then none else some parent

theorem exec_checkParent (path : String) (session : Session) :
    (checkParent path).exec session =
      match missingParent? session.files path with
      | none => (.ok (), session)
      | some parent => (.error (.write path (.missingDirectory parent)), session) := by
  rw [checkParent, missingParent?]
  cases Files.parent? path with
  | none => rfl
  | some parent =>
    rw [exec_bind_of_ok (exec_get session)]
    dsimp only
    split <;> rfl

theorem exec_findFont (machine : Machine) (path : Option String) (session : Session) :
    (findFont machine path).exec session =
      match searchFont machine.library session.files session.fonts path with
      | .error fault => (.error (.draw fault), session)
      | .ok found =>
        (.ok found.font,
          { session with
            fonts := found.fonts
            events := session.events ++ found.events }) := by
  rw [findFont, exec_bind_of_ok (exec_get session)]
  dsimp only
  cases searchFont machine.library session.files session.fonts path <;> rfl

theorem exec_stagingDirectory (path : String) (session : Session) :
    (stagingDirectory path).exec session =
      match Files.parent? path with
      | none => (.ok session.files.workingDirectory, session)
      | some parent =>
        if parent = "" then (.ok session.files.workingDirectory, session)
        else
          match session.files.lookup parent with
          | .ok (location, .directory) => (.ok location, session)
          | .ok (_, .file _) => (.error (.write path (.system .notADirectory)), session)
          | .error error => (.error (.write path (.system error)), session) := by
  rw [stagingDirectory, exec_bind_of_ok (exec_get session)]
  cases Files.parent? path with
  | none => rfl
  | some parent =>
    dsimp only
    split
    · rfl
    · rcases session.files.lookup parent with error | ⟨location, node⟩
      · rfl
      · cases node <;> rfl

@[simp]
theorem exec_putFile (location : Files.Location) (content : Content) (session : Session) :
    (putFile location content).exec session =
      (.ok (), { session with files := session.files.put location (.file content) }) := rfl

@[simp]
theorem exec_discard (staging : Files.Location) (failure : Failure) (session : Session) :
    (discard staging failure).exec session =
      (.error failure, { session with files := session.files.remove staging }) := rfl

theorem exec_placeChart (staging : Files.Location) (path : String) (session : Session) :
    (placeChart staging path).exec session =
      match session.files.moveOnto staging path with
      | .error error =>
        (.error (.write path (.system error)),
          { session with files := session.files.remove staging })
      | .ok files => (.ok (), { session with files }) := by
  rw [placeChart, exec_bind_of_ok (exec_get session)]
  cases session.files.moveOnto staging path <;> rfl

/-- What comes of saving the summary of a result, and the files that are left. -/
def saved (machine : Machine) (files : FileStore) (path : String) (result : Result) :
    Except Failure Unit × FileStore :=
  match machine.faults.serializing result with
  | some reason => (.error (.write path (.other reason)), files)
  | none =>
    let text := result.summaryText.toUTF8
    match machine.faults.saving path text with
    | none =>
      match files.write path (.data text) with
      | .error error => (.error (.write path (.system error)), files)
      | .ok after => (.ok (), after)
    | some cut =>
      match files.write path (.data (cut.rest text)) with
      | .error error => (.error (.write path (.system error)), files)
      | .ok after => (.error (.write path (.other cut.reason)), after)

/-- Either way the file is written once, with the text or with what is left of it. -/
theorem saved_eq_write (machine : Machine) (files : FileStore) (path : String)
    (result : Result) :
    saved machine files path result =
      match machine.faults.serializing result with
      | some reason => (.error (.write path (.other reason)), files)
      | none =>
        let text := result.summaryText.toUTF8
        let cut? := machine.faults.saving path text
        match files.write path (.data (cut?.elim text (CutOff.rest · text))) with
        | .error error => (.error (.write path (.system error)), files)
        | .ok after =>
          (cut?.elim (.ok ()) fun cut => .error (.write path (.other cut.reason)), after) := by
  rw [saved]
  cases machine.faults.serializing result with
  | some reason => rfl
  | none =>
    dsimp only
    cases machine.faults.saving path result.summaryText.toUTF8 <;> rfl

theorem exec_saveSummary (machine : Machine) (path : String) (result : Result)
    (session : Session) :
    (saveSummary machine path result).exec session =
      ((saved machine session.files path result).1,
        { session with files := (saved machine session.files path result).2 }) := by
  rw [saveSummary, saved_eq_write]
  cases machine.faults.serializing result with
  | some reason => rfl
  | none =>
    dsimp only
    rw [exec_bind_of_ok (exec_get session)]
    cases session.files.write path _ with
    | error error => rfl
    | ok after => cases machine.faults.saving path result.summaryText.toUTF8 <;> rfl

/-- A report is its chart, and then its summary if there is one. -/
theorem exec_run (machine : Machine) (plan : Plan) (session : Session) :
    (run machine plan).exec session =
      match (plotLog machine plan).exec session with
      | (.error failure, after) => (.error failure, after)
      | (.ok result, after) =>
        match plan.summary with
        | none => (.ok result, after)
        | some summary =>
          match saved machine after.files summary result with
          | (.error failure, files) => (.error failure, { after with files })
          | (.ok _, files) =>
            (.ok result,
              { after with files, events := after.events ++ [.wroteSummary summary] }) := by
  rw [run, exec_bind]
  rcases (plotLog machine plan).exec session with ⟨failure | result, after⟩
  · rfl
  · cases plan.summary with
    | none => rfl
    | some summary =>
      dsimp only [Option.forM]
      have hsave := exec_saveSummary machine summary result after
      rcases hsaved : saved machine after.files summary result with ⟨failure | _, files⟩
      · rw [hsaved] at hsave
        rw [exec_bind, exec_bind_of_error hsave]
      · rw [hsaved] at hsave
        rw [exec_bind, exec_bind_of_ok hsave]
        rfl

end TimingReport.Report
