import TimingReport.Command.Program
import TimingReport.Report.Reference

/-!
# The command line

Copies what a report may look at from the disk into a store, runs the program on the
store and the reference machine, and copies the outputs back.
-/

namespace TimingReport.Main

open TimingReport.Report (Content FileStore Machine systemFonts)

def diskPath (location : Files.Location) : String := "/" ++ "/".intercalate location

/-- What is on the disk at a location. -/
def nodeOnDisk (location : Files.Location) : IO (Option (Files.Node Content)) := do
  let path := (← IO.currentDir) / diskPath location
  if ← path.isDir then return some .directory
  else
    try
      let bytes ← IO.FS.readBinFile path
      return some (.file (.data bytes))
    catch _ => return none

/-- The locations that a path passes through. -/
def passedLocations (start : Files.Location) : List String → List Files.Location
  | [] => []
  | part :: rest =>
    if Files.isIdle part then passedLocations start rest
    else
      let next := if part = ".." then start.dropLast else start ++ [part]
      next :: passedLocations next rest

def observe (files : FileStore) (location : Files.Location) : IO FileStore := do
  if location = [] then return files
  match ← nodeOnDisk location with
  | some node => return files.put location node
  | none => return files

/-- The paths that a report with these settings may look at. -/
def paths (plan : Plan) : List String :=
  let fonts := match plan.font with
    | some font => [font]
    | none => systemFonts
  [plan.input, plan.output] ++ plan.summary.toList ++ fonts

/-- The part of the disk that the settings name. -/
def storeOf (plan : Plan) : IO FileStore := do
  let currentParts := Files.parts (← IO.currentDir).toString
  let workingDirectory := currentParts.filter (fun part => !Files.isIdle part)
  let start : FileStore := ⟨[], workingDirectory⟩
  let passed := (paths plan).flatMap
    (fun path => passedLocations (start.origin path) (Files.parts path))
  (passedLocations [] workingDirectory ++ passed).foldlM observe start

/-- Writes an output to the disk: a chart whenever it was made, a summary after a run
without an error. -/
def writeOutput (finish : Command.Finish) (path : String) : IO Unit := do
  match finish.files.lookup path with
  | .ok (location, .file (.picture image)) =>
    IO.FS.writeBinFile (diskPath location) ⟨(Chart.Png.encode image).toArray⟩
  | .ok (location, .file (.data bytes)) =>
    if finish.exitCode = 0 then IO.FS.writeBinFile (diskPath location) bytes
  | _ => return

def logFilter : IO Command.LogFilter := do
  match ← IO.getEnv "RUST_LOG" with
  | some text => return .ofText text
  | none => return .standard

/-- The end of a run of the program on a part of the disk. -/
def finishOn (arguments : List String) (filter : Command.LogFilter)
    (files : FileStore) : Command.Finish :=
  Command.run .reference .reference arguments filter files

end TimingReport.Main

open TimingReport in
def main (arguments : List String) : IO UInt32 := do
  let filter ← Main.logFilter
  let finish ← match Command.planOfArguments .reference arguments with
    | .error _ => pure (Main.finishOn arguments filter .empty)
    | .ok plan => do
      let finish := Main.finishOn arguments filter (← Main.storeOf plan)
      ([plan.output] ++ plan.summary.toList).forM (Main.writeOutput finish)
      pure finish
  let stderr ← IO.getStderr
  finish.logLines.forM stderr.putStrLn
  stderr.putStr finish.stderr
  (← IO.getStdout).putStr finish.stdout
  return UInt32.ofNat finish.exitCode
