import TimingReport.Report.Event

/-!
# Choosing log events

A filter names targets and the least important level that each may log. The longest name
that a target begins with decides; a target without such a name logs nothing.
-/

namespace TimingReport.Command

open TimingReport.Report (Event Level)

/-- How much may be logged. -/
inductive Threshold where
  | off
  | error
  | warn
  | info
  | debug
  | trace
  deriving DecidableEq, Repr

def Threshold.ofName? (name : String) : Option Threshold :=
  match name.toLower with
  | "off" => some .off
  | "error" => some .error
  | "warn" => some .warn
  | "info" => some .info
  | "debug" => some .debug
  | "trace" => some .trace
  | _ => none

def Threshold.admits (threshold : Threshold) (level : Level) : Bool :=
  match threshold, level with
  | .trace, _ | .debug, _ => true
  | .info, level => level != .debug
  | .warn, level => level = .warn
  | .error, _ | .off, _ => false

/-- The beginning of targets and what they may log; the empty text is the beginning of
all. -/
structure Directive where
  target : String
  threshold : Threshold
  deriving DecidableEq, Repr

/-- A later directive takes the place of an earlier one for the same target. -/
abbrev LogFilter := List Directive

namespace LogFilter

def off : LogFilter := []

def standard : LogFilter := [⟨"", .info⟩]

def directive? (text : String) : Option Directive :=
  let target := String.ofList (text.toList.takeWhile (· ≠ '='))
  match text.toList.dropWhile (· ≠ '=') with
  | [] =>
    match Threshold.ofName? text with
    | some threshold => some ⟨"", threshold⟩
    | none => if text = "" then none else some ⟨text, .trace⟩
  | _ :: name => (Threshold.ofName? (String.ofList name)).map (⟨target, ·⟩)

/-- The filter that a comma list describes: levels for targets, and a level for all
others. -/
def ofText (text : String) : LogFilter := (text.splitOn ",").filterMap directive?

/-- The directive with the longest matching target, the last one of several. -/
def directiveFor? (filter : LogFilter) (target : String) : Option Directive :=
  let matching :=
    filter.filter (fun directive => directive.target.toList.isPrefixOf target.toList)
  matching.foldl
    (fun best directive =>
      match best with
      | some longest =>
        if directive.target.length < longest.target.length then best else some directive
      | none => some directive)
    none

def admits (filter : LogFilter) (event : Event) : Bool :=
  (filter.directiveFor? event.target).any
    (fun directive => directive.threshold.admits event.level)

end LogFilter

end TimingReport.Command
