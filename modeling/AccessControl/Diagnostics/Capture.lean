/-
  AccessControl/Diagnostics/Capture.lean
  ======================================
  **Which reports are recorded.**

  A `Report` is an event as anyone may make it: under any target, with any
  message and fields.  A report is recorded when its target is that of a topic
  and the level of the topic is at least the verbosity of its severity.
-/
import AccessControl.Diagnostics.Event
import AccessControl.Diagnostics.Verbosity

namespace AccessControl

/-- Something that is reported under a target. -/
structure Report where
  target : String
  severity : Severity
  message : String
  fields : List (String × String)
deriving DecidableEq

/-- An event as it is reported. -/
def Event.report (event : Event) : Report where
  target := event.topic.target
  severity := event.severity
  message := event.name
  fields := event.fields

/-- A report that was recorded, with the verbosity at which it is first shown. -/
structure Recorded where
  topic : Topic
  level : UInt8
  message : String
  fields : List (String × String)
deriving DecidableEq

namespace Verbosity

/-- Reports under a target and of a severity are recorded. -/
def admits (v : Verbosity) (target : String) (severity : Severity) : Bool :=
  match Topic.ofTarget? target with
  | some topic => severity.verbosity ≤ v.level topic
  | none => false

/-- What is recorded of a report. -/
def record? (v : Verbosity) (report : Report) : Option Recorded :=
  match Topic.ofTarget? report.target with
  | some topic =>
    if report.severity.verbosity ≤ v.level topic then
      some { topic, level := report.severity.verbosity, message := report.message,
             fields := report.fields }
    else none
  | none => none

/-- What is recorded of several reports, in their order. -/
def capture (v : Verbosity) (reports : List Report) : List Recorded :=
  reports.filterMap v.record?

end Verbosity

end AccessControl
