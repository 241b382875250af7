import SchemaQuery.Diagnostics.Signal
import SchemaQuery.Json.Printer

/-!
# Sinks

A sink turns signals into something that can be kept or shown: records in memory, log lines for two
streams, or entries of a trace.
-/

namespace SchemaQuery

/-- A report kept in memory. -/
structure Diagnostic where
  severity : Severity
  event : Option Event
  message : String
  deriving DecidableEq

namespace Diagnostic

/-- The record of a signal; what the query layer tells about its statements is not recorded. -/
def ofSignal? : Signal → Option Diagnostic
  | .event event details => some ⟨event.severity, some event, event.describe details⟩
  | .note severity text => some ⟨severity, none, text⟩
  | .executed .. | .paged .. => none

/-- The records of signals. -/
def ofSignals (signals : List Signal) : List Diagnostic :=
  signals.filterMap ofSignal?

/-- The records that are problems. -/
def problems (records : List Diagnostic) : List Diagnostic :=
  records.filter fun d => d.severity.isProblem

/-- How often an event was recorded. -/
def countOf (event : Event) (records : List Diagnostic) : Nat :=
  (records.filter fun d => d.event = some event).length

/-- A record as JSON; a report without a name has no event. -/
def toJson (d : Diagnostic) : Json :=
  .obj (("severity", .str d.severity.name) ::
    (match d.event with
      | some event => [("event", .str event.name)]
      | none => []) ++ [("message", .str d.message)])

end Diagnostic

/-- Which of two details comes first in a log line. -/
def detailBefore (a b : String × String) : Bool :=
  decide (a.1 ≤ b.1)

/-- One line of a log: a JSON object with the event, the severity, then the details by name. Of a
repeated name the last text stays, and no detail replaces the event or the severity. -/
def logLine (severity : Severity) (event : String) (details : Details) : String :=
  let fields := (details.mergeSort detailBefore).filter fun d => d.1 ≠ "event" ∧ d.1 ≠ "severity"
  let start : Members := [("event", .str event), ("severity", .str severity.name)]
  let line := start.extend (fields.map fun d => (d.1, .str d.2))
  (Json.obj line).compact ++ "\n"

/-- Log lines on two streams. -/
structure LogOutput where
  stdout : List String
  stderr : List String

namespace LogOutput

/-- No lines. -/
def empty : LogOutput :=
  ⟨[], []⟩

/-- Adds a line: problems go to the error stream. -/
def add (out : LogOutput) (severity : Severity) (line : String) : LogOutput :=
  if severity.isProblem then { out with stderr := out.stderr ++ [line] }
  else { out with stdout := out.stdout ++ [line] }

/-- Logs a signal that is grave enough. -/
def log (least : Severity) (out : LogOutput) : Signal → LogOutput
  | .event event details =>
    if event.severity.reaches least then
      out.add event.severity (logLine event.severity event.name details)
    else out
  | .note severity text =>
    if severity.reaches least then
      out.add severity (logLine severity "DIAGNOSTIC" [("message", text)])
    else out
  | .executed .. | .paged .. => out

/-- Logs signals in order. -/
def ofSignals (least : Severity) (signals : List Signal) : LogOutput :=
  signals.foldl (log least) empty

end LogOutput

/-- An entry of a trace: a severity and named values. -/
structure TraceEntry where
  severity : Severity
  fields : Members

/-- The trace entry of a signal. -/
def TraceEntry.ofSignal : Signal → TraceEntry
  | .event event details => ⟨event.severity, [("message", .str (event.describe details))]⟩
  | .note severity text => ⟨severity, [("message", .str text)]⟩
  | .executed model kind sql rows =>
    ⟨.debug, [("message", .str "query executed"), ("model", .str model), ("kind", .str kind),
      ("sql", .str sql), ("rows", .ofNat rows)]⟩
  | .paged model sql start stop total =>
    ⟨.debug, [("message", .str "page executed"), ("model", .str model), ("sql", .str sql),
      ("start", .ofNat start), ("end", .ofNat stop), ("total", .ofNat total)]⟩

end SchemaQuery
