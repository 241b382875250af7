import SchemaQuery.Diagnostics.Event

/-!
# Signals

Operations do not write anything: they return the signals they give, in order, beside their result.
What becomes of a signal is the choice of a sink.
-/

namespace SchemaQuery

/-- Named texts that belong to a report. -/
abbrev Details := List (String × String)

/-- One thing that an operation lets others know. -/
inductive Signal where
  /-- An event with its details. -/
  | event (event : Event) (details : Details)
  /-- A report without a name. -/
  | note (severity : Severity) (text : String)
  /-- A statement has run. -/
  | executed (model kind sql : String) (rows : Nat)
  /-- A range of rows has been read. -/
  | paged (model sql : String) (start stop total : Nat)

/-- An event for a reader: its name, then each detail as `name=text`. -/
def Event.describe (e : Event) (details : Details) : String :=
  details.foldl (fun text detail => text ++ " " ++ detail.1 ++ "=" ++ detail.2) e.name

/-- A result with the signals given on the way. -/
structure Reported (α : Type) where
  value : α
  signals : List Signal

namespace Reported

/-- A result without signals. -/
def silent {α : Type} (value : α) : Reported α :=
  ⟨value, []⟩

end Reported

end SchemaQuery
