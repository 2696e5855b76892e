/-!
# BslNav.Notice

Records for the log: how serious, what happened, and the particulars.
-/

namespace BslNav

/-- How serious a record is. -/
inductive Level where
  | trace | debug | warn | error
deriving DecidableEq, Repr

/-- The name of the level in a log. -/
def Level.name : Level → String
  | .trace => "TRACE"
  | .debug => "DEBUG"
  | .warn => "WARN"
  | .error => "ERROR"

/-- One record, its particulars as pairs of a field name and a text. -/
structure Notice where
  level : Level
  message : String
  fields : List (String × String)
deriving DecidableEq, Repr

end BslNav
