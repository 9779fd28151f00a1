/-
# ApiCatalog.Report.Line -- what is said to a log

A `Line` is one statement: how grave it is, which component says it, the event,
and named data.
-/
import ApiCatalog.Report.Datum

namespace ApiCatalog.Report

set_option autoImplicit false

/-- How grave a line is. -/
inductive Level where
  | debug
  | info
  | warning
  | error
  | critical
deriving DecidableEq, Repr

namespace Level

/-- The name of a level. -/
def name : Level → String
  | .debug => "debug"
  | .info => "info"
  | .warning => "warning"
  | .error => "error"
  | .critical => "critical"

/-- The place of a level on the scale that thresholds use. -/
def rank : Level → Nat
  | .debug => 10
  | .info => 20
  | .warning => 30
  | .error => 40
  | .critical => 50

end Level

/-- One statement to a log. -/
structure Line where
  level : Level
  component : String
  event : String
  fields : List (String × Datum) := []
  /-- Whether the failure that is being handled is shown with the line. -/
  withFailure : Bool := false

end ApiCatalog.Report
