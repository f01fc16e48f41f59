-- SUMMARY: Log records, and how those that are severe enough are shown.

namespace Drama

/-- How severe a log record is, in ascending order. -/
inductive Severity
  | debug
  | info
  | warning
  | critical
deriving DecidableEq

namespace Severity

def rank : Severity → Nat
  | .debug => 10
  | .info => 20
  | .warning => 30
  | .critical => 50

def name : Severity → String
  | .debug => "DEBUG"
  | .info => "INFO"
  | .warning => "WARNING"
  | .critical => "CRITICAL"

end Severity

structure LogRecord where
  severity : Severity
  source : String
  message : String
deriving DecidableEq

/-- The text of a record that reaches the threshold. Before a threshold is set warnings are shown, and
only their messages. -/
def LogRecord.shown? (threshold : Option Severity) (r : LogRecord) : Option String :=
  match threshold with
  | none => if Severity.warning.rank ≤ r.severity.rank then some r.message else none
  | some level =>
    if level.rank ≤ r.severity.rank then some s!"{r.severity.name}:{r.source}:{r.message}" else none

end Drama
