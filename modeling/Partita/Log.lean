/-! Log records: a severity, the part of the program that speaks, and a text. -/
namespace Partita

/-- How severe a record is. -/
inductive Severity where
  | debug
  | info
  | warning
  | error
  | critical
  deriving DecidableEq, Repr

namespace Severity

def rank : Severity → Nat
  | debug => 10
  | info => 20
  | warning => 30
  | error => 40
  | critical => 50

def name : Severity → String
  | debug => "DEBUG"
  | info => "INFO"
  | warning => "WARNING"
  | error => "ERROR"
  | critical => "CRITICAL"

end Severity

structure Record where
  severity : Severity
  source : String
  text : String
  deriving DecidableEq, Repr

end Partita
