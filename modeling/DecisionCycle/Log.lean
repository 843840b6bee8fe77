import DecisionCycle.Text

/-!
Log records: a level of severity and a message.
-/

namespace DecisionCycle

inductive Level where
  | debug
  | info
  | warning
  | error
  | critical
  deriving DecidableEq, Inhabited

namespace Level

def all : List Level :=
  [debug, info, warning, error, critical]

def name : Level → String
  | debug => "DEBUG"
  | info => "INFO"
  | warning => "WARNING"
  | error => "ERROR"
  | critical => "CRITICAL"

def severity : Level → Nat
  | debug => 0
  | info => 1
  | warning => 2
  | error => 3
  | critical => 4

def ofName? (s : List Char) : Option Level :=
  all.find? fun l => l.name.toList == s

end Level

structure LogRecord where
  level : Level
  message : Text
  deriving DecidableEq

/-- The records that are at least as severe as a level. -/
def LogRecord.passing (threshold : Level) (records : List LogRecord) : List LogRecord :=
  records.filter fun r => threshold.severity ≤ r.level.severity

end DecisionCycle
