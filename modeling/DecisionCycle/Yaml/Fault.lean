import DecisionCycle.Document

/-!
What can be wrong with a YAML document.
-/

namespace DecisionCycle.Yaml

inductive Fault where
  /-- The text is not one document with values that are known. -/
  | malformed
  | noCodePoint
  | codeTooLarge
  | noNumber
  /-- A number to the base of sixty with more places than can be counted. -/
  | tooManyPlaces
  | noTimestamp
  | tooDeep
  | undecodable
  deriving DecidableEq

def Fault.toDocument : Fault → DocumentFault
  | malformed => .malformed
  | noCodePoint => .other "ValueError"
  | codeTooLarge => .other "OverflowError"
  | noNumber => .other "ValueError"
  | tooManyPlaces => .other "OverflowError"
  | noTimestamp => .other "ValueError"
  | tooDeep => .other "RecursionError"
  | undecodable => .undecodable

end DecisionCycle.Yaml
