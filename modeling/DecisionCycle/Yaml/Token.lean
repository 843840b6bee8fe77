import DecisionCycle.Text
import DecisionCycle.Yaml.Fault

/-!
The tokens of a YAML document. Blocks, which a document shows by indentation,
have tokens at their beginning and end just as brackets do.
-/

namespace DecisionCycle.Yaml

/-- A scalar: a plain one, which may stand for something else than itself, or
the text of a quoted one. -/
inductive Scalar where
  | plain (s : List Char)
  | quoted (t : Text)
  deriving DecidableEq

inductive Token where
  | documentStart
  | documentEnd
  | blockListStart
  | blockMapStart
  | blockEnd
  | flowListStart
  | flowListEnd
  | flowMapStart
  | flowMapEnd
  | item
  | separator
  | key
  | value
  | scalar (s : Scalar)
  /-- The document cannot be read on from here. -/
  | broken (cause : Fault)
  deriving DecidableEq

end DecisionCycle.Yaml
