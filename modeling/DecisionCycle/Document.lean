import DecisionCycle.Text.Reader
import DecisionCycle.Value

/-!
Documents in files. The text of a file is handed to a reader of documents, which gives the
value of the document in it or fails. The program does not read documents itself, so the
reader is left open here. A document with values of other kinds than payloads have, such
as sets or bytes, has no value.
-/

namespace DecisionCycle

inductive DocumentFault where
  | malformed
  /-- The reader has come to bytes that are no text. -/
  | undecodable
  /-- Anything else, by the kind of fault as reports name it. -/
  | other (label : String)
  deriving DecidableEq

def DocumentFault.label : DocumentFault → String
  | malformed => "YAMLError"
  | undecodable => "UnicodeDecodeError"
  | other label => label

/-- Reads the document in a text. -/
abbrev DocumentReader := Reader → Except DocumentFault Value

end DecisionCycle
