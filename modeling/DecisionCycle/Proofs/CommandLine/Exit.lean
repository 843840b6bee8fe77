import DecisionCycle.CommandLine.Program
import DecisionCycle.Proofs.Payload
import DecisionCycle.Yaml.Document
import Mathlib.Tactic

/-!
How the program ends on a file. Nothing that is wrong with the file gets past it. Either
there is a report on what is in the file, and it is printed and nothing else; or there is
not, and one line says why. The exit code tells which. Of the reader of documents nothing
is assumed: for every text it gives a value or a fault.
-/

namespace DecisionCycle.CommandLine

variable {reader : DocumentReader} {command : Command} {file : Except FileFault ByteArray}
  {payload report : Value} {text reason : String}

/-! ### What there is to say about a file -/

/-- The items that a payload lists: its own, or those under `elements`. -/
inductive Lists : Value → List Value → Prop where
  | bare (items : List Value) : Lists (.list items) items
  | named {entries : List (Value × Value)} {items : List Value}
      (h : Value.lookup? "elements" entries = some (.list items)) : Lists (.dict entries) items

/-- The report on the matrix, or on the elements, that a payload holds. -/
inductive Reports : Command → Value → Value → Prop where
  | matrix {entries : List (Value × Value)} {m : Matrix}
      (h : Matrix.ofPayload (.dict entries) = .ok m) :
      Reports .consequences (.dict entries) (ConsequencesReport.ofMatrix m).toPayload
  | elements {payload : Value} {items : List Value} {elements : List Element}
      (h : Lists payload items)
      (helements : List.Forall₂ (fun v e => Element.ofPayload v = .ok e) items elements) :
      Reports .quality payload (QualityReport.ofElements elements).toPayload

/-- Why there is no report on a payload: it has another shape, or the matrix, or one of the
elements and none before it, cannot be read. -/
inductive Refuses : Command → Value → String → Prop where
  | noMapping {payload : Value} (h : ∀ entries, payload ≠ .dict entries) :
      Refuses .consequences payload "matrix file must contain a mapping"
  | matrix {entries : List (Value × Value)} {fault : PayloadFault}
      (h : Matrix.ofPayload (.dict entries) = .error fault) :
      Refuses .consequences (.dict entries) (Fault.payload fault).text
  | noList {payload : Value} (h : ∀ items, ¬Lists payload items) :
      Refuses .quality payload "DQ file must contain a list of elements"
  | element {payload v : Value} {before after : List Value} {fault : PayloadFault}
      (h : Lists payload (before ++ v :: after))
      (hbefore : ∀ item ∈ before, ∃ e, Element.ofPayload item = .ok e)
      (hv : Element.ofPayload v = .error fault) :
      Refuses .quality payload (Fault.payload fault).text

/-- There is a payload in the file and a report on it, and this is its text. -/
inductive HasReport (reader : DocumentReader) (command : Command)
    (file : Except FileFault ByteArray) : String → Prop where
  | intro {payload report : Value} {text : String}
      (hpayload : readPayload reader file = .ok payload) (hreport : Reports command payload report)
      (htext : Json.text report = .ok text) :
      HasReport reader command file text

/-- What is wrong with a file, or with the report on it. -/
inductive HasFault (reader : DocumentReader) (command : Command)
    (file : Except FileFault ByteArray) : String → Prop where
  | file {fault : Fault} (h : readPayload reader file = .error fault) :
      HasFault reader command file fault.text
  | payload {payload : Value} {reason : String} (hpayload : readPayload reader file = .ok payload)
      (h : Refuses command payload reason) : HasFault reader command file reason
  | report {payload report : Value} {fault : PayloadFault}
      (hpayload : readPayload reader file = .ok payload) (hreport : Reports command payload report)
      (htext : Json.text report = .error fault) :
      HasFault reader command file (Fault.payload fault).text

namespace Result

variable {r : Result}

structure Prints (r : Result) (text : String) : Prop where
  exitCode : r.exitCode = 0
  output : r.output = text ++ "\n"
  errors : r.errors = ""

structure Complains (r : Result) (reason : String) : Prop where
  exitCode : r.exitCode = 1
  output : r.output = ""
  errors : r.errors = "Error: " ++ reason ++ "\n"

end Result

structure Result.EndsBy (r : Result) (reader : DocumentReader) (command : Command)
    (file : Except FileFault ByteArray) : Prop where
  code : r.exitCode = 0 ∨ r.exitCode = 1
  zero_iff : r.exitCode = 0 ↔ ∃ text, HasReport reader command file text
  prints_iff {text : String} : r.Prints text ↔ HasReport reader command file text
  complains_iff {reason : String} : r.Complains reason ↔ HasFault reader command file reason
  either : (∃ text, r.Prints text) ∨ ∃ reason, r.Complains reason

end DecisionCycle.CommandLine
