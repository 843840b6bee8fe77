import DecisionCycle.Yaml.Node
import DecisionCycle.Yaml.Plain

/-!
A reader of YAML documents for the executable. It knows the part of the language that
JSON, block and flow collections and one-line scalars make up; block scalars, anchors,
aliases, tags and directives are malformed for it.

Keys are scalars, and a later entry with the key of
an earlier one replaces its value. Under the key `<<` a mapping takes over the
entries of another mapping, or of several, wherever it has none of its own.

Of several faults in the values of a document the one nearest to its root counts,
and among those the first: a list or a mapping is gone through before any of
those within it are.
-/

namespace DecisionCycle.Yaml

namespace Node

/-! ### Entries taken over -/

def entries? : Node → Option (List (Node × Node))
  | .map entries => some entries
  | _ => none

/-- The entries that a value under `<<` gives: those of a mapping, or those of
several, the later ones first. -/
def givenEntries? : Node → Option (List (Node × Node))
  | .map entries => some entries
  | .list items => (items.mapM entries?).map fun given => given.reverse.flatten
  | .scalar _ => none

def isTakeover : Node → Bool
  | .scalar s => s == .plain takeoverWord
  | _ => false

/-- The entries of a mapping after those that it takes over. What gives no
entries stays under its key. -/
def withTaken (entries : List (Node × Node)) : List (Node × Node) :=
  let given? (e : Node × Node) : Option (List (Node × Node)) :=
    if e.1.isTakeover then givenEntries? e.2 else none
  (entries.filterMap given?).flatten ++ entries.filter fun e => (given? e).isNone

mutual

def merged : Node → Node
  | .scalar s => .scalar s
  | .list items => .list (mergedItems items)
  | .map entries => .map (withTaken (mergedEntries entries))

def mergedItems : List Node → List Node
  | [] => []
  | n :: rest => n.merged :: mergedItems rest

def mergedEntries : List (Node × Node) → List (Node × Node)
  | [] => []
  | (k, v) :: rest => (k.merged, v.merged) :: mergedEntries rest

end

/-! ### Faults -/

def scalarValue : Scalar → Except Fault Value
  | .quoted t => .ok (.str t)
  | .plain s => plainValue s

/-- The value of a scalar as a key. The word for a value is a text there. -/
def keyValue (s : Scalar) : Except Fault Value :=
  if s = .plain valueWord then .ok (.str (Text.ofChars valueWord)) else scalarValue s

def checkScalar : Node → Except Fault Unit
  | .scalar s => (scalarValue s).map fun _ => ()
  | _ => .ok ()

def checkEntry (e : Node × Node) : Except Fault Unit := do
  match e.1 with
  | .scalar s => discard (keyValue s)
  | _ => .error .malformed
  e.2.checkScalar

/-- Looks at a node, apart from the lists and mappings within it: these are left
to be looked at. -/
def check : Node → Except Fault (List Node)
  | .scalar s => (scalarValue s).map fun _ => []
  | .list items => do
    items.forM checkScalar
    return items
  | .map entries => do
    if entries.any (·.1.isTakeover) then .error .malformed
    entries.forM checkEntry
    return entries.map Prod.snd

/-- Looks at nodes, and then at what is within them, as far as `depth` goes. -/
def checkAll : Nat → List Node → Except Fault Unit
  | 0, _ => .ok ()
  | depth + 1, nodes => do
    let within ← nodes.mapM check
    if nodes.isEmpty then .ok () else checkAll depth within.flatten

/-! ### Values -/

mutual

def value : Node → Value
  | .scalar s => (scalarValue s).toOption.getD .null
  | .list items => .list (values items)
  | .map entries => .dict (setEntries [] entries)

def values : List Node → List Value
  | [] => []
  | n :: rest => n.value :: values rest

def setEntries (done : List (Value × Value)) : List (Node × Node) → List (Value × Value)
  | [] => done
  | (.scalar s, v) :: rest =>
      let key := (keyValue s).toOption.getD .null
      setEntries (Value.setEntry key v.value done) rest
  | _ :: rest => setEntries done rest

end

end Node

/-- The value of a document; an empty one is nothing. -/
def readDocument (s : Source) : Except Fault Value := do
  match ← Node.ofTokens (.ofSource s.dropMark) with
  | none => return .null
  | some node =>
    let node := node.merged
    Node.checkAll (Node.nestingLimit + 1) [node]
    return node.value

def read : DocumentReader := fun r =>
  (readDocument (.ofReader r)).mapError Fault.toDocument

end DecisionCycle.Yaml
