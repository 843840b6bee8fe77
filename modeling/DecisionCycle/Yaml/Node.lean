import DecisionCycle.Yaml.TokenRow

/-!
The nodes of a document: scalars, lists and mappings, before it is known what
plain scalars stand for. A document is one node; a place without a node counts as
an empty plain scalar.

The readers recurse on fuel. Of four that call one another at least one takes a
token, so a little more than four times the number of tokens is enough.
-/

namespace DecisionCycle.Yaml

inductive Node where
  | scalar (s : Scalar)
  | list (items : List Node)
  | map (entries : List (Node × Node))
  deriving Inhabited

namespace Node

def empty : Node :=
  .scalar (.plain [])

/-- How many nodes may lie within each other. -/
def nestingLimit : Nat := 488

/-- Where a node stands: between brackets, in a block, or behind a key or its
colon in a block, where the items of a list need no block of their own. -/
inductive Position where
  | inFlow
  | inBlock
  | inEntry
  deriving DecidableEq

def refuse {α : Type} : TokenRow → Except Fault α
  | .broken cause :: _ => .error cause
  | _ => .error .malformed

def ahead (tokens : List Token) (row : TokenRow) : Bool :=
  row.head?.any tokens.contains

def blockStops : List Token :=
  [.key, .value, .blockEnd]

def afterSeparator (first : Bool) (row : TokenRow) : Except Fault TokenRow :=
  if first then .ok row
  else
    match row with
    | .separator :: rest => .ok rest
    | _ => refuse row

mutual

/-- The node at the beginning of a row; `room` says how many nodes may lie within
each other from here on. -/
def read : Nat → Nat → Position → TokenRow → Except Fault (Node × TokenRow)
  | 0, _, _, row => refuse row
  | _, 0, _, _ => .error .tooDeep
  | fuel + 1, room + 1, position, row =>
    match row with
    | .scalar s :: rest => .ok (.scalar s, rest)
    | .flowListStart :: rest => readFlowItems fuel room true [] rest
    | .flowMapStart :: rest => readFlowEntries fuel room true [] rest
    | .blockListStart :: rest =>
        if position = .inFlow then refuse row else readItems fuel room [] rest
    | .blockMapStart :: rest =>
        if position = .inFlow then refuse row else readEntries fuel room [] rest
    | .item :: _ =>
        if position = .inEntry then readBareItems fuel room [] row else refuse row
    | _ => refuse row

/-- The node at the beginning of a row, if none of the tokens is there that end
its place. -/
def readPart : Nat → Nat → Position → List Token → TokenRow →
    Except Fault (Node × TokenRow)
  | 0, _, _, _, row => refuse row
  | fuel + 1, room, position, stops, row =>
    if ahead stops row then .ok (empty, row) else read fuel room position row

def readEntry : Nat → Nat → Position → List Token → TokenRow →
    Except Fault ((Node × Node) × TokenRow)
  | 0, _, _, _, row => refuse row
  | fuel + 1, room, position, stops, row => do
    let (key, row) ← readPart fuel room position (.value :: stops) row
    match row with
    | .value :: rest =>
      let (value, row) ← readPart fuel room position stops rest
      return ((key, value), row)
    | _ => return ((key, empty), row)

def readItems : Nat → Nat → List Node → TokenRow → Except Fault (Node × TokenRow)
  | 0, _, _, row => refuse row
  | fuel + 1, room, items, row =>
    match row with
    | .item :: rest => do
      let (item, row) ← readPart fuel room .inBlock [.item, .blockEnd] rest
      readItems fuel room (item :: items) row
    | .blockEnd :: rest => .ok (.list items.reverse, rest)
    | _ => refuse row

def readBareItems : Nat → Nat → List Node → TokenRow → Except Fault (Node × TokenRow)
  | 0, _, _, row => refuse row
  | fuel + 1, room, items, row =>
    match row with
    | .item :: rest => do
      let (item, row) ← readPart fuel room .inBlock (.item :: blockStops) rest
      readBareItems fuel room (item :: items) row
    | _ => .ok (.list items.reverse, row)

def readEntries : Nat → Nat → List (Node × Node) → TokenRow →
    Except Fault (Node × TokenRow)
  | 0, _, _, row => refuse row
  | fuel + 1, room, entries, row =>
    match row with
    | .key :: rest => do
      let (entry, row) ← readEntry fuel room .inEntry blockStops rest
      readEntries fuel room (entry :: entries) row
    | .blockEnd :: rest => .ok (.map entries.reverse, rest)
    | _ => refuse row

/-- The items of a list in brackets, after those read so far in reverse. An item
with a key is a mapping of one entry. -/
def readFlowItems : Nat → Nat → Bool → List Node → TokenRow →
    Except Fault (Node × TokenRow)
  | 0, _, _, _, row => refuse row
  | fuel + 1, room, first, items, row =>
    if ahead [.flowListEnd] row then .ok (.list items.reverse, row.tail)
    else do
      let row ← afterSeparator first row
      match row with
      | .flowListEnd :: rest => return (.list items.reverse, rest)
      | .key :: rest =>
        if room = 0 then .error .tooDeep
        else
          let (entry, row) ←
            readEntry fuel (room - 1) .inFlow [.separator, .flowListEnd] rest
          readFlowItems fuel room false (.map [entry] :: items) row
      | _ =>
        let (item, row) ← read fuel room .inFlow row
        readFlowItems fuel room false (item :: items) row

/-- The entries of a mapping in brackets, after those read so far in reverse. A
node without the mark of a key is a key without a value. -/
def readFlowEntries : Nat → Nat → Bool → List (Node × Node) → TokenRow →
    Except Fault (Node × TokenRow)
  | 0, _, _, _, row => refuse row
  | fuel + 1, room, first, entries, row =>
    if ahead [.flowMapEnd] row then .ok (.map entries.reverse, row.tail)
    else do
      let row ← afterSeparator first row
      match row with
      | .flowMapEnd :: rest => return (.map entries.reverse, rest)
      | .key :: rest =>
        let (entry, row) ← readEntry fuel room .inFlow [.separator, .flowMapEnd] rest
        readFlowEntries fuel room false (entry :: entries) row
      | _ =>
        let (key, row) ← read fuel room .inFlow row
        readFlowEntries fuel room false ((key, empty) :: entries) row

end

def readWhole (row : TokenRow) : Except Fault (Node × TokenRow) :=
  read (4 * row.length + 4) nestingLimit .inBlock row

/-- The node of a row that holds one document, or none if it holds no document.
The document may stand between markers. -/
def ofTokens (row : TokenRow) : Except Fault (Option Node) :=
  match row with
  | [] => .ok none
  | .documentStart :: rest =>
    if rest.isEmpty ∨ ahead [.documentStart, .documentEnd] rest then atEnd empty rest
    else do
      let (node, left) ← readWhole rest
      atEnd node left
  | _ => do
    let (node, left) ← readWhole row
    atEnd node left
where
  atEnd (node : Node) (left : TokenRow) : Except Fault (Option Node) :=
    match left.dropWhile (· == .documentEnd) with
    | [] => .ok (some node)
    | row => refuse row

end Node

end DecisionCycle.Yaml
