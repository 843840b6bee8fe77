import DecisionCycle.Yaml.Scalar
import DecisionCycle.Yaml.Source
import DecisionCycle.Yaml.Token

/-!
The row of tokens of a document.

Two things in it depend on what comes later. The beginning of a block shows only
in the indentation, and its end only in that of a later line. And a key without
its own mark is recognised by the colon behind it: the token that a key may begin
with is remembered, and if a colon follows on the same line, soon enough, the
tokens for the key and for the block that it opens are put before it.

Where a document cannot be read on, the row ends with the fault, after those
tokens before which nothing more could have been put. There are no anchors,
tags, directives or block scalars.
-/

namespace DecisionCycle.Yaml

abbrev TokenRow := List Token

/-- A place where a key may have begun: how many tokens and how many brackets
are open before it, and whether a colon must follow it. -/
structure KeyStart where
  position : Nat
  depth : Nat
  required : Bool
  place : Place

/-- How far a document has been read: the place, the tokens so far with the
latest one first, the least column that belongs to the innermost block and to
the blocks around it, the number of open brackets, whether a key may begin here,
and where keys may have begun; and the fault with which the text breaks off, if
it does. -/
structure Reading where
  place : Place
  tokens : List Token := []
  margin : Nat := 0
  outer : List Nat := []
  depth : Nat := 0
  keyAllowed : Bool := true
  keyStarts : List KeyStart := []
  broken : Option Fault := none

namespace Reading

/-! ### Tokens and keys -/

def emit (r : Reading) (t : Token) : Reading :=
  { r with tokens := t :: r.tokens }

def insertAt (r : Reading) (position : Nat) (t : Token) : Reading :=
  let later := r.tokens.length - position
  { r with tokens := r.tokens.take later ++ t :: r.tokens.drop later }

def advance (r : Reading) (n : Nat) : Reading :=
  { r with place := r.place.advance n }

def allowKey (r : Reading) (allowed : Bool) : Reading :=
  { r with keyAllowed := allowed }

/-- Whether no key can have begun at a place any more: keys lie on one line, and
the colon follows within 1024 characters. -/
def isStale (r : Reading) (k : KeyStart) : Bool :=
  k.place.line != r.place.line || k.place.index + 1024 < r.place.index

def dropKeys (r : Reading) (gone : KeyStart → Bool) : Except Fault Reading :=
  if r.keyStarts.any fun k => gone k && k.required then .error .malformed
  else .ok { r with keyStarts := r.keyStarts.filter (!gone ·) }

def dropStale (r : Reading) : Except Fault Reading :=
  r.dropKeys r.isStale

def dropKey (r : Reading) : Except Fault Reading :=
  r.dropKeys (·.depth == r.depth)

def markKey (r : Reading) : Except Fault Reading :=
  if r.keyAllowed then do
    let required := r.depth == 0 && r.margin == r.place.column + 1
    let r ← r.dropKey
    let start : KeyStart :=
      { position := r.tokens.length, depth := r.depth, required, place := r.place }
    return { r with keyStarts := start :: r.keyStarts }
  else .ok r

/-! ### Blocks -/

def closeTo (column : Option Nat) : List Nat → Reading → Reading
  | [], r => r
  | margin :: outer, r =>
      if r.margin = 0 ∨ column.any fun c => r.margin ≤ c + 1 then r
      else closeTo column outer ({ r with margin, outer }.emit .blockEnd)

/-- Closes the blocks to the right of a column, or all of them. Brackets keep
them open. -/
def closeBlocks (r : Reading) (column : Option Nat) : Reading :=
  if r.depth = 0 then closeTo column r.outer r else r

/-- Opens a block at a column, unless one is open there, with a token in a
position. -/
def openBlock (r : Reading) (column position : Nat) (t : Token) : Reading :=
  if r.margin ≤ column then
    { r with margin := column + 1, outer := r.margin :: r.outer }.insertAt position t
  else r

/-- Opens a block here, outside brackets. A line that already has something else
on it cannot begin one. -/
def openBlockHere (r : Reading) (t : Token) : Except Fault Reading :=
  if r.depth ≠ 0 then .ok r
  else if r.keyAllowed then .ok (r.openBlock r.place.column r.tokens.length t)
  else .error .malformed

/-! ### Steps -/

/-- Passes spaces, comments and ends of lines. At the beginning of a line outside
brackets a key may begin. -/
def skip (r : Reading) : Reading :=
  let place := r.place.skip
  let lineBegins := r.depth == 0 && r.place.line != place.line
  { r with place, keyAllowed := r.keyAllowed || lineBegins }

def readMarker (r : Reading) (t : Token) : Except Fault Reading := do
  let r ← (r.closeBlocks none).dropKey
  return ((r.allowKey false).emit t).advance 3

def endFault (r : Reading) : Fault :=
  r.broken.getD .malformed

def unbroken (r : Reading) : Except Fault Reading :=
  match r.place.rest, r.broken with
  | [], some cause => .error cause
  | _, _ => .ok r

def readOpening (r : Reading) (t : Token) : Except Fault Reading := do
  let r ← r.markKey
  return (({ r with depth := r.depth + 1 }.allowKey true).emit t).advance 1

def readClosing (r : Reading) (t : Token) : Except Fault Reading := do
  let r ← r.dropKey
  return (({ r with depth := r.depth - 1 }.allowKey false).emit t).advance 1

def readSeparator (r : Reading) : Except Fault Reading := do
  let r ← r.dropKey
  return ((r.allowKey true).emit .separator).advance 1

def readItem (r : Reading) : Except Fault Reading := do
  let r ← (← r.openBlockHere .blockListStart).dropKey
  return ((r.allowKey true).emit .item).advance 1

def readKey (r : Reading) : Except Fault Reading := do
  let r ← (← r.openBlockHere .blockMapStart).dropKey
  return ((r.allowKey (r.depth == 0)).emit .key).advance 1

/-- Reads the colon before a value. It makes a key of what may have been one. -/
def readValue (r : Reading) : Except Fault Reading := do
  let r ←
    match r.keyStarts.find? (·.depth == r.depth) with
    | some k =>
      let r := { r with keyStarts := r.keyStarts.filter (·.depth != r.depth) }
      let r := r.insertAt k.position .key
      let r := if r.depth = 0 then r.openBlock k.place.column k.position .blockMapStart else r
      pure (r.allowKey false)
    | none => do
      let r ← (← r.openBlockHere .blockMapStart).dropKey
      pure (r.allowKey (r.depth == 0))
  return (r.emit .value).advance 1

def readQuoted (r : Reading) (quoted : Except Fault (List Piece × List Char)) :
    Except Fault Reading := do
  let r ← r.markKey
  let (text, place) ← Yaml.readQuoted r.place quoted
  return { (r.allowKey false).emit (.scalar (.quoted text)) with place }

def readPlain (r : Reading) : Except Fault Reading := do
  let r ← r.markKey
  let text := Yaml.readPlain (r.depth != 0) r.margin r.place.rest.length r.place
  return { (r.allowKey text.endsLine).emit (.scalar (.plain text.chars)) with place := text.last }

def readAt (r : Reading) (c : Char) (rest : List Char) : Except Fault Reading :=
  let inFlow := r.depth != 0
  let standsAlone := spacingAhead rest
  if r.place.column = 0 ∧ tripleAhead "---" (c :: rest) then r.readMarker .documentStart
  else if r.place.column = 0 ∧ tripleAhead "..." (c :: rest) then r.readMarker .documentEnd
  else
    match c with
    | '[' => r.readOpening .flowListStart
    | '\x7b' => r.readOpening .flowMapStart
    | ']' => r.readClosing .flowListEnd
    | '\x7d' => r.readClosing .flowMapEnd
    | ',' => r.readSeparator
    | '\x27' => r.readQuoted (singleQuoted r.endFault rest)
    | '\x22' => r.readQuoted (doubleQuoted r.endFault rest)
    | _ =>
      if c = '-' ∧ standsAlone then r.readItem
      else if c = '?' ∧ (inFlow ∨ standsAlone) then r.readKey
      else if c = ':' ∧ (inFlow ∨ standsAlone) then r.readValue
      else if beginsPlain inFlow c rest then r.readPlain
      else .error .malformed

def settled (r : Reading) : List Token :=
  let count := r.keyStarts.foldl (fun n k => min n k.position) r.tokens.length
  r.tokens.reverse.take count

def brokenBy (r : Reading) (cause : Fault) : TokenRow :=
  r.settled ++ [.broken cause]

def step (r : Reading) : Except Fault (Option Reading) := do
  let r ← (← r.skip.unbroken).dropStale
  let r := r.closeBlocks (some r.place.column)
  match r.place.rest with
  | [] => return none
  | c :: rest => return some (← (← r.readAt c rest).unbroken)

def finish (r : Reading) : TokenRow :=
  let r := r.closeBlocks none
  match r.dropKey with
  | .ok r => r.tokens.reverse
  | .error cause => r.brokenBy cause

def complete : Nat → Reading → TokenRow
  | 0, r => r.finish
  | fuel + 1, r =>
    match r.dropStale with
    | .error cause => r.brokenBy cause
    | .ok r =>
      match r.step with
      | .error cause => r.brokenBy cause
      | .ok none => r.finish
      | .ok (some next) => complete fuel next

end Reading

/-- The tokens of a text. Each step takes at least one character. -/
def TokenRow.ofSource (s : Source) : TokenRow :=
  Reading.complete (s.text.length + 1) { place := .start s.text, broken := s.broken }

end DecisionCycle.Yaml
