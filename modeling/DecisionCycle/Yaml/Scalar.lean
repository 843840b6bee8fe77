import DecisionCycle.Text
import DecisionCycle.Text.Digit
import DecisionCycle.Yaml.Fault
import DecisionCycle.Yaml.Place

/-!
The text of YAML scalars: plain, in single quotes, or in double quotes with
escapes. Where a scalar goes over several lines, a single end of line counts as
a space, and of several in a row the first is dropped. No line of a scalar
begins with a document marker.
-/

namespace DecisionCycle.Yaml

def lineEnd (c : Char) : Char :=
  if c == '\u2028' || c == '\u2029' then c else '\n'

def folded : List Char → List Char
  | [] => []
  | ['\n'] => [' ']
  | '\n' :: more => more
  | ends => ends

/-! ### Plain scalars -/

def endsPlain (inFlow : Bool) (c : Char) (rest : List Char) : Bool :=
  isSpacing c ||
    (c == ':' &&
      (spacingAhead rest || (inFlow && rest.head?.any ",[]\x7b\x7d".toList.contains))) ||
    (inFlow && ",?[]\x7b\x7d".toList.contains c)

def plainPart (inFlow : Bool) : List Char → List Char
  | [] => []
  | c :: rest => if endsPlain inFlow c rest then [] else c :: plainPart inFlow rest

def beginsPlain (inFlow : Bool) (c : Char) (rest : List Char) : Bool :=
  if isSpacing c || ",[]\x7b\x7d#&*!|>'\x22%@\x60".toList.contains c then false
  else if c == '-' then !spacingAhead rest
  else if c == '?' || c == ':' then !inFlow && !spacingAhead rest
  else true

/-- The line ends among the spaces and line ends ahead, and what is left after
these; `none` stands for the line ends before a document marker. -/
def gapEnds : List Char → Option (List Char) × List Char
  | [] => (some [], [])
  | c :: rest =>
    if isBreak c then
      if markerAhead rest then (none, rest)
      else
        let (ends, left) := gapEnds rest
        (ends.map (lineEnd c :: ·), left)
    else if c == ' ' then gapEnds rest
    else (some [], c :: rest)

/-- The spacing after a part of a plain scalar: what it stands for if the scalar
goes on, and the place after it. Nothing goes on after a document marker. -/
def plainGap (p : Place) : List Char × Place :=
  let spaces := p.rest.takeWhile (· == ' ')
  let last := p.advance spaces.length
  if last.rest.head?.any isBreak then
    let (ends, left) := gapEnds last.rest
    (folded (ends.getD []), last.atRest left)
  else (spaces, last)

/-- What is read of a plain scalar: its characters, the place after it and the
spacing that follows it, and whether this spacing goes over the end of a line. -/
structure PlainText where
  chars : List Char
  last : Place
  endsLine : Bool

/-- A plain scalar from a place on. It goes on after spacing, unless a comment
follows, or the text is indented by less than `margin` outside brackets. -/
def readPlain (inFlow : Bool) (margin : Nat) : Nat → Place → PlainText
  | 0, p => { chars := [], last := p, endsLine := false }
  | fuel + 1, p =>
    let part := plainPart inFlow p.rest
    let (gap, next) := plainGap (p.advance part.length)
    if gap.isEmpty ∨ next.rest.head? = some '#' ∨ (¬inFlow ∧ next.column < margin) ∨
        plainPart inFlow next.rest = [] then
      { chars := part, last := next, endsLine := p.line != next.line }
    else
      let more := readPlain inFlow margin fuel next
      { more with chars := part ++ gap ++ more.chars }

/-! ### Quoted scalars -/

/-- A piece of a quoted scalar: a code point that counts as it is, spacing that
may be folded, or the escaped end of a line, which joins two lines. -/
inductive Piece where
  | point (p : CodePoint)
  | space (c : Char)
  | lineEnd (c : Char)
  | joint

def Piece.ofChar (c : Char) (rest : List Char) : Except Fault Piece :=
  if isBreak c then
    if markerAhead rest then .error .malformed else .ok (.lineEnd (Yaml.lineEnd c))
  else if isSpacing c then .ok (.space c)
  else .ok (.point (.char c))

/-- The pieces up to the closing single quote, and what follows it. Two quotes
stand for one; `ending` is the fault of a text that ends before the quote. -/
def singleQuoted (ending : Fault) : List Char → Except Fault (List Piece × List Char)
  | [] => .error ending
  | '\x27' :: '\x27' :: rest => do
    let (pieces, left) ← singleQuoted ending rest
    return (.point (.char '\x27') :: pieces, left)
  | '\x27' :: rest => .ok ([], rest)
  | c :: rest => do
    let piece ← Piece.ofChar c rest
    let (pieces, left) ← singleQuoted ending rest
    return (piece :: pieces, left)

def escapeChar? : Char → Option Char
  | '0' => some '\x00'
  | 'a' => some '\x07'
  | 'b' => some '\x08'
  | 't' => some '\t'
  | '\t' => some '\t'
  | 'n' => some '\n'
  | 'v' => some '\x0b'
  | 'f' => some '\x0c'
  | 'r' => some '\r'
  | 'e' => some '\x1b'
  | ' ' => some ' '
  | '\x22' => some '\x22'
  | '/' => some '/'
  | '\x5c' => some '\x5c'
  | 'N' => some '\x85'
  | '_' => some '\xa0'
  | 'L' => some '\u2028'
  | 'P' => some '\u2029'
  | _ => none

def codePoint (digits : List Char) : Except Fault CodePoint :=
  match Text.natural? 16 digits with
  | none => .error .malformed
  | some n =>
    match CodePoint.ofNat? n with
    | some p => .ok p
    | none => .error (if n < Nat.pow 2 31 then .noCodePoint else .codeTooLarge)

def Piece.ofEscape (ending : Fault) (c : Char) (rest : List Char) : Except Fault Piece :=
  if isBreak c then if markerAhead rest then .error .malformed else .ok .joint
  else
    match escapeChar? c with
    | some x => .ok (.point (.char x))
    | none => .error (if "xuU".toList.contains c then ending else .malformed)

def doubleQuoted (ending : Fault) : List Char → Except Fault (List Piece × List Char)
  | [] => .error ending
  | '\x22' :: rest => .ok ([], rest)
  | '\x5c' :: 'x' :: a :: b :: rest => do
    let p ← codePoint [a, b]
    let (pieces, left) ← doubleQuoted ending rest
    return (.point p :: pieces, left)
  | '\x5c' :: 'u' :: a :: b :: c :: d :: rest => do
    let p ← codePoint [a, b, c, d]
    let (pieces, left) ← doubleQuoted ending rest
    return (.point p :: pieces, left)
  | '\x5c' :: 'U' :: a :: b :: c :: d :: e :: f :: g :: h :: rest => do
    let p ← codePoint [a, b, c, d, e, f, g, h]
    let (pieces, left) ← doubleQuoted ending rest
    return (.point p :: pieces, left)
  | '\x5c' :: c :: rest => do
    let piece ← Piece.ofEscape ending c rest
    let (pieces, left) ← doubleQuoted ending rest
    return (piece :: pieces, left)
  | c :: rest => do
    let piece ← Piece.ofChar c rest
    let (pieces, left) ← doubleQuoted ending rest
    return (piece :: pieces, left)

/-- The spacing since the last code point of a quoted scalar. The spaces beside
the end of a line do not count. -/
structure Gap where
  joined : Bool := false
  spaces : List Char := []
  ends : List Char := []

def Gap.points (g : Gap) : List CodePoint :=
  let chars := if g.joined then g.ends else if g.ends.isEmpty then g.spaces else folded g.ends
  chars.map .char

def foldPieces (g : Gap) : List Piece → List CodePoint
  | [] => g.points
  | .space c :: rest =>
      if g.joined || !g.ends.isEmpty then foldPieces g rest
      else foldPieces { g with spaces := g.spaces ++ [c] } rest
  | .lineEnd c :: rest => foldPieces { g with ends := g.ends ++ [c] } rest
  | .joint :: rest => g.points ++ foldPieces { joined := true } rest
  | .point p :: rest => g.points ++ p :: foldPieces {} rest

/-- The text of a quoted scalar and the place after it, given the characters
after the opening quote. -/
def readQuoted (p : Place) (quoted : Except Fault (List Piece × List Char)) :
    Except Fault (Text × Place) := do
  let (pieces, rest) ← quoted
  return (⟨foldPieces {} pieces⟩, p.atRest rest)

end DecisionCycle.Yaml
