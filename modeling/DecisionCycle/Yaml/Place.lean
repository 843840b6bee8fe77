/-!
A place in a YAML document: what is left of the text, how many characters lie
before it, and the line and the column at which it begins. All count from zero.
-/

namespace DecisionCycle.Yaml

def isBreak (c : Char) : Bool :=
  c == '\n' || c == '\r' || c == '\x85' || c == '\u2028' || c == '\u2029'

def isSpacing (c : Char) : Bool :=
  c == ' ' || c == '\t' || isBreak c

def spacingAhead : List Char → Bool
  | [] => true
  | c :: _ => isSpacing c

def tripleAhead (triple : String) (s : List Char) : Bool :=
  s.take 3 == triple.toList && spacingAhead (s.drop 3)

/-- Whether a document marker is ahead, given the rest of a text from the
beginning of a line on. -/
def markerAhead (s : List Char) : Bool :=
  tripleAhead "---" s || tripleAhead "..." s

structure Place where
  rest : List Char
  index : Nat
  line : Nat
  column : Nat

namespace Place

def start (text : List Char) : Place :=
  { rest := text, index := 0, line := 0, column := 0 }

/-- The place after the next character. A byte order mark takes no column. -/
def next (p : Place) : Place :=
  match p.rest with
  | [] => p
  | c :: rest =>
    if isBreak c then { rest, index := p.index + 1, line := p.line + 1, column := 0 }
    else
      { p with rest, index := p.index + 1, column := p.column + if c = '\ufeff' then 0 else 1 }

def advance (p : Place) : Nat → Place
  | 0 => p
  | n + 1 => p.next.advance n

def atRest (p : Place) (rest : List Char) : Place :=
  p.advance (p.rest.length - rest.length)

/-- The place after spaces, comments and ends of lines, which are the beginning
of what is left of the text; `inComment` says whether this begins inside a
comment. -/
def skipFrom (inComment : Bool) : List Char → Place → Place
  | [], p => p
  | c :: rest, p =>
      if isBreak c then skipFrom false rest p.next
      else if inComment || c == ' ' then skipFrom inComment rest p.next
      else if c == '#' then skipFrom true rest p.next
      else p

def skip (p : Place) : Place :=
  skipFrom false p.rest p

end Place

end DecisionCycle.Yaml
