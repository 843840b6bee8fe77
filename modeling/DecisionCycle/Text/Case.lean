/-!
Letter case, for comparing a text with a keyword in ASCII letters. A letter
whose other case lies outside ASCII is left alone: it cannot make a text equal
to such a keyword, whichever form it has. The letters outside ASCII whose other
case lies inside are few, and are listed.
-/

namespace DecisionCycle.Text

/-- The lower-case form of a character. The Kelvin sign is the only character
outside ASCII with a form inside it. -/
def lowerChar (c : Char) : Char :=
  if c = '\u212a' then 'k' else c.toLower

def lower (s : List Char) : List Char :=
  s.map lowerChar

/-- The upper-case form of a character. Dotless i, long s, sharp s and the Latin
ligatures have forms inside ASCII. -/
def upperChar (c : Char) : List Char :=
  match c.toNat with
  | 0xDF => ['S', 'S']
  | 0x131 => ['I']
  | 0x17F => ['S']
  | 0xFB00 => ['F', 'F']
  | 0xFB01 => ['F', 'I']
  | 0xFB02 => ['F', 'L']
  | 0xFB03 => ['F', 'F', 'I']
  | 0xFB04 => ['F', 'F', 'L']
  | 0xFB05 => ['S', 'T']
  | 0xFB06 => ['S', 'T']
  | _ => [c.toUpper]

def upper (s : List Char) : List Char :=
  s.flatMap upperChar

end DecisionCycle.Text
