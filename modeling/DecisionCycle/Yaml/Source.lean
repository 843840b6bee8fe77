import DecisionCycle.Text.Reader
import DecisionCycle.Yaml.Fault

/-!
The text of a document, as far as it can be read. It is read in blocks, the first
two of them together, and each is gone through when it is read: bytes that are no
text, or a character that may not occur, spoil a whole block. That shows only
when the block is reached, so a fault in the text before it comes first.
-/

namespace DecisionCycle.Yaml

def isAllowed (c : Char) : Bool :=
  let n := c.toNat
  n == 0x9 || n == 0xA || n == 0xD || (0x20 ≤ n && n ≤ 0x7E) || n == 0x85 ||
    (0xA0 ≤ n && n ≤ 0xFFFD) || 0x10000 ≤ n

/-- A text, and the fault that is met at its end if it breaks off there. -/
structure Source where
  text : List Char
  broken : Option Fault := none

namespace Source

/-- What is left to read, `count` blocks at first and then one at a time. -/
def read : Nat → Nat → Reader → Source
  | 0, _, _ => { text := [] }
  | fuel + 1, count, r =>
    match r.takeBlocks count with
    | none => { text := [], broken := some .undecodable }
    | some ([], _) => { text := [] }
    | some (text, r) =>
      if text.all isAllowed then
        let more := read fuel 1 r
        { more with text := text ++ more.text }
      else { text := [], broken := some .malformed }

def ofReader (r : Reader) : Source :=
  read (r.ready.length + r.bytes.length + 1) 2 r

def dropMark (s : Source) : Source :=
  match s.text with
  | '\ufeff' :: text => { s with text }
  | _ => s

end Source

end DecisionCycle.Yaml
