import DecisionCycle.Payload

/-!
Values as JSON text over several lines: two spaces for each level, entries in
order, and every code point outside printable ASCII by its UTF-16 codes. Empty
lists and mappings take no line of their own.
-/

namespace DecisionCycle.Json

/-- A UTF-16 code as an escape. -/
def escapedUnit (n : Nat) : List Char :=
  '\x5c' :: 'u' :: Text.hexDigits 4 n

def escaped (p : CodePoint) : List Char :=
  let n := p.toNat
  match p with
  | .half _ => escapedUnit n
  | .char '\x22' => ['\x5c', '\x22']
  | .char '\x5c' => ['\x5c', '\x5c']
  | .char '\n' => ['\x5c', 'n']
  | .char '\r' => ['\x5c', 'r']
  | .char '\t' => ['\x5c', 't']
  | .char '\x08' => ['\x5c', 'b']
  | .char '\x0c' => ['\x5c', 'f']
  | .char c =>
    if 0x20 ≤ n ∧ n ≤ 0x7E then [c]
    else if n < 0x10000 then escapedUnit n
    else
      let rest := n - 0x10000
      escapedUnit (0xD800 + rest / 0x400) ++ escapedUnit (0xDC00 + rest % 0x400)

def string (t : Text) : String :=
  String.ofList ('\x22' :: (t.points.flatMap escaped ++ ['\x22']))

/-- A number with a fractional part; the words for infinities and for what is
not a number are no JSON, but are written all the same. -/
def number : Number → String
  | .nan => "NaN"
  | .infinite false => "Infinity"
  | .infinite true => "-Infinity"
  | x => x.text

def bool (b : Bool) : String :=
  if b then "true" else "false"

def integer (n : Int) : Except PayloadFault String :=
  if Value.isWritableInt n then .ok (toString n) else .error .tooManyDigits

def keyText : Value → Except PayloadFault Text
  | .str s => .ok s
  | .null => .ok "null"
  | .bool b => .ok (bool b)
  | .int n => (integer n).map Text.ofString
  | .float x => .ok (number x)
  | _ => .error .notWritable

def newLine (depth : Nat) : String :=
  String.ofList ('\n' :: List.replicate (2 * depth) ' ')

/-- Parts between brackets, each on a line of its own. -/
def enclosed (opening closing : String) (depth : Nat) (parts : List String) : String :=
  if parts.isEmpty then opening ++ closing
  else
    opening ++ newLine (depth + 1) ++ ("," ++ newLine (depth + 1)).intercalate parts ++
      newLine depth ++ closing

mutual

def render (depth : Nat) : Value → Except PayloadFault String
  | .null => .ok "null"
  | .bool b => .ok (bool b)
  | .int n => integer n
  | .float x => .ok (number x)
  | .str s => .ok (string s)
  | .list items => do
    return enclosed "[" "]" depth (← renderItems (depth + 1) items)
  | .dict entries => do
    return enclosed "\x7b" "\x7d" depth (← renderEntries (depth + 1) entries)
  | .date _ => .error .notWritable
  | .time _ => .error .notWritable

def renderItems (depth : Nat) : List Value → Except PayloadFault (List String)
  | [] => .ok []
  | v :: rest => do
    let item ← render depth v
    return item :: (← renderItems depth rest)

def renderEntries (depth : Nat) : List (Value × Value) → Except PayloadFault (List String)
  | [] => .ok []
  | (k, v) :: rest => do
    let entry := string (← keyText k) ++ ": " ++ (← render depth v)
    return entry :: (← renderEntries depth rest)

end

def text (v : Value) : Except PayloadFault String :=
  render 0 v

end DecisionCycle.Json
