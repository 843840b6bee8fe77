import DecisionCycle.Text.Digit

/-!
The arguments of the command line: options before the command, then the command,
then its file. Help may be asked for at either place. What follows a double dash
is no option.
-/

namespace DecisionCycle.CommandLine

inductive Command where
  | consequences
  | quality
  deriving DecidableEq

def Command.ofName? : String → Option Command
  | "consequences" => some .consequences
  | "dq" => some .quality
  | _ => none

inductive Invocation where
  | run (verbose : Bool) (command : Command) (path : String)
  | help
  | misuse
  deriving DecidableEq

inductive Flag where
  | help
  | verbose
  | unknown
  | malformed
  deriving DecidableEq

def spanDigits (s : List Char) : List Char × List Char :=
  s.span fun c => (Text.digit? c).isSome

def isLineEnd (s : List Char) : Bool :=
  s == [] || s == ['\n']

/-- Whether a text with a leading dash is a negative number. The end of a line
may follow it. -/
def isNegativeNumber (s : List Char) : Bool :=
  match s with
  | '-' :: rest =>
    let (whole, rest) := spanDigits rest
    match rest with
    | '.' :: places =>
        let (digits, rest) := spanDigits places
        !digits.isEmpty && isLineEnd rest
    | _ => !whole.isEmpty && isLineEnd rest
  | _ => false

/-- Letters behind a single dash, each an option of its own: `h`, and `v` where
`verbose` allows it. -/
def letterFlag (verbose : Bool) : List Char → Flag
  | [] => .verbose
  | 'h' :: rest => if letterFlag verbose rest = .malformed then .malformed else .help
  | 'v' :: rest => if verbose then letterFlag verbose rest else .malformed
  | _ => .malformed

/-- Letters behind a single dash, the first of which is an option; an equals sign
may stand after it. -/
def lettersFlag (verbose : Bool) : List Char → Flag
  | c :: '=' :: rest => if rest.isEmpty then .malformed else letterFlag verbose (c :: rest)
  | letters => letterFlag verbose letters

def longFlags (verbose : Bool) : List (List Char × Flag) :=
  ("help".toList, .help) :: (if verbose then [("verbose".toList, .verbose)] else [])

def longFlag (verbose : Bool) (name : List Char) : Flag :=
  let word := name.takeWhile (· != '=')
  match (longFlags verbose).filter fun f => word.isPrefixOf f.1 with
  | [] => .unknown
  | [(_, flag)] => if name.contains '=' then .malformed else flag
  | _ => .malformed

/-- What an argument does as an option; `none` if it is none, as negative
numbers and unknown options with a space are not. -/
def flag? (verbose : Bool) (s : String) : Option Flag :=
  let flag :=
    match s.toList with
    | '-' :: '-' :: name => longFlag verbose name
    | '-' :: c :: rest =>
        if c = 'h' ∨ (verbose ∧ c = 'v') then lettersFlag verbose (c :: rest) else .unknown
    | _ => .unknown
  let isOption :=
    flag ≠ .unknown ∨
      (s.toList.head? = some '-' ∧ s ≠ "-" ∧ ¬isNegativeNumber s.toList ∧
        ' ' ∉ s.toList)
  if isOption then some flag else none

def readCommand (verbose : Bool) (command : Command) (path : Option String)
    (stray dashed : Bool) : List String → Invocation
  | [] =>
    match path with
    | some p => if stray then .misuse else .run verbose command p
    | none => .misuse
  | a :: rest =>
    if a = "--" ∧ ¬dashed then readCommand verbose command path stray true rest
    else
      match if dashed then none else flag? false a with
      | some .help => .help
      | some .malformed => .misuse
      | some _ => readCommand verbose command path true dashed rest
      | none =>
        match path with
        | none => readCommand verbose command (some a) stray dashed rest
        | some _ => readCommand verbose command path true dashed rest

def readOptions (verbose stray : Bool) : List String → Invocation
  | [] => .misuse
  | a :: rest =>
    if a = "--" then .misuse
    else
      match flag? true a with
      | some .help => .help
      | some .malformed => .misuse
      | some .verbose => readOptions true stray rest
      | some .unknown => readOptions verbose true rest
      | none =>
        match Command.ofName? a with
        | some command => readCommand verbose command none stray false rest
        | none => .misuse

/-- Whether an argument names no option, but gives it a value. It might be any
option, and is refused before anything else is looked at. -/
def isNameless (s : String) : Bool :=
  match s.toList with
  | '-' :: '-' :: '=' :: _ => true
  | _ => false

def Invocation.ofArguments (args : List String) : Invocation :=
  if (args.takeWhile (· != "--")).any isNameless then .misuse
  else readOptions false false args

end DecisionCycle.CommandLine
