/-!
Paths: rows of names that lead from the root or from the current directory. Empty
names and single dots are left out; two dots are a name like any other.
-/

namespace DecisionCycle

/-- A path. It begins with one slash or two at the root, and without a slash in
the current directory. -/
structure Path where
  slashes : Nat
  names : List String
  deriving DecidableEq

namespace Path

def parts : List Char → List (List Char)
  | [] => [[]]
  | c :: rest =>
    if c = '/' then [] :: parts rest
    else
      match parts rest with
      | [] => [[c]]
      | part :: more => (c :: part) :: more

/-- The path that a text writes. More than two slashes at its beginning count as
one. -/
def ofString (s : String) : Path :=
  let slashes := (s.toList.takeWhile (· == '/')).length
  let names := (parts s.toList).filter fun part => part ≠ [] ∧ part ≠ ['.']
  { slashes := if slashes ≤ 2 then slashes else 1, names := names.map String.ofList }

def text (p : Path) : String :=
  if p.slashes = 0 ∧ p.names.isEmpty then "."
  else String.ofList (List.replicate p.slashes '/') ++ "/".intercalate p.names

def start (p : Path) : Path :=
  { p with names := [] }

def child (p : Path) (name : String) : Path :=
  { p with names := p.names ++ [name] }

/-- The path to every place on the way, from its start on. -/
def stages (p : Path) : List Path :=
  (List.range (p.names.length + 1)).map fun n => { p with names := p.names.take n }

end Path

end DecisionCycle
