import DecisionCycle.Text

/-!
Blank characters and trimming. The blanks are those of the Unicode properties
for white space and for separation of paragraphs and segments, so the four
information separators count and the zero-width space does not.
-/

namespace DecisionCycle.Text

def isBlank (c : Char) : Bool :=
  let n := c.toNat
  (0x09 ≤ n && n ≤ 0x0D) || (0x1C ≤ n && n ≤ 0x20) || n == 0x85 || n == 0xA0 ||
    n == 0x1680 || (0x2000 ≤ n && n ≤ 0x200A) || n == 0x2028 || n == 0x2029 ||
    n == 0x202F || n == 0x205F || n == 0x3000

def trimStart (s : List Char) : List Char :=
  s.dropWhile isBlank

def trimEnd (s : List Char) : List Char :=
  (s.reverse.dropWhile isBlank).reverse

def trim (s : List Char) : List Char :=
  trimEnd (trimStart s)

/-- Whether a code point is white space. Half of a surrogate pair never is. -/
def isBlankPoint (p : CodePoint) : Bool :=
  p.char?.any isBlank

def trimmed (t : Text) : Text :=
  ⟨((t.points.dropWhile isBlankPoint).reverse.dropWhile isBlankPoint).reverse⟩

theorem trimmed_ofChars (s : List Char) : (ofChars s).trimmed = ofChars (trim s) := by
  have hblank : isBlankPoint ∘ CodePoint.char = isBlank := rfl
  simp [trimmed, ofChars, trim, trimStart, trimEnd, List.dropWhile_map, ← List.map_reverse, hblank]

end DecisionCycle.Text
