import DecisionCycle.Text

/-!
UTF-8, read one byte after the other. A character takes one to four bytes. The
first of them says how many follow, and the range of the second is such that no
character can be written in two ways.
-/

namespace DecisionCycle.Utf8

/-- A character that has begun: its bits so far, how many bytes are missing, and
the least and the greatest byte that may follow. -/
structure Begun where
  bits : Nat
  missing : Nat
  least : Nat
  greatest : Nat

abbrev State := Option Begun

def begun? (byte : Nat) : Option Begun :=
  if byte < 0xC2 then none
  else if byte < 0xE0 then some ⟨byte - 0xC0, 1, 0x80, 0xBF⟩
  else if byte < 0xF0 then some ⟨byte - 0xE0, 2, if byte = 0xE0 then 0xA0 else 0x80, 0xBF⟩
  else if byte = 0xF0 then some ⟨0, 3, 0x90, 0xBF⟩
  else if byte < 0xF4 then some ⟨byte - 0xF0, 3, 0x80, 0xBF⟩
  else if byte = 0xF4 then some ⟨4, 3, 0x80, 0x8F⟩
  else none

/-- The character that a byte completes, if it completes one, and what has begun
after it; `none` if the byte has no place there. Half of a surrogate pair is no
character, which shows at its last byte. -/
def step : State → Nat → Option (Option Char × State)
  | none, byte =>
      if byte < 0x80 then some (some (Char.ofNat byte), none)
      else (begun? byte).map fun s => (none, some s)
  | some s, byte =>
      let bits := s.bits * 64 + (byte - 0x80)
      if byte < s.least ∨ s.greatest < byte then none
      else if s.missing = 1 then
        ((CodePoint.ofNat? bits).bind CodePoint.char?).map fun c => (some c, none)
      else some (none, some ⟨bits, s.missing - 1, 0x80, 0xBF⟩)

end DecisionCycle.Utf8
