import DecisionCycle.Number.Rounding
import DecisionCycle.Text.Utf8

/-!
The text in some bytes, read from the beginning in blocks of 4096 characters. Every
line end becomes a line feed.

The bytes are decoded in chunks, and a chunk with a byte that has no place in it
gives no characters at all. So a block may be lost although the fault lies
behind it.
-/

namespace DecisionCycle

/-- How far some bytes have been decoded: what has begun at the end, and whether a
carriage return is held back there, as a line feed may follow. -/
structure Decoder where
  begun : Utf8.State := none
  returnHeld : Bool := false

namespace Decoder

/-- The characters that a character gives after a carriage return or after
something else, and whether it is a carriage return itself. -/
def lineEnds (returnHeld : Bool) (c : Char) : List Char × Bool :=
  if c = '\n' then (['\n'], false)
  else
    ((if returnHeld then ['\n'] else []) ++ (if c = '\r' then [] else [c]), c == '\r')

def decode (d : Decoder) : List UInt8 → Option (List Char × Decoder)
  | [] => some ([], d)
  | byte :: rest => do
    let (c?, begun) ← Utf8.step d.begun byte.toNat
    let (chars, returnHeld) := (c?.map (lineEnds d.returnHeld)).getD ([], d.returnHeld)
    let (more, last) ← decode { begun, returnHeld } rest
    return (chars ++ more, last)

def finish (d : Decoder) : Option (List Char) :=
  if d.begun.isSome then none else some (if d.returnHeld then ['\n'] else [])

end Decoder

/-- How far a text has been read: the bytes that are left, how far the ones before
them have been decoded, the characters that are ready, and the number of bytes
to a character in the last chunk. -/
structure Reader where
  bytes : List UInt8
  decoder : Decoder := {}
  ready : List Char := []
  ratio : Number := .ofInt 0

namespace Reader

def ofBytes (data : ByteArray) : Reader :=
  { bytes := data.toList }

def blockSize : Nat := 4096

def chunkSize : Nat := 8192

def nextSize (r : Reader) (wanted : Nat) : Nat :=
  max chunkSize ((r.ratio.times (.ofInt wanted)).truncate?.getD 0).toNat

/-- The reader with the characters of the next chunk ready, or with what is left
at the end. -/
def decodeNext (r : Reader) (wanted : Nat) : Option Reader :=
  if r.bytes.isEmpty then r.decoder.finish.map fun ready => { bytes := [], ready }
  else do
    let chunk := r.bytes.take (r.nextSize wanted)
    let (ready, decoder) ← r.decoder.decode chunk
    return {
      bytes := r.bytes.drop chunk.length
      decoder
      ready
      ratio := if ready.isEmpty then .ofInt 0 else .nearest false chunk.length ready.length }

def isDecoded (r : Reader) : Bool :=
  r.bytes.isEmpty && r.decoder.begun.isNone && !r.decoder.returnHeld

def take : Nat → Nat → Reader → Option (List Char × Reader)
  | 0, _, r => some ([], r)
  | fuel + 1, wanted, r => do
    let chars := r.ready.take wanted
    let missing := wanted - chars.length
    let left := { r with ready := r.ready.drop wanted }
    if missing = 0 ∨ r.isDecoded then return (chars, left)
    else
      let (more, last) ← take fuel missing (← left.decodeNext missing)
      return (chars ++ more, last)

/-- Takes a number of blocks. The last one of a text is shorter, and then come
empty ones. -/
def takeBlocks : Nat → Reader → Option (List Char × Reader)
  | 0, r => some ([], r)
  | count + 1, r => do
    let (block, r) ← r.take (r.bytes.length + 2) blockSize
    let (more, last) ← takeBlocks count r
    return (block ++ more, last)

end Reader

end DecisionCycle
