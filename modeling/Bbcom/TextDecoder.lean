-- `new TextDecoder('utf-8', { fatal: false })`, one byte at a time, and the strings of the
-- language that it makes.
import Bbcom.Js

namespace bbcom.js

/-- A string of the language is a list of UTF-16 code units. -/
abbrev JsString := List UInt16

/-- The code units of one code point. -/
def fromCodePoint (codePoint : Nat) : JsString :=
  if codePoint < 0x10000 then [UInt16.ofNat codePoint]
  else
    let offset := codePoint - 0x10000
    [UInt16.ofNat (0xD800 + offset / 0x400), UInt16.ofNat (0xDC00 + offset % 0x400)]

/-- What the decoder keeps between two bytes: the character that it is in the middle of, the
bounds of the next byte, and whether a byte order mark could still stand here. -/
structure TextDecoder where
  codePoint : Nat
  bytesSeen : Nat
  bytesNeeded : Nat
  lowerBoundary : Nat
  upperBoundary : Nat
  bomSeen : Bool
  deriving DecidableEq

namespace TextDecoder

def new : TextDecoder := ⟨0, 0, 0, 0x80, 0xBF, false⟩

variable (d : TextDecoder)

/-- Between two characters. -/
def restarted : TextDecoder :=
  { d with codePoint := 0, bytesSeen := 0, bytesNeeded := 0, lowerBoundary := 0x80,
           upperBoundary := 0xBF }

/-- A code point leaves the decoder; a byte order mark in front of everything is left out. -/
def emit (codePoint : Nat) : TextDecoder × JsString :=
  ({ d with bomSeen := true },
    if !d.bomSeen ∧ codePoint = 0xFEFF then [] else fromCodePoint codePoint)

/-- The first byte of a character. -/
def decodeFirst (byte : Nat) : TextDecoder × JsString :=
  if byte ≤ 0x7F then d.emit byte
  else if 0xC2 ≤ byte ∧ byte ≤ 0xDF then
    ({ d with bytesNeeded := 1, codePoint := byte % 0x20 }, [])
  else if 0xE0 ≤ byte ∧ byte ≤ 0xEF then
    ({ d with
        bytesNeeded := 2
        codePoint := byte % 0x10
        lowerBoundary := if byte = 0xE0 then 0xA0 else d.lowerBoundary
        upperBoundary := if byte = 0xED then 0x9F else d.upperBoundary }, [])
  else if 0xF0 ≤ byte ∧ byte ≤ 0xF4 then
    ({ d with
        bytesNeeded := 3
        codePoint := byte % 8
        lowerBoundary := if byte = 0xF0 then 0x90 else d.lowerBoundary
        upperBoundary := if byte = 0xF4 then 0x8F else d.upperBoundary }, [])
  else d.emit 0xFFFD

def decodeByte (byte : UInt8) : TextDecoder × JsString :=
  let byte := byte.toNat
  if d.bytesNeeded = 0 then d.decodeFirst byte
  else if byte < d.lowerBoundary ∨ d.upperBoundary < byte then
    -- the broken character is replaced, and the byte begins the next one
    let (d, replaced) := d.restarted.emit 0xFFFD
    let (d, decoded) := d.decodeFirst byte
    (d, replaced ++ decoded)
  else
    let codePoint := d.codePoint * 0x40 + byte % 0x40
    if d.bytesSeen + 1 = d.bytesNeeded then d.restarted.emit codePoint
    else
      ({ d with codePoint, bytesSeen := d.bytesSeen + 1, lowerBoundary := 0x80,
                upperBoundary := 0xBF }, [])

/-- `decode(bytes, { stream: true })`. -/
def decode (d : TextDecoder) : Uint8Array → TextDecoder × JsString
  | [] => (d, [])
  | byte :: bytes =>
    let (d, decoded) := d.decodeByte byte
    let (d, rest) := d.decode bytes
    (d, decoded ++ rest)

/-- What a last `decode` without `stream` adds: a character that nothing completes is
replaced. -/
def flush : JsString := if d.bytesNeeded = 0 then [] else (d.restarted.emit 0xFFFD).2

/-- Chunks do not matter to a streaming decoder. -/
theorem decode_append (d : TextDecoder) (a b : Uint8Array) :
    d.decode (a ++ b) =
      (((d.decode a).1.decode b).1, (d.decode a).2 ++ ((d.decode a).1.decode b).2) := by
  induction a generalizing d with
  | nil => rfl
  | cons byte a ih =>
    simp only [List.cons_append, decode, ih, List.append_assoc]

end TextDecoder

end bbcom.js
