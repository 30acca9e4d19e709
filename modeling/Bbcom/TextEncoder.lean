-- `new TextEncoder().encode`: the code units of a string as UTF-8. A surrogate without its
-- partner becomes a replacement character. With it, other methods of strings.
import Bbcom.TextDecoder

namespace bbcom.js

open UInt8 List

namespace TextEncoder

def isHighSurrogate (unit : UInt16) : Bool := 0xD800 ≤ unit ∧ unit ≤ 0xDBFF
def isLowSurrogate (unit : UInt16) : Bool := 0xDC00 ≤ unit ∧ unit ≤ 0xDFFF

/-- The bytes of one code point. -/
def encodeCodePoint (codePoint : Nat) : Uint8Array :=
  if codePoint < 0x80 then [ofNat codePoint]
  else if codePoint < 0x800 then
    [ofNat (0xC0 + codePoint / 0x40), ofNat (0x80 + codePoint % 0x40)]
  else if codePoint < 0x10000 then
    [ofNat (0xE0 + codePoint / 0x1000), ofNat (0x80 + codePoint / 0x40 % 0x40),
      ofNat (0x80 + codePoint % 0x40)]
  else
    [ofNat (0xF0 + codePoint / 0x40000), ofNat (0x80 + codePoint / 0x1000 % 0x40),
      ofNat (0x80 + codePoint / 0x40 % 0x40), ofNat (0x80 + codePoint % 0x40)]

/-- The bytes of a unit that stands alone. -/
def encodeUnit (unit : UInt16) : Uint8Array :=
  encodeCodePoint (if isHighSurrogate unit ∨ isLowSurrogate unit then 0xFFFD else unit.toNat)

/-- The bytes of a pair of surrogates. -/
def encodePair (high low : UInt16) : Uint8Array :=
  encodeCodePoint (0x10000 + (high.toNat - 0xD800) * 0x400 + (low.toNat - 0xDC00))

def encode : JsString → Uint8Array
  | [] => []
  | [unit] => encodeUnit unit
  | unit :: next :: rest =>
    if isHighSurrogate unit ∧ isLowSurrogate next then encodePair unit next ++ encode rest
    else encodeUnit unit ++ encode (next :: rest)

/-- A pair of surrogates stands across the border of two strings. -/
def Splits (front back : JsString) : Prop :=
  ∃ high low, front.getLast? = some high ∧ back.head? = some low ∧
    isHighSurrogate high ∧ isLowSurrogate low

theorem not_splits_nil (front : JsString) : ¬ Splits front [] := by
  rintro ⟨high, low, -, hlow, -⟩
  cases hlow

/-- Strings are encoded one by one, where no pair is split. -/
theorem encode_append (front back : JsString) (hwhole : ¬ Splits front back) :
    encode (front ++ back) = encode front ++ encode back := by
  induction front using encode.induct with
  | case1 => rfl
  | case2 unit =>
    cases back with
    | nil => simp [encode]
    | cons next back =>
      have hapart : ¬ (isHighSurrogate unit = true ∧ isLowSurrogate next = true) :=
        fun hpair => hwhole ⟨unit, next, rfl, rfl, hpair⟩
      simp [encode, hapart]
  | case3 unit next rest hpair ih =>
    have hrest : ¬ Splits rest back := by
      rintro ⟨high, low, hhigh, hlow, hsplit⟩
      refine hwhole ⟨high, low, ?_, hlow, hsplit⟩
      cases rest with
      | nil => cases hhigh
      | cons a rest => simpa [getLast?_cons_cons] using hhigh
    simp only [cons_append, encode, if_pos hpair, ih hrest, append_assoc]
  | case4 unit next rest hapart ih =>
    have hrest : ¬ Splits (next :: rest) back := by
      rintro ⟨high, low, hhigh, hlow, hsplit⟩
      exact hwhole ⟨high, low, by rwa [getLast?_cons_cons], hlow, hsplit⟩
    have hnext := ih hrest
    rw [cons_append] at hnext
    simp only [cons_append, encode, if_neg hapart, hnext, append_assoc]

end TextEncoder

/-! ## Strings -/

/-- The units of a literal, all of ASCII. -/
def units (literal : String) : JsString := literal.toList.map fun c => UInt16.ofNat c.toNat

/-- The units that `trim` takes away at either end. -/
def isTrimmed (unit : UInt16) : Bool :=
  unit ∈ ([0x09, 0x0A, 0x0B, 0x0C, 0x0D, 0x20, 0xA0, 0x1680, 0x2028, 0x2029, 0x202F, 0x205F,
    0x3000, 0xFEFF] : List UInt16) || (0x2000 ≤ unit && unit ≤ 0x200A)

def trim (text : JsString) : JsString := (text.dropWhile isTrimmed).rdropWhile isTrimmed

end bbcom.js
