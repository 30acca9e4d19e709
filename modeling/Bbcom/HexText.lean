-- Hexadecimal text in the renderer (`format.ts`): what it shows of bytes, what it takes for bytes,
-- and how many bytes it says that will be.
import Bbcom.HexDump
import Bbcom.Lib.Splitting
import Bbcom.TextEncoder

open bbcom.js bbcom.export_session bbcom.hex_dump bbcom.splitting

namespace bbcom.hex_text

open List Uint8Array Int8

/-! ## Formatting -/

/-- `i.toString(16).toUpperCase().padStart(2, '0')`. -/
def hexEntry (i : Nat) : List Char := ((Nat.toDigits 16 i).map Char.toUpper).leftpad 2 '0'

def HEX_TABLE : List (List Char) := (range 256).map hexEntry

/-- The two characters of each byte, one byte after the other. -/
def BYTE_HEX_PAIRS_UPPER : Uint8Array :=
  HEX_TABLE.flatMap fun s => [0, 1].map fun k => UInt8.ofNat ((s[k]?.map Char.toNat).getD 0)

/-- `pairs[index]`. -/
def pairByte (index : Nat) : UInt8 := BYTE_HEX_PAIRS_UPPER.getD index 0

/-- One turn of the loop of `formatHex` over `n` bytes. -/
def formatByte (n : Nat) (out : Uint8Array) (turn : UInt8 × Nat) : Uint8Array :=
  let (byte, i) := turn
  let p := byte.toNat * 2
  let o := i * 3
  let out := List.set (List.set out o (pairByte p)) (o + 1) (pairByte (p + 1))
  if i < n - 1 then List.set out (o + 2) 0x20 else out

def formatHex (data : Uint8Array) : JsString :=
  let n := data.length
  if n = 0 then []
  else decodeAscii (data.zipIdx.foldl (formatByte n) (zeros (n * 3 - 1)))

/-! ## Parsing -/

/-- `/[0-9a-fA-F]/`. -/
def isHexDigit (unit : UInt16) : Bool :=
  (0x30 ≤ unit && unit ≤ 0x39) || (0x61 ≤ unit && unit ≤ 0x66) || (0x41 ≤ unit && unit ≤ 0x46)

/-- `/[\s,]/`: white space is what `trim` takes away. -/
def isSeparator (unit : UInt16) : Bool := isTrimmed unit || unit == 0x2C

/-- `HEX_TOKEN`. -/
def isHexToken (token : JsString) : Bool := token ≠ [] && token.all isHexDigit

/-- An `Error`. -/
structure HexError where
  message : JsString
  deriving DecidableEq

def checkToken (token : JsString) : Except HexError Unit :=
  if !isHexToken token then .error ⟨units "Invalid hex token: " ++ token⟩
  else if token.length % 2 ≠ 0 then .error ⟨units "Invalid hex string: odd number of digits"⟩
  else .ok ()

def strictHexTokens (input : JsString) : Except HexError (List JsString) := do
  let trimmed := trim input
  if trimmed.length = 0 then return []
  let tokens := pieces isSeparator trimmed
  forM tokens checkToken
  return tokens

/-- The value of each digit, and -1 for the other units of ASCII. -/
def HEX_VALUE : List Int8 :=
  let table := (range 10).foldl (fun table i => set table (0x30 + i) (ofNat i))
    (replicate 128 (-1))
  (range 6).foldl (fun table i =>
    set (set table (0x61 + i) (ofNat (10 + i))) (0x41 + i) (ofNat (10 + i))) table

/-- `HEX_VALUE[token.charCodeAt(index)]` in an expression of bits, where what is undefined is 0. -/
def hexValueAt (token : JsString) (index : Nat) : Int32 :=
  ((token[index]?.bind fun unit => HEX_VALUE[unit.toNat]?).map toInt32).getD 0

/-- `(hi << 4) | lo`, as an array of bytes takes it. -/
def byteAt (token : JsString) (index : Nat) : UInt8 :=
  (hexValueAt token index <<< 4 ||| hexValueAt token (index + 1)).toUInt32.toUInt8

/-- The bytes that the inner loop of `parseHex` reads. -/
def tokenBytes (token : JsString) : Uint8Array :=
  (range' 0 ((token.length + 1) / 2) 2).map (byteAt token)

/-- The tokens have an even number of digits here. -/
def parseHex (input : JsString) : Except HexError Uint8Array := do
  let tokens ← strictHexTokens input
  let byteLength := tokens.foldl (fun total token => total + token.length / 2) 0
  let (result, _) := tokens.foldl (fun output token => (tokenBytes token).foldl store output)
    (zeros byteLength, 0)
  return result

/-! ## Counting -/

/-- `input.replace(/[^0-9a-fA-F]/g, '')`. -/
def cleanHex (input : JsString) : JsString := input.filter isHexDigit

def hexByteCount (input : JsString) : Nat := (cleanHex input).length / 2

/-! ## What is shown -/

theorem getElem?_flatMap_pairs {α : Type*} {f : Nat → List α} (hpair : ∀ i, (f i).length = 2)
    (n i k : Nat) (hi : i < n) (hk : k < 2) : ((range n).flatMap f)[i * 2 + k]? = (f i)[k]? := by
  induction n with
  | zero => omega
  | succ n ih =>
    have hlength : ((range n).flatMap f).length = n * 2 := by simp [length_flatMap, hpair]
    rw [range_succ, flatMap_append, flatMap_singleton]
    by_cases hlast : i = n
    · subst hlast
      rw [getElem?_append_right (by omega), hlength, Nat.add_sub_cancel_left]
    · rw [getElem?_append_left (by omega)]
      exact ih (by omega)

theorem hexUpper_digit : ∀ digit < 16,
    UInt8.ofNat (Nat.digitChar digit).toUpper.toNat = hexUpper digit := by
  decide

theorem hexEntry_eq {i : Nat} (h : i < 256) :
    ([0, 1].map fun k => UInt8.ofNat (((hexEntry i)[k]?.map Char.toNat).getD 0)) =
      [hexUpper (i / 16), hexUpper (i % 16)] := by
  rw [← hexUpper_digit (i / 16) (by omega), ← hexUpper_digit (i % 16) (by omega)]
  by_cases hone : i < 16
  · have hdigits : Nat.toDigits 16 i = [Nat.digitChar i] := Nat.toDigits_of_lt_base hone
    rw [Nat.div_eq_of_lt hone, Nat.mod_eq_of_lt hone, hexEntry, hdigits]
    rfl
  · have hdigits : Nat.toDigits 16 i = [Nat.digitChar (i / 16), Nat.digitChar (i % 16)] := by
      rw [Nat.toDigits_of_base_le (by decide) (by omega),
        Nat.toDigits_of_lt_base (by omega : i / 16 < 16)]
      rfl
    rw [hexEntry, hdigits]
    rfl

theorem hexByte_eq (byte : UInt8) :
    hexByte byte = [pairByte (byte.toNat * 2), pairByte (byte.toNat * 2 + 1)] := by
  have hbyte := byte.toNat_lt
  have hpair (k : Nat) (hk : k < 2) : pairByte (byte.toNat * 2 + k) =
      ((hexByte byte)[k]?).getD 0 := by
    unfold pairByte BYTE_HEX_PAIRS_UPPER HEX_TABLE hexByte
    rw [getD_eq_getElem?_getD, flatMap_map, getElem?_flatMap_pairs (by simp) 256 _ k hbyte hk,
      hexEntry_eq hbyte]
  have hfirst := hpair 0 (by omega)
  have hsecond := hpair 1 (by omega)
  rw [Nat.add_zero] at hfirst
  rw [hfirst, hsecond]
  rfl

theorem formatByte_last (front : Uint8Array) (byte : UInt8) (i : Nat)
    (hfront : front.length = i * 3) :
    formatByte (i + 1) (front ++ zeros 2) (byte, i) = front ++ hexByte byte := by
  simp [formatByte, hexByte_eq, zeros, ← hfront]

theorem formatByte_next (front : Uint8Array) (byte : UInt8) (i n left : Nat) (hi : i < n - 1)
    (hfront : front.length = i * 3) :
    formatByte n (front ++ zeros (left + 3)) (byte, i) =
      front ++ hexByte byte ++ [0x20] ++ zeros left := by
  simp [formatByte, hexByte_eq, zeros, ← hfront, hi, replicate_succ]

/-- The turns from the byte at `start` on, with the text of the bytes in front. -/
theorem foldl_formatByte (front data : Uint8Array) (start : Nat)
    (hfront : front.length = start * 3) :
    (data.zipIdx start).foldl (formatByte (start + data.length))
      (front ++ zeros (data.length * 3 - 1)) = front ++ appendHex data := by
  induction data generalizing front start with
  | nil => simp [appendHex, zeros]
  | cons byte data ih =>
    rw [zipIdx_cons, foldl_cons]
    cases data with
    | nil => exact formatByte_last front byte start hfront
    | cons next data =>
      have hsize : (byte :: next :: data).length * 3 - 1 = (next :: data).length * 3 - 1 + 3 := by
        simp only [length_cons]
        omega
      have hmore : start < start + (byte :: next :: data).length - 1 := by
        simp only [length_cons]
        omega
      have hcount : start + (byte :: next :: data).length = start + 1 + (next :: data).length := by
        simp only [length_cons]
        omega
      rw [hsize, formatByte_next front byte start _ _ hmore hfront, hcount, ih _ _ (by
        simp [hexByte, hfront]
        omega)]
      simp [appendHex]

theorem formatHex_eq (data : Uint8Array) : formatHex data = decodeAscii (appendHex data) := by
  have hall := foldl_formatByte [] data 0 rfl
  simp only [Nat.zero_add, nil_append] at hall
  simp only [formatHex]
  split
  · rename_i hnone
    rw [length_eq_zero_iff.1 hnone]
    rfl
  · rw [hall]

/-! ## What is taken -/

variable {input token text : JsString} {tokens : List JsString}

theorem not_trimmed_of_isHexDigit {unit : UInt16} (h : isHexDigit unit = true) :
    isTrimmed unit = false := by
  simp only [isHexDigit, isTrimmed, mem_cons, not_mem_nil, or_false, Bool.or_eq_true,
    Bool.and_eq_true, decide_eq_true_eq, Bool.or_eq_false_iff, decide_eq_false_iff_not,
    Bool.and_eq_false_iff, UInt16.le_iff_toNat_le, ← UInt16.toNat_inj] at h ⊢
  simp at h ⊢
  omega

theorem not_separator_of_isHexDigit {unit : UInt16} (h : isHexDigit unit = true) :
    isSeparator unit = false := by
  have hcomma : unit ≠ 0x2C := by
    rintro rfl
    revert h
    decide
  simp [isSeparator, not_trimmed_of_isHexDigit h, hcomma]

/-- What `strictHexTokens` lets a token be. -/
structure Strict (token : JsString) : Prop where
  some : token ≠ []
  digits : ∀ unit ∈ token, isHexDigit unit = true
  even : token.length % 2 = 0

theorem checkToken_ok : checkToken token = .ok () ↔ Strict token := by
  unfold checkToken isHexToken
  constructor
  · intro h
    split at h
    · cases h
    split at h
    · cases h
    · rename_i htoken heven
      simp at htoken heven
      exact ⟨htoken.1, htoken.2, heven⟩
  · rintro ⟨hsome, hdigits, heven⟩
    simp [hsome, heven, all_eq_true.2 hdigits]

theorem forM_checkToken_ok :
    forM tokens checkToken = .ok () ↔ ∀ token ∈ tokens, Strict token := by
  induction tokens with
  | nil => simp [pure, Except.pure]
  | cons token tokens ih =>
    rw [forM_cons, bind_eq_ok, forall_mem_cons, ← checkToken_ok, ← ih]
    constructor
    · rintro ⟨⟨⟩, hchecked⟩
      exact hchecked
    · intro hchecked
      exact ⟨(), hchecked⟩

/-- The tokens, strict or not. -/
def tokensOf (input : JsString) : List JsString :=
  if (trim input).length = 0 then [] else pieces isSeparator (trim input)

theorem strictHexTokens_ok : strictHexTokens input = .ok tokens ↔
    tokensOf input = tokens ∧ ∀ token ∈ tokens, Strict token := by
  unfold strictHexTokens tokensOf
  by_cases hempty : (trim input).length = 0
  · simp only [hempty, if_true, pure, Except.pure, Except.ok.injEq]
    constructor
    · rintro rfl
      exact ⟨rfl, by simp⟩
    · exact And.left
  · simp only [hempty, if_false, pure, Except.pure, bind_eq_ok]
    constructor
    · rintro ⟨⟨⟩, hchecked, hsame⟩
      cases hsame
      exact ⟨rfl, forM_checkToken_ok.1 hchecked⟩
    · rintro ⟨rfl, hstrict⟩
      exact ⟨(), forM_checkToken_ok.2 hstrict, rfl⟩

theorem length_tokenBytes (h : Strict token) : (tokenBytes token).length = token.length / 2 := by
  have heven := h.even
  simp only [tokenBytes, length_map, length_range']
  omega

theorem byteLength_eq (h : ∀ token ∈ tokens, Strict token) (start : Nat) :
    tokens.foldl (fun total token => total + token.length / 2) start =
      start + (tokens.flatMap tokenBytes).length := by
  induction tokens generalizing start with
  | nil => rfl
  | cons token tokens ih =>
    obtain ⟨htoken, hrest⟩ := forall_mem_cons.1 h
    simp [ih hrest, length_tokenBytes htoken, Nat.add_assoc]

/-- The array is filled with the bytes of the tokens, to its end and no further. -/
theorem parseHex_ok {data : Uint8Array} : parseHex input = .ok data ↔
    (∀ token ∈ tokensOf input, Strict token) ∧ (tokensOf input).flatMap tokenBytes = data := by
  have hfill (h : ∀ token ∈ tokensOf input, Strict token) :
      parseHex input = .ok ((tokensOf input).flatMap tokenBytes) := by
    have hstart : Holds ((tokensOf input).flatMap tokenBytes).length []
        (zeros ((tokensOf input).flatMap tokenBytes).length, 0) :=
      ⟨length_zeros _, rfl, rfl⟩
    have hall := hstart.foldl_store ((tokensOf input).flatMap tokenBytes) (by simp)
    rw [foldl_flatMap, nil_append] at hall
    have hlength := byteLength_eq h 0
    rw [Nat.zero_add] at hlength
    simp only [parseHex, strictHexTokens_ok.2 ⟨rfl, h⟩, bind, Except.bind, pure, Except.pure,
      hlength,
      hall.whole rfl]
  constructor
  · intro h
    obtain ⟨tokens, htokens, -⟩ := bind_eq_ok.1 h
    obtain ⟨rfl, hstrict⟩ := strictHexTokens_ok.1 htokens
    rw [hfill hstrict] at h
    exact ⟨hstrict, Except.ok.inj h⟩
  · rintro ⟨hstrict, rfl⟩
    exact hfill hstrict

/-! ## What is counted -/

theorem cleanHex_trim (input : JsString) : cleanHex (trim input) = cleanHex input := by
  have hplain : ∀ unit, isTrimmed unit = true → isHexDigit unit = false := by
    intro unit htrimmed
    by_contra hdigit
    rw [not_trimmed_of_isHexDigit (by simpa using hdigit)] at htrimmed
    cases htrimmed
  unfold cleanHex trim rdropWhile
  rw [filter_reverse, filter_dropWhile_of_imp hplain, filter_reverse, reverse_reverse,
    filter_dropWhile_of_imp hplain]

theorem cleanHex_eq (h : ∀ token ∈ tokensOf input, Strict token) :
    cleanHex input = (tokensOf input).flatten := by
  rw [← cleanHex_trim]
  unfold tokensOf at h ⊢
  split
  · rename_i hempty
    rw [length_eq_zero_iff.1 hempty]
    rfl
  · rename_i hsome
    rw [if_neg hsome] at h
    have hdigits : cleanHex (pieces isSeparator (trim input)).flatten =
        (pieces isSeparator (trim input)).flatten := by
      apply filter_eq_self.2
      intro unit hunit
      obtain ⟨token, htoken, hin⟩ := mem_flatten.1 hunit
      exact (h token htoken).digits unit hin
    rw [← hdigits, flatten_pieces]
    unfold cleanHex
    rw [filter_filter]
    apply filter_congr
    intro unit _
    by_cases hdigit : isHexDigit unit
    · simp [hdigit, not_separator_of_isHexDigit hdigit]
    · simp [hdigit]

theorem hexByteCount_eq {data : Uint8Array} (h : parseHex input = .ok data) :
    hexByteCount input = data.length := by
  obtain ⟨hstrict, rfl⟩ := parseHex_ok.1 h
  unfold hexByteCount
  rw [cleanHex_eq hstrict]
  generalize tokensOf input = tokens at hstrict
  induction tokens with
  | nil => rfl
  | cons token tokens ih =>
    obtain ⟨htoken, hrest⟩ := forall_mem_cons.1 hstrict
    have heven := htoken.even
    have hlater := ih hrest
    simp only [flatten_cons, flatMap_cons, length_append, length_tokenBytes htoken]
    omega

/-! ## There and back -/

theorem isHexDigit_hexByte (byte : UInt8) :
    ∀ unit ∈ decodeAscii (hexByte byte), isHexDigit unit = true := by
  have hdigit : ∀ n < 16, isHexDigit (hexUpper n).toUInt16 = true := by decide
  have hbyte := byte.toNat_lt
  intro unit hunit
  simp only [decodeAscii, hexByte, map_cons, map_nil, mem_cons, not_mem_nil, or_false] at hunit
  rcases hunit with rfl | rfl
  · apply hdigit
    omega
  · apply hdigit
    omega

theorem strict_hexByte (byte : UInt8) : Strict (decodeAscii (hexByte byte)) :=
  ⟨by simp [decodeAscii, hexByte], isHexDigit_hexByte byte, by simp [decodeAscii, hexByte]⟩

theorem hexValueAt_digit {index n : Nat} (hn : n < 16)
    (h : token[index]? = some (hexUpper n).toUInt16) :
    hexValueAt token index = (ofNat n).toInt32 := by
  have hvalue : ∀ n < 16, HEX_VALUE[(hexUpper n).toUInt16.toNat]? = some (ofNat n) := by
    decide +kernel
  unfold hexValueAt
  rw [h, Option.bind_some, hvalue n hn]
  rfl

theorem tokenBytes_hexByte (byte : UInt8) : tokenBytes (decodeAscii (hexByte byte)) = [byte] := by
  have hbits : ∀ hi < 16, ∀ lo < 16,
      ((ofNat hi).toInt32 <<< 4 ||| (ofNat lo).toInt32).toUInt32.toUInt8 =
        UInt8.ofNat (hi * 16 + lo) := by
    decide +kernel
  have hbyte := byte.toNat_lt
  have hbyteAt : byteAt (decodeAscii (hexByte byte)) 0 = byte := by
    unfold byteAt
    rw [hexValueAt_digit (n := byte.toNat / 16) (by omega) rfl,
      hexValueAt_digit (n := byte.toNat % 16) (by omega) rfl, hbits _ (by omega) _ (by omega),
      Nat.div_add_mod', UInt8.ofNat_toNat]
  simp [tokenBytes, decodeAscii, hexByte] at hbyteAt ⊢
  exact hbyteAt

variable {data : Uint8Array}

/-- The first and the last unit of a text stay. -/
theorem trim_eq (hfirst : ∀ unit ∈ text.head?, isTrimmed unit = false)
    (hlast : ∀ unit ∈ text.getLast?, isTrimmed unit = false) : trim text = text := by
  cases text with
  | nil => rfl
  | cons first text =>
    have hfront : (first :: text).dropWhile isTrimmed = first :: text := by
      simp [hfirst first rfl]
    unfold trim
    rw [hfront, rdropWhile_eq_self_iff]
    intro hsome
    simp [hlast _ (getLast?_eq_some_getLast hsome)]

/-- The text of some bytes: their tokens with blanks between them. -/
theorem decodeAscii_appendHex (byte : UInt8) (data : Uint8Array) :
    decodeAscii (appendHex (byte :: data)) = decodeAscii (hexByte byte) ++
      (data.map fun other => decodeAscii (hexByte other)).flatMap ((0x20 : UInt16) :: ·) := by
  rw [appendHex_cons]
  simp [decodeAscii, map_flatMap, flatMap_map]

theorem isHexDigit_getLast? (data : Uint8Array) :
    ∀ unit ∈ (decodeAscii (appendHex data)).getLast?, isHexDigit unit = true := by
  induction data with
  | nil => simp [appendHex, decodeAscii]
  | cons byte data ih =>
    intro unit hunit
    cases data with
    | nil =>
      apply isHexDigit_hexByte byte
      exact mem_of_mem_getLast? hunit
    | cons next data =>
      apply ih unit
      rw [decodeAscii_appendHex] at hunit ⊢
      simpa [decodeAscii, hexByte, getLast?_cons] using hunit

theorem tokensOf_formatHex (data : Uint8Array) :
    tokensOf (formatHex data) = data.map fun byte => decodeAscii (hexByte byte) := by
  rw [formatHex_eq]
  cases data with
  | nil => rfl
  | cons byte data =>
    have htrim : trim (decodeAscii (appendHex (byte :: data))) =
        decodeAscii (appendHex (byte :: data)) := by
      apply trim_eq
      · intro unit hunit
        rw [decodeAscii_appendHex] at hunit
        apply not_trimmed_of_isHexDigit
        apply isHexDigit_hexByte byte
        apply mem_of_mem_head?
        simpa [decodeAscii, hexByte] using hunit
      · intro unit hunit
        exact not_trimmed_of_isHexDigit (isHexDigit_getLast? _ unit hunit)
    unfold tokensOf
    rw [htrim, decodeAscii_appendHex, if_neg (by simp [decodeAscii, hexByte])]
    apply pieces_words rfl
    intro word hword
    rw [← map_cons (f := fun other => decodeAscii (hexByte other))] at hword
    obtain ⟨other, -, rfl⟩ := mem_map.1 hword
    refine ⟨(strict_hexByte other).some, fun unit hunit => ?_⟩
    exact not_separator_of_isHexDigit (isHexDigit_hexByte other unit hunit)

/-- What is shown of some bytes stands for those bytes, and the count for a text is the number of
bytes that it is taken for. -/
theorem hex_text_round_trips :
    (∀ data : Uint8Array, parseHex (formatHex data) = .ok data) ∧
    ∀ (input : JsString) (data : Uint8Array), parseHex input = .ok data →
      hexByteCount input = data.length := by
  refine ⟨fun data => parseHex_ok.2 ?_, fun input data h => hexByteCount_eq h⟩
  rw [tokensOf_formatHex]
  constructor
  · intro token htoken
    obtain ⟨byte, -, rfl⟩ := mem_map.1 htoken
    exact strict_hexByte byte
  · rw [flatMap_map]
    simp [tokenBytes_hexByte]

/-- White space at both ends, digits in both cases, tokens of several bytes and mixed separators. -/
theorem hex_text_round_trips_mixed :
    hexByteCount (units " 0aFf,\t,10\n C0ffEE  ") = 6 :=
  hex_text_round_trips.2 (units " 0aFf,\t,10\n C0ffEE  ") [0x0A, 0xFF, 0x10, 0xC0, 0xFF, 0xEE]
    (by decide +kernel)

end bbcom.hex_text
