-- The Modbus PDU layer of `modbus-core.ts`: the limits, the CRC, the request
-- builders, the response parser, and the codec between typed values and words.
-- A 16-bit word and a wire address are natural numbers; a shift or a mask of a
-- number that is never negative is written as a quotient or a remainder.
import Bbcom.Js

open bbcom.js

namespace bbcom.modbus_core

open List UInt8

inductive ModbusValueType
  | bool | uint8 | int8 | uint16 | int16
  | uint32Be | int32Be | float32Be
  | uint32Le | int32Le | float32Le
  deriving DecidableEq

/-! ## Limits -/

namespace MODBUS_LIMITS

def readBits : Nat := 2000
def readRegisters : Nat := 125
def writeBits : Nat := 1968
def writeRegisters : Nat := 123

end MODBUS_LIMITS

def isByteValueType (type : ModbusValueType) : Bool :=
  type = .uint8 || type = .int8

/-- How many 16-bit registers a value takes. -/
def registerSpan (type : ModbusValueType) : Nat :=
  if type = .bool || isByteValueType type || type = .uint16 || type = .int16 then 1 else 2

/-- How many registers carry `count` values. -/
def registerCountForValues (type : ModbusValueType) (count : Nat) : Nat :=
  let valueCount := max 1 count
  if isByteValueType type then (valueCount + 1) / 2
  else if type = .bool then valueCount
  else valueCount * registerSpan type

/-- How many values fit in `registerLimit` registers. -/
def maxValueCountForRegisters (type : ModbusValueType) (registerLimit : Nat) : Nat :=
  if isByteValueType type then registerLimit * 2
  else if type = .bool then registerLimit
  else registerLimit / registerSpan type

def isBitFc (fc : Nat) : Bool := fc = 0x01 || fc = 0x02 || fc = 0x05 || fc = 0x0f

def isReadFc (fc : Nat) : Bool := fc = 0x01 || fc = 0x02 || fc = 0x03 || fc = 0x04

/-! ## The CRC -/

/-- One of the eight shifts that follow the xor with a byte. -/
def crcShift (crc : Nat) : Nat :=
  if crc &&& 1 = 1 then (crc >>> 1) ^^^ 0xa001 else crc >>> 1

def crc16ModbusFoldByte (crc : Nat) (byte : UInt8) : Nat :=
  crcShift^[8] (crc ^^^ byte.toNat) &&& 0xffff

def crc16Modbus (bytes : Uint8Array) : Nat :=
  bytes.foldl crc16ModbusFoldByte 0xffff

/-- The two CRC bytes of a frame, low byte first. -/
def crcBytes (bytes : Uint8Array) : Uint8Array :=
  [ofNat (crc16Modbus bytes), ofNat (crc16Modbus bytes / 0x100)]

def verifyCrc (frame : Uint8Array) : Bool :=
  if frame.length < 4 then false
  else frame.drop (frame.length - 2) = crcBytes (frame.take (frame.length - 2))

/-! ## Request builders -/

/-- A number in two bytes, high byte first. -/
def u16Bytes (value : Nat) : Uint8Array :=
  [ofNat (value / 0x100), ofNat value]

/-- `(hi << 8) | lo`. -/
def u16Of (hi lo : UInt8) : Nat := hi.toNat * 0x100 + lo.toNat

def assertU16 (name : String) (value : Option Nat) : Except JsError Nat :=
  match value with
  | some n =>
    if n ≤ 0xffff then .ok n else .error (.rangeError s!"{name} must be an integer in 0..65535")
  | none => .error (.rangeError s!"{name} must be an integer in 0..65535")

def assertQuantity (name : String) (value max : Nat) : Except JsError Nat :=
  if 1 ≤ value ∧ value ≤ max then .ok value
  else .error (.rangeError s!"{name} must be an integer in 1..{max}")

open MODBUS_LIMITS

/-- `[fc][startHi][startLo][cntHi][cntLo]`. -/
def buildReadRequestPdu (fc start count : Nat) : Except JsError Uint8Array := do
  if !isReadFc fc then .error (.rangeError s!"unsupported read function code: {fc}")
  let _ ← assertU16 "start" (some start)
  let _ ← assertQuantity "count" count
    (if isBitFc fc then readBits else readRegisters)
  .ok (ofNat fc :: (u16Bytes start ++ u16Bytes count))

def buildWriteSingleCoilPdu (addr : Nat) (on : Bool) : Except JsError Uint8Array := do
  let _ ← assertU16 "addr" (some addr)
  .ok (0x05 :: (u16Bytes addr ++ [if on then 0xff else 0x00, 0x00]))

/-- The value is absent where the code indexes an empty list of words. -/
def buildWriteSingleRegisterPdu (addr : Nat) (value : Option Nat) : Except JsError Uint8Array := do
  let _ ← assertU16 "addr" (some addr)
  let value ← assertU16 "value" value
  .ok (0x06 :: (u16Bytes addr ++ u16Bytes value))

/-- Eight coils or fewer in a byte, the first in the lowest bit. -/
def packByte : List Bool → Nat
  | [] => 0
  | bit :: bits => bit.toNat + 2 * packByte bits

/-- The data bytes of a coil write. -/
def packBits (bits : List Bool) : Uint8Array :=
  (range ((bits.length + 7) / 8)).map fun j =>
    ofNat (packByte ((bits.drop (8 * j)).take 8))

def buildWriteMultipleCoilsPdu (start : Nat) (bits : List Bool) : Except JsError Uint8Array := do
  let count := bits.length
  let _ ← assertU16 "start" (some start)
  let _ ← assertQuantity "count" count writeBits
  let data := packBits bits
  .ok (0x0f :: (u16Bytes start ++ u16Bytes count ++ ofNat data.length :: data))

def buildWriteMultipleRegistersPdu (start : Nat) (values : List Nat) :
    Except JsError Uint8Array := do
  let count := values.length
  let _ ← assertU16 "start" (some start)
  let _ ← assertQuantity "count" count writeRegisters
  let words ← values.mapM fun value => assertU16 "value" (some value)
  .ok (0x10 :: (u16Bytes start ++ u16Bytes count ++
    ofNat (count * 2) :: words.flatMap u16Bytes))

/-! ## Response parsing -/

inductive ModbusResponse
  | readBits (slave fc : UInt8) (bits : List Bool)
  | readRegs (slave fc : UInt8) (regs : List Nat)
  | writeAck (slave fc : UInt8) (addr count : Nat)
  | exception (slave fc : UInt8) (code : UInt8)
  deriving DecidableEq

/-- The eight bits of a byte, lowest first. -/
def byteBits (byte : UInt8) : List Bool := (range 8).map byte.toNat.testBit

/-- The words of an even run of bytes. -/
def pairWords : Uint8Array → List Nat
  | hi :: lo :: rest => u16Of hi lo :: pairWords rest
  | _ => []

/-- `parseResponse` from the function code on, where the slave byte and the CRC are gone. -/
def parsePdu (slave : UInt8) : Uint8Array → Option ModbusResponse
  | [] => none
  | fc :: rest =>
    if fc &&& 0x80 ≠ 0 then
      match rest with
      | [code] => some (.exception slave fc code)
      | _ => none
    else if fc = 0x01 ∨ fc = 0x02 then
      match rest with
      | byteCount :: data =>
        if data.length = byteCount.toNat then
          some (.readBits slave fc (data.flatMap byteBits))
        else none
      | [] => none
    else if fc = 0x03 ∨ fc = 0x04 then
      match rest with
      | byteCount :: data =>
        if data.length = byteCount.toNat ∧ byteCount.toNat % 2 = 0 then
          some (.readRegs slave fc (pairWords data))
        else none
      | [] => none
    else if fc = 0x05 ∨ fc = 0x06 then
      match rest with
      | [addrHi, addrLo, _, _] => some (.writeAck slave fc (u16Of addrHi addrLo) 1)
      | _ => none
    else if fc = 0x0f ∨ fc = 0x10 then
      match rest with
      | [addrHi, addrLo, countHi, countLo] =>
        some (.writeAck slave fc (u16Of addrHi addrLo) (u16Of countHi countLo))
      | _ => none
    else none

structure ParseResponseOptions where
  pduOnly : Bool
  slave : UInt8

def parseResponse (verifyCrcFlag : Bool) (frame : Uint8Array) (options : ParseResponseOptions) :
    Option ModbusResponse :=
  let pduOnly := !verifyCrcFlag && options.pduOnly
  let minLen := if verifyCrcFlag then 4 else if pduOnly then 2 else 3
  if frame.length < minLen then none
  else if verifyCrcFlag && !verifyCrc frame then none
  else
    let pduLen := if verifyCrcFlag then frame.length - 2 else frame.length
    if pduOnly then parsePdu options.slave frame
    else parsePdu (frame.getD 0 0) (frame.subarray 1 pduLen)

/-! ## Values and words -/

/-- `clampInteger`, for the finite numbers that the callers have. -/
def clampInteger (value : FiniteNumber) (min max : ℤ) : ℤ :=
  Max.max min (Min.min max (trunc value.toRat))

def toInt16 (u16 : Nat) : ℤ :=
  let v := u16 % 0x10000
  if v ≥ 0x8000 then (v : ℤ) - 0x10000 else v

def toInt8 (u8 : Nat) : ℤ :=
  let v := u8 % 0x100
  if v ≥ 0x80 then (v : ℤ) - 0x100 else v

def toInt32 (hi lo : Nat) : ℤ :=
  let v := hi % 0x10000 * 0x10000 + lo % 0x10000
  if v ≥ 0x80000000 then (v : ℤ) - 0x100000000 else v

/-- `DataView.getFloat32`: the value that the four bytes encode. -/
def decodeFloat32BE (hi lo : Nat) : JsNumber :=
  let bits := hi % 0x10000 * 0x10000 + lo % 0x10000
  let negative := bits / 2 ^ 31 = 1
  let exponent := bits / 2 ^ 23 % 2 ^ 8
  let fraction := bits % 2 ^ 23
  if exponent = 255 then
    if fraction = 0 then .infinity negative else .nan
  else
    let significand := if exponent = 0 then fraction else 2 ^ 23 + fraction
    let magnitude : ℚ := (significand * 2 ^ max 1 exponent : Nat) / (2 ^ 150 : Nat)
    if negative then
      if significand = 0 then .negativeZero else .finite (-magnitude)
    else .finite magnitude

/-- The nearest integer, and the even one of two. -/
def roundHalfEven (q : ℚ) : ℤ :=
  let below := ⌊q⌋
  if q - below < 1 / 2 then below
  else if 1 / 2 < q - below then below + 1
  else if below % 2 = 0 then below else below + 1

/-- `DataView.setFloat32`, with the two words that are read back. The exponent is the
least one that leaves 24 bits, a carry of the rounding moves on into it, and what is too
large becomes the infinity. -/
def encodeFloat32BE (value : FiniteNumber) : Nat × Nat :=
  let negative := value.val = .negativeZero ∨ value.toRat < 0
  let scaled : ℚ := |value.toRat| * (2 ^ 150 : Nat)
  let exponent := max 1 (Nat.log2 ⌊scaled⌋.toNat - 23)
  let significand := (roundHalfEven (scaled / (2 ^ exponent : Nat))).toNat
  let magnitude := min (255 * 2 ^ 23) ((exponent - 1) * 2 ^ 23 + significand)
  let bits := (if negative then 2 ^ 31 else 0) + magnitude
  (bits / 0x10000, bits % 0x10000)

def isWordSwapped (type : ModbusValueType) : Bool :=
  type = .uint32Le || type = .int32Le || type = .float32Le

/-- The high and the low word of a 32-bit value. -/
def u32Halves (type : ModbusValueType) (regs : List Nat) : Nat × Nat :=
  if isWordSwapped type then (regs.getD 1 0, regs.getD 0 0)
  else (regs.getD 0 0, regs.getD 1 0)

def emitU32Words (type : ModbusValueType) (hi lo : Nat) : List Nat :=
  if isWordSwapped type then [lo % 0x10000, hi % 0x10000]
  else [hi % 0x10000, lo % 0x10000]

def decodeValue (type : ModbusValueType) (regs : List Nat) : JsNumber :=
  let first := regs.getD 0 0
  let (hi, lo) := u32Halves type regs
  match type with
  | .bool => .finite (if first = 0 then 0 else 1)
  | .uint8 => .finite (first / 0x100 % 0x100 : Nat)
  | .int8 => .finite (toInt8 (first / 0x100 % 0x100))
  | .uint16 => .finite (first % 0x10000 : Nat)
  | .int16 => .finite (toInt16 first)
  | .uint32Be | .uint32Le => .finite (hi * 0x10000 + lo : Nat)
  | .int32Be | .int32Le => .finite (toInt32 hi lo)
  | .float32Be | .float32Le => decodeFloat32BE hi lo

/-- As many values as the words hold: two in a word for the byte types, and else one in
each full span. -/
def decodeValues (type : ModbusValueType) (regs : List Nat) : List JsNumber :=
  if isByteValueType type then
    regs.flatMap fun reg =>
      let hi := reg / 0x100 % 0x100
      let lo := reg % 0x100
      if type = .int8 then [.finite (toInt8 hi), .finite (toInt8 lo)]
      else [.finite (hi : Nat), .finite (lo : Nat)]
  else
    let span := registerSpan type
    (range (regs.length / span)).map fun k =>
      decodeValue type ((regs.drop (k * span)).take span)

/-- The number is finite: the check at the start of the function never fails. -/
def encodeValue (type : ModbusValueType) (value : FiniteNumber) : List Nat :=
  match type with
  | .bool => [if value.toRat = 0 then 0 else 1]
  | .uint8 => [(clampInteger value 0 0xff).toNat * 0x100]
  | .int8 => [(clampInteger value (-0x80) 0x7f % 0x100).toNat * 0x100]
  | .uint16 => [(clampInteger value 0 0xffff).toNat]
  | .int16 => [(clampInteger value (-0x8000) 0x7fff % 0x10000).toNat]
  | .uint32Be | .uint32Le =>
    let u32 := (clampInteger value 0 0xffffffff).toNat
    emitU32Words type (u32 / 0x10000) u32
  | .int32Be | .int32Le =>
    let i32 := clampInteger value (-0x80000000) 0x7fffffff
    let u32 := (if i32 < 0 then i32 + 0x100000000 else i32).toNat
    emitU32Words type (u32 / 0x10000) u32
  | .float32Be | .float32Le =>
    let (hi, lo) := encodeFloat32BE value
    emitU32Words type hi lo

/-- One byte of a word that carries two values. -/
def encodeByte (type : ModbusValueType) (value : FiniteNumber) : Nat :=
  if type = .int8 then (clampInteger value (-0x80) 0x7f % 0x100).toNat
  else (clampInteger value 0 0xff).toNat

/-- `values[i + 1] ?? 0` where the list ends. -/
def zeroValue : FiniteNumber := ⟨.finite 0, rfl⟩

/-- The loop over the pairs of values that share a word. -/
def encodeBytePairs (type : ModbusValueType) : List FiniteNumber → List Nat
  | [] => []
  | [hi] => [encodeByte type hi * 0x100 + encodeByte type zeroValue]
  | hi :: lo :: rest => (encodeByte type hi * 0x100 + encodeByte type lo) ::
      encodeBytePairs type rest

def encodeValues (type : ModbusValueType) (values : List FiniteNumber) : List Nat :=
  if isByteValueType type then encodeBytePairs type values
  else values.flatMap (encodeValue type)

/-! ## The size of what is encoded -/

variable (type : ModbusValueType)

theorem registerSpan_pos : 0 < registerSpan type := by
  unfold registerSpan
  split <;> decide

theorem length_emitU32Words (hi lo : Nat) : (emitU32Words type hi lo).length = 2 := by
  unfold emitU32Words
  split <;> rfl

variable (value : FiniteNumber)

theorem length_encodeValue : (encodeValue type value).length = registerSpan type := by
  cases type <;> simp [encodeValue, registerSpan, isByteValueType, length_emitU32Words]

variable (values : List FiniteNumber)

theorem length_encodeBytePairs :
    (encodeBytePairs type values).length = (values.length + 1) / 2 := by
  induction values using encodeBytePairs.induct with
  | case1 => rfl
  | case2 hi => simp [encodeBytePairs]
  | case3 hi lo rest ih =>
    simp only [encodeBytePairs, length_cons, ih]
    omega

theorem length_encodeValues :
    (encodeValues type values).length = if isByteValueType type then (values.length + 1) / 2
      else values.length * registerSpan type := by
  unfold encodeValues
  split
  · exact length_encodeBytePairs type values
  · simp [length_flatMap, length_encodeValue]

/-! ## The encoded words fit the wire -/

theorem clampInteger_le (value : FiniteNumber) {min max : ℤ} (h : min ≤ max) :
    clampInteger value min max ≤ max := by
  unfold clampInteger
  exact max_le h (min_le_left _ _)

theorem le_clampInteger (min max : ℤ) :
    min ≤ clampInteger value min max := le_max_left _ _

theorem encodeByte_lt : encodeByte type value < 0x100 := by
  unfold encodeByte
  split
  · have := Int.emod_lt_of_pos (clampInteger value (-0x80) 0x7f) (by decide : (0 : ℤ) < 0x100)
    omega
  · have h1 := @clampInteger_le value 0 0xff (by decide)
    omega

theorem emitU32Words_u16 (hi lo : Nat) : ∀ word ∈ emitU32Words type hi lo, word ≤ 0xffff := by
  unfold emitU32Words
  intro word h
  split at h <;> (simp only [mem_cons, not_mem_nil, or_false] at h; omega)

theorem encodeValue_u16 : ∀ word ∈ encodeValue type value, word ≤ 0xffff := by
  intro word h
  cases type with
  | bool =>
    simp only [encodeValue, mem_singleton] at h
    split at h <;> omega
  | uint8 =>
    simp only [encodeValue, mem_singleton] at h
    have := @clampInteger_le value 0 0xff (by decide)
    omega
  | int8 =>
    simp only [encodeValue, mem_singleton] at h
    have := Int.emod_lt_of_pos (clampInteger value (-0x80) 0x7f) (by decide : (0 : ℤ) < 0x100)
    omega
  | uint16 =>
    simp only [encodeValue, mem_singleton] at h
    have := @clampInteger_le value 0 0xffff (by decide)
    omega
  | int16 =>
    simp only [encodeValue, mem_singleton] at h
    have := Int.emod_lt_of_pos (clampInteger value (-0x8000) 0x7fff) (by decide : (0 : ℤ) < 0x10000)
    omega
  | uint32Be | uint32Le | int32Be | int32Le | float32Be | float32Le =>
    exact emitU32Words_u16 _ _ _ word h

theorem encodeBytePairs_u16 : ∀ word ∈ encodeBytePairs type values, word ≤ 0xffff := by
  have hzero := encodeByte_lt type zeroValue
  induction values using encodeBytePairs.induct with
  | case1 =>
    intro word h
    cases h
  | case2 hi =>
    have hhi := encodeByte_lt type hi
    intro word h
    simp only [encodeBytePairs, mem_singleton] at h
    omega
  | case3 hi lo rest ih =>
    have hhi := encodeByte_lt type hi
    have hlo := encodeByte_lt type lo
    intro word h
    rcases mem_cons.mp h with h | h
    · omega
    · exact ih word h

theorem encodeValues_u16 : ∀ word ∈ encodeValues type values, word ≤ 0xffff := by
  unfold encodeValues
  intro word h
  split at h
  · exact encodeBytePairs_u16 type values word h
  · obtain ⟨value, _, hword⟩ := mem_flatMap.mp h
    exact encodeValue_u16 type value word hword

end bbcom.modbus_core
