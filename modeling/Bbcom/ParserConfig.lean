-- The configuration of the protocol parser: what a caller may pass, and what
-- the constructor makes of it. A validated configuration carries the bounds
-- that `validateAndCloneConfig` checked.
import Bbcom.Js

open bbcom.js

namespace bbcom.protocol_parser

/-! ## What a caller passes -/

inductive SmpParserTransport
  | serialConsole
  | rawUart
  deriving DecidableEq

inductive ParserConfig
  | delimiter (delimiter : List JsNumber) (includeDelimiter : Bool)
  | length (lengthOffset lengthSize : JsNumber) (bigEndian : Bool) (lengthAdjust : JsNumber)
  | fixed (frameSize : JsNumber)
  | mcumgrSmp (transport : SmpParserTransport) (maxPacketBytes reassemblyTimeoutMs : JsNumber)
  deriving DecidableEq

structure ProtocolParserOptions where
  maxPendingBytes : Option JsNumber

def DEFAULT_PROTOCOL_PARSER_MAX_PENDING_BYTES : Nat := 1024 * 1024
def MAX_LENGTH_FRAME_BYTES : Nat := DEFAULT_PROTOCOL_PARSER_MAX_PENDING_BYTES
def MAX_FIXED_FRAME_BYTES : Nat := 65535
def MAX_DELIMITER_BYTES : Nat := 256

/-! ## What the parser keeps -/

structure DelimiterConfig where
  delimiter : List UInt8
  includeDelimiter : Bool
  nonempty : delimiter ≠ []
  bounded : delimiter.length ≤ MAX_DELIMITER_BYTES

structure LengthConfig where
  lengthOffset : Nat
  lengthSize : Nat
  bigEndian : Bool
  lengthAdjust : Nat
  size_known : lengthSize = 1 ∨ lengthSize = 2 ∨ lengthSize = 4
  header_fits : lengthOffset + lengthSize ≤ MAX_LENGTH_FRAME_BYTES
  adjust_fits : lengthAdjust ≤ MAX_LENGTH_FRAME_BYTES

structure FixedConfig where
  frameSize : Nat
  positive : 1 ≤ frameSize
  bounded : frameSize ≤ MAX_FIXED_FRAME_BYTES

inductive ByteParserConfig
  | delimiter (config : DelimiterConfig)
  | length (config : LengthConfig)
  | fixed (config : FixedConfig)

/-- The bytes of a frame whose delimiter stands at `index`. -/
def DelimiterConfig.dataLength (c : DelimiterConfig) (index : Nat) : Nat :=
  if c.includeDelimiter then index + c.delimiter.length else index

/-- Where the length field ends, so the bytes needed to read it. -/
def LengthConfig.headerEnd (c : LengthConfig) : Nat := c.lengthOffset + c.lengthSize

theorem LengthConfig.headerEnd_pos (c : LengthConfig) : 0 < c.headerEnd := by
  have := c.size_known
  unfold LengthConfig.headerEnd
  omega

/-! ## The checks -/

def integerRangeError (name : String) (min max : Nat) : JsError :=
  .rangeError s!"{name} must be an integer between {min} and {max}"

/-- `assertIntegerRange`, with the integer that it lets through. -/
def assertIntegerRange (name : String) (value : JsNumber) (min max : Nat) :
    Except JsError { n : Nat // min ≤ n ∧ n ≤ max } :=
  match h : integerBetween value min max with
  | some n => .ok ⟨n, integerBetween_bounds h⟩
  | none => .error (integerRangeError name min max)

/-- The loop over the bytes of the delimiter, from index `i` on. -/
def assertDelimiterBytes : Nat → (values : List JsNumber) →
    Except JsError { bytes : List UInt8 // bytes.length = values.length }
  | _, [] => .ok ⟨[], rfl⟩
  | i, value :: values => do
    let byte ← assertIntegerRange s!"delimiter[{i}]" value 0 0xff
    let ⟨bytes, h⟩ ← assertDelimiterBytes (i + 1) values
    .ok ⟨UInt8.ofNat byte.val :: bytes, by simp [h]⟩

def validateDelimiterConfig (delimiter : List JsNumber) (includeDelimiter : Bool) :
    Except JsError DelimiterConfig :=
  if hlen : 1 ≤ delimiter.length ∧ delimiter.length ≤ MAX_DELIMITER_BYTES then do
    let ⟨bytes, h⟩ ← assertDelimiterBytes 0 delimiter
    .ok {
      delimiter := bytes, includeDelimiter
      nonempty := by rintro rfl; simp at h; omega
      bounded := by omega }
  else .error (integerRangeError "delimiter.length" 1 MAX_DELIMITER_BYTES)

/-- The three sizes of a length field, as the check of `lengthSize` lets them through. -/
def assertLengthSize (value : JsNumber) :
    Except JsError { n : Nat // n = 1 ∨ n = 2 ∨ n = 4 } :=
  if value = .finite 1 then .ok ⟨1, by simp⟩
  else if value = .finite 2 then .ok ⟨2, by simp⟩
  else if value = .finite 4 then .ok ⟨4, by simp⟩
  else .error (.rangeError "lengthSize must be 1, 2, or 4")

def validateLengthConfig (lengthOffset lengthSize : JsNumber) (bigEndian : Bool)
    (lengthAdjust : JsNumber) : Except JsError LengthConfig := do
  let ⟨size, hsize⟩ ← assertLengthSize lengthSize
  let ⟨offset, hoffset⟩ ← assertIntegerRange "lengthOffset" lengthOffset 0
    (MAX_LENGTH_FRAME_BYTES - size)
  let ⟨adjust, hadjust⟩ ← assertIntegerRange "lengthAdjust" lengthAdjust 0 MAX_LENGTH_FRAME_BYTES
  .ok {
    lengthOffset := offset, lengthSize := size, bigEndian, lengthAdjust := adjust
    size_known := hsize
    header_fits := by
      have : 4 ≤ MAX_LENGTH_FRAME_BYTES := by decide
      omega
    adjust_fits := hadjust.2 }

def validateFixedConfig (frameSize : JsNumber) : Except JsError FixedConfig := do
  let ⟨size, hsize⟩ ← assertIntegerRange "frameSize" frameSize 1 MAX_FIXED_FRAME_BYTES
  .ok { frameSize := size, positive := hsize.1, bounded := hsize.2 }

/-- The constructor turns the SMP configuration away before it validates the others. -/
def validateAndCloneConfig : ParserConfig → Except JsError ByteParserConfig
  | .mcumgrSmp _ _ _ => .error (.rangeError "mcumgr-smp config requires McumgrSmpParser")
  | .fixed frameSize => .fixed <$> validateFixedConfig frameSize
  | .delimiter delimiter includeDelimiter =>
    .delimiter <$> validateDelimiterConfig delimiter includeDelimiter
  | .length lengthOffset lengthSize bigEndian lengthAdjust =>
    .length <$> validateLengthConfig lengthOffset lengthSize bigEndian lengthAdjust

/-! ## The pending limit -/

/-- `Number.isFinite(limit) ? Math.max(1, Math.floor(limit)) : default`. -/
def normalizedLimit (requestedLimit : JsNumber) : Nat :=
  match requestedLimit with
  | .finite q => max 1 ⌊q⌋.toNat
  | .negativeZero => 1
  | _ => DEFAULT_PROTOCOL_PARSER_MAX_PENDING_BYTES

/-- The unframed bytes that the parser may hold. -/
def pendingLimit (config : ByteParserConfig) (options : ProtocolParserOptions) : Nat :=
  match config with
  | .delimiter c =>
    min DEFAULT_PROTOCOL_PARSER_MAX_PENDING_BYTES
      (max (normalizedLimit (options.maxPendingBytes.getD
        (.finite DEFAULT_PROTOCOL_PARSER_MAX_PENDING_BYTES))) c.delimiter.length)
  | _ => DEFAULT_PROTOCOL_PARSER_MAX_PENDING_BYTES

/-- The limit never gets below the delimiter, so that a delimiter can be found. -/
theorem delimiter_le_pendingLimit (c : DelimiterConfig) (options : ProtocolParserOptions) :
    c.delimiter.length ≤ pendingLimit (.delimiter c) options := by
  have hb := c.bounded
  have hm : MAX_DELIMITER_BYTES ≤ DEFAULT_PROTOCOL_PARSER_MAX_PENDING_BYTES := by decide
  simp only [pendingLimit]
  omega

end bbcom.protocol_parser
