-- The records that the SMP parser makes of messages and of transport errors
-- (`mcumgr-smp-parser.ts`), and what it reads off bytes and off a decoded CBOR payload.
import Bbcom.Base64
import Bbcom.SmpMetadata

open bbcom.js

namespace bbcom.smp

/-! ## Bytes -/

def SMP_HEADER_BYTES : Nat := 8

def readU16 (bytes : Uint8Array) (offset : Nat) : Nat :=
  (bytes.getD offset 0).toNat * 0x100 + (bytes.getD (offset + 1) 0).toNat

/-- One turn of the loop over the bits. -/
def crcBit (crc : Nat) : Nat :=
  if crc &&& 0x8000 ≠ 0 then ((crc <<< 1) ^^^ 0x1021) &&& 0xffff else (crc <<< 1) &&& 0xffff

def crc16Xmodem (bytes : Uint8Array) : Nat :=
  bytes.foldl (fun crc byte => Nat.iterate crcBit 8 (crc ^^^ (byte.toNat <<< 8))) 0

/-- The check value of the algorithm, the CRC of "123456789". -/
example : crc16Xmodem [0x31, 0x32, 0x33, 0x34, 0x35, 0x36, 0x37, 0x38, 0x39] = 0x31C3 := by
  decide +kernel

def hexDigits (n : Nat) : List Char := Nat.toDigits 16 n

def hex16 (value : Nat) : String :=
  String.ofList (((hexDigits value).map Char.toUpper).leftpad 4 '0')

/-- The characters of the label 'ascii', which stands for windows-1252, from 0x80 to 0x9F. -/
def WINDOWS_1252 : List Nat :=
  [0x20AC, 0x81, 0x201A, 0x192, 0x201E, 0x2026, 0x2020, 0x2021, 0x2C6, 0x2030, 0x160, 0x2039,
    0x152, 0x8D, 0x17D, 0x8F, 0x90, 0x2018, 0x2019, 0x201C, 0x201D, 0x2022, 0x2013, 0x2014,
    0x2DC, 0x2122, 0x161, 0x203A, 0x153, 0x9D, 0x17E, 0x178]

/-- `ASCII.decode`. -/
def asciiDecode (bytes : Uint8Array) : List Char :=
  bytes.map fun byte =>
    let n := byte.toNat
    Char.ofNat (if 0x80 ≤ n ∧ n ≤ 0x9F then WINDOWS_1252.getD (n - 0x80) 0 else n)

/-- The characters that `\s` matches and that a byte can decode to. -/
def isSpace (c : Char) : Bool :=
  c.toNat ∈ [0x09, 0x0A, 0x0B, 0x0C, 0x0D, 0x20, 0xA0]

/-! ## CBOR -/

inductive CborNode
  | null
  | undefined
  | boolean (value : Bool)
  | number (value : JsNumber)
  | bigint (value : Int)
  | string (value : String)
  | bytes (value : Uint8Array)
  | array (items : List CborNode)
  | map (entries : List (CborNode × CborNode))

inductive CborDecodeResult
  | ok (value : CborNode)
  | error (reason : String)

/-- What comes from outside of the parser: the CBOR decoder, which rests on a library, and the
text that the language has for a number. -/
structure Runtime where
  decodeBoundedSmpCbor : Uint8Array → CborDecodeResult
  numberToString : JsNumber → String

def CborNode.isKey (key : String) : CborNode → Bool
  | .string candidate => candidate = key
  | _ => false

def cborMapValue (map : Option CborNode) (key : String) : Option CborNode :=
  match map with
  | some (.map entries) => (entries.find? (·.1.isKey key)).map (·.2)
  | _ => none

/-- `cborInteger`, with its comparison to zero and its text. -/
def cborInteger (runtime : Runtime) (value : Option CborNode) : Option (Bool × String) :=
  match value with
  | some (.number n) => some (n = .finite 0 ∨ n = .negativeZero, runtime.numberToString n)
  | some (.bigint n) => some (n = 0, toString n)
  | _ => none

def cborText (value : Option CborNode) : Option String :=
  match value with
  | some (.string text) => some text
  | _ => none

def describeRemoteError (runtime : Runtime) (cbor : Option CborNode) : Option String :=
  let err := cborMapValue cbor "err"
  let group := cborInteger runtime (cborMapValue err "group")
  let ofRc : Option String :=
    match cborInteger runtime (cborMapValue cbor "rc") with
    | none => none
    | some (true, _) => none
    | some (false, rc) =>
      match cborText (cborMapValue cbor "rsn") with
      | some reason =>
        if reason = "" then some s!"Remote error rc={rc}"
        else some s!"Remote error rc={rc} ({reason})"
      | none => some s!"Remote error rc={rc}"
  match cborInteger runtime (cborMapValue err "rc") with
  | some (false, groupRc) =>
    match group with
    | none => some s!"Remote group error rc={groupRc}"
    | some (_, group) => some s!"Remote group error group={group} rc={groupRc}"
  | _ => ofRc

/-! ## Records -/

inductive Direction
  | TX
  | RX
  deriving DecidableEq

def Direction.text : Direction → String
  | .TX => "TX"
  | .RX => "RX"

inductive SmpParserTransport
  | serialConsole
  | rawUart
  deriving DecidableEq

inductive Severity
  | warning
  | error
  deriving DecidableEq

structure SmpDiagnostic where
  code : String
  severity : Severity
  message : String
  offset : Option Nat
  length : Option Nat
  deriving DecidableEq

inductive SmpStatus
  | ok
  | warning
  | error
  | pending
  deriving DecidableEq

inductive CrcStatus
  | valid
  | invalid
  | notApplicable
  | unknown
  deriving DecidableEq

structure SmpByteRange where
  offset : Nat
  length : Nat
  deriving DecidableEq

structure SmpRanges where
  transport : Option SmpByteRange
  header : Option SmpByteRange
  payload : Option SmpByteRange
  deriving DecidableEq

structure SmpHeader where
  version : Nat
  versionBits : Nat
  op : Nat
  opName : String
  opNameZh : String
  requestResponse : SmpRequestResponse
  flags : Nat
  dataLength : Nat
  group : Nat
  groupName : String
  groupNameZh : String
  sequence : Nat
  command : Nat
  commandName : String
  commandNameZh : String
  deriving DecidableEq

/-- The number `n` of an id stands for `smp-n`. -/
structure SmpRecord where
  id : Nat
  direction : Direction
  timestamp : Int
  captureSeq : Option Nat
  data : Uint8Array
  length : Nat
  offset : Nat
  endOffset : Nat
  status : SmpStatus
  summary : String
  diagnostics : List SmpDiagnostic
  transport : SmpParserTransport
  crcStatus : CrcStatus
  transportData : Option Uint8Array
  header : Option SmpHeader
  cbor : Option CborNode
  requestId : Option Nat
  responseId : Option Nat
  rttMs : Option Int
  ranges : SmpRanges

/-- `statusFor` with the fallback 'ok' or 'pending', as `isPending` says. -/
def statusFor (diagnostics : List SmpDiagnostic) (isPending : Bool) : SmpStatus :=
  if diagnostics.any (·.severity = .error) then .error
  else if diagnostics.any (·.severity = .warning) then .warning
  else if isPending then .pending
  else .ok

def KNOWN_GROUPS : List Nat := [0, 1, 2, 3, 8, 9, 10, 11, 63]

/-! ## Reading a message -/

def readHeader (message : Uint8Array) : SmpHeader :=
  let byte0 := (message.getD 0 0).toNat
  let versionBits := byte0 / 8 % 4
  let op := byte0 % 8
  let group := readU16 message 4
  let command := (message.getD 7 0).toNat
  { version := versionBits + 1
    versionBits
    op
    opName := smpOpName op
    opNameZh := smpOpNameZh op
    requestResponse := smpRequestResponse op
    flags := (message.getD 1 0).toNat
    dataLength := readU16 message 2
    group
    groupName := smpGroupName group
    groupNameZh := smpGroupNameZh group
    sequence := (message.getD 6 0).toNat
    command
    commandName := smpCommandName group command
    commandNameZh := smpCommandNameZh group command }

/-- A warning about `length` bytes of the header. -/
def headerWarning (code message : String) (offset length : Nat) : SmpDiagnostic :=
  ⟨code, .warning, message, some offset, some length⟩

/-- What `decodeMessage` finds wrong with a header. -/
def headerDiagnostics (byte0 : Nat) (header : SmpHeader) : List SmpDiagnostic :=
  let reserved := byte0 / 32
  (if reserved ≠ 0 then
    [headerWarning "smp.header.reserved" s!"SMP reserved bits are non-zero ({reserved})" 0 1]
  else []) ++
  (if 1 < header.versionBits then
    [headerWarning "smp.header.version"
      s!"SMP version bits {header.versionBits} are reserved" 0 1]
  else []) ++
  (if 3 < header.op then
    [headerWarning "smp.header.op" s!"SMP operation {header.op} is unknown" 0 1]
  else []) ++
  (if header.flags ≠ 0 then
    let digits := String.ofList ((hexDigits header.flags).leftpad 2 '0')
    [headerWarning "smp.header.flags" s!"SMP flags 0x{digits} are not defined" 1 1]
  else []) ++
  (if header.group ∉ KNOWN_GROUPS then
    if 64 ≤ header.group then
      [headerWarning "smp.header.custom-group" s!"SMP user group {header.group}" 4 2]
    else [headerWarning "smp.header.unknown-group" s!"SMP group {header.group} is unknown" 4 2]
  else if !isKnownSmpCommand header.group header.command then
    [headerWarning "smp.header.unknown-command"
      s!"SMP command {header.command} is unknown for group {header.group}" 7 1]
  else [])

end bbcom.smp
