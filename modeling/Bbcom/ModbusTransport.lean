-- The transport of `modbus-transport.ts`: a PDU wrapped for the wire, and the scan that
-- cuts complete response frames out of the received bytes.
import Bbcom.ModbusCore

open bbcom.js bbcom.modbus_core

namespace bbcom.modbus_transport

inductive ModbusTransport
  | rtu
  | pdu
  deriving DecidableEq

/-! ## Sending -/

/-- The CRC goes behind the address and the PDU. -/
def withCrc (addrAndPdu : Uint8Array) : Uint8Array := addrAndPdu ++ crcBytes addrAndPdu

def frameRequest (transport : ModbusTransport) (slave : Nat) (pdu : Uint8Array) : Uint8Array :=
  match transport with
  | .pdu => pdu
  | .rtu => withCrc (UInt8.ofNat slave :: pdu)

def readRequest (transport : ModbusTransport) (slave fc start count : Nat) :
    Except JsError Uint8Array :=
  frameRequest transport slave <$> buildReadRequestPdu fc start count

def writeSingleCoilRequest (transport : ModbusTransport) (slave addr : Nat) (on : Bool) :
    Except JsError Uint8Array :=
  frameRequest transport slave <$> buildWriteSingleCoilPdu addr on

def writeSingleRegisterRequest (transport : ModbusTransport) (slave addr : Nat)
    (value : Option Nat) : Except JsError Uint8Array :=
  frameRequest transport slave <$> buildWriteSingleRegisterPdu addr value

def writeMultipleCoilsRequest (transport : ModbusTransport) (slave start : Nat)
    (bits : List Bool) : Except JsError Uint8Array :=
  frameRequest transport slave <$> buildWriteMultipleCoilsPdu start bits

def writeMultipleRegistersRequest (transport : ModbusTransport) (slave start : Nat)
    (values : List Nat) : Except JsError Uint8Array :=
  frameRequest transport slave <$> buildWriteMultipleRegistersPdu start values

/-! ## Receiving -/

structure ScanResult where
  frames : List Uint8Array
  remainder : Uint8Array
  deriving DecidableEq

/-- The length of the response that starts at the front of `buf`, by its function code and
its byte count. The scan looks only where five bytes are left, so both are there. -/
def rtuResponseLength (buf : Uint8Array) : Option Nat :=
  match buf[1]? with
  | none => none
  | some fc =>
    if fc &&& 0x80 ≠ 0 then some 5
    else if fc = 0x05 ∨ fc = 0x06 ∨ fc = 0x0f ∨ fc = 0x10 then some 8
    else if fc ≠ 0x01 ∧ fc ≠ 0x02 ∧ fc ≠ 0x03 ∧ fc ≠ 0x04 then none
    else
      match buf[2]? with
      | none => none
      | some byteCount =>
        if byteCount.toNat < 1 ∨ byteCount.toNat > 250 then none
        else if (fc = 0x03 ∨ fc = 0x04) ∧ byteCount.toNat % 2 ≠ 0 then none
        else some (byteCount.toNat + 5)

/-- The frame at the front of `buf`, when a whole one with a valid CRC stands there. -/
def rtuFrameAt (buf : Uint8Array) : Option Uint8Array :=
  match rtuResponseLength buf with
  | none => none
  | some length =>
    if length > buf.length then none
    else
      let frame := buf.take length
      if frame.drop (length - 2) = crcBytes (frame.take (length - 2)) then some frame else none

/-- The loop of the RTU scan, from `offset` on. Each turn moves `offset` by one at least, so
that `fuel` may be the length of the buffer. -/
def scanRtu (buf : Uint8Array) : Nat → Nat → Nat → List Uint8Array × Nat
  | 0, _, consumed => ([], consumed)
  | fuel + 1, offset, consumed =>
    if offset + 4 < buf.length then
      match rtuFrameAt (buf.drop offset) with
      | none => scanRtu buf fuel (offset + 1) consumed
      | some frame =>
        let end_ := offset + frame.length
        let (frames, consumed) := scanRtu buf fuel end_ end_
        (frame :: frames, consumed)
    else ([], consumed)

/-- The loop of the PDU scan. -/
def scanPdu (buf : Uint8Array) (expectedLength : Option Nat) :
    Nat → Nat → List Uint8Array × Nat
  | 0, offset => ([], offset)
  | fuel + 1, offset =>
    match buf[offset]? with
    | none => ([], offset)
    | some fc =>
      match (if fc &&& 0x80 ≠ 0 then some 2 else expectedLength) with
      | none => ([], offset)
      | some length =>
        if length < 1 ∨ length > 253 ∨ offset + length > buf.length then ([], offset)
        else
          let (frames, consumed) := scanPdu buf expectedLength fuel (offset + length)
          (buf.subarray offset (offset + length) :: frames, consumed)

def scanResponse (transport : ModbusTransport) (buf : Uint8Array) (expectedLength : Option Nat) :
    ScanResult :=
  let (frames, consumed) := match transport with
    | .pdu => scanPdu buf expectedLength buf.length 0
    | .rtu => scanRtu buf buf.length 0 0
  ⟨frames, buf.drop consumed⟩

/-- The slave of a response that carries none. -/
def PDU_DEFAULT_SLAVE : UInt8 := 1

def parseFrame (transport : ModbusTransport) (frame : Uint8Array) : Option ModbusResponse :=
  match transport with
  | .pdu => parseResponse false frame ⟨true, PDU_DEFAULT_SLAVE⟩
  | .rtu => parseResponse true frame ⟨false, 0⟩

end bbcom.modbus_transport
