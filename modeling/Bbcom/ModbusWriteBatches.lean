-- Write batching: the grouping of `buildModbusWriteBatches`, the coils and words that a
-- batch carries, and the wire requests of `modbus-request-builder.ts`.
import Bbcom.ModbusReadBatches
import Bbcom.ModbusTransport

open bbcom.js bbcom.modbus_core bbcom.modbus_transport bbcom.grouping

namespace bbcom.modbus_batches

inductive WriteKind
  | coil
  | register
  deriving DecidableEq

structure ModbusWriteBatch where
  slave : Nat
  kind : WriteKind
  fc : Nat
  start : Nat
  count : Nat
  rows : List ModbusRegister
  deriving DecidableEq

/-! ## Which rows are written, and in which order -/

/-- The three filters on the rows: a write function code, something to send, and for the
single-register write nothing wider than a word. -/
def eligible (reg : ModbusRegister) : Bool :=
  (reg.fc = 0x05 || reg.fc = 0x06 || reg.fc = 0x10) &&
    (modbusWriteRowValues reg).length > 0 &&
    (reg.fc ≠ 0x06 || writeRowSpan reg = 1)

def writeKindRank (reg : ModbusRegister) : Nat := if reg.fc = 0x05 then 0 else 1

/-- The comparison that the writable rows are sorted with: by slave, then coils before
registers, then by address, then by function code. -/
def writesBefore (a b : ModbusRegister) : Prop :=
  a.slaveAddress < b.slaveAddress ∨
    a.slaveAddress = b.slaveAddress ∧
      (writeKindRank a < writeKindRank b ∨ writeKindRank a = writeKindRank b ∧
        (a.address < b.address ∨ a.address = b.address ∧ a.fc ≤ b.fc))

instance : DecidableRel writesBefore := fun a b => by
  unfold writesBefore
  infer_instance

def writable (regs : List ModbusRegister) : List ModbusRegister :=
  (regs.filter eligible).insertionSort writesBefore

/-! ## Batches -/

def writeKind (reg : ModbusRegister) : WriteKind := if reg.fc = 0x05 then .coil else .register

def writeLimit : WriteKind → Nat
  | .coil => MODBUS_LIMITS.writeBits
  | .register => MODBUS_LIMITS.writeRegisters

def writeBatchFc (kind : WriteKind) (count requestedFc : Nat) : Nat :=
  match kind with
  | .coil => if count = 1 then 0x05 else 0x0f
  | .register => if requestedFc = 0x10 then 0x10 else 0x06

def canMergeWriteRows (last : ModbusWriteBatch) (reg : ModbusRegister) : Bool :=
  match last.kind with
  | .coil => reg.fc = 0x05
  | .register => last.fc = 0x10 && reg.fc = 0x10

/-- The batch that one row opens. -/
def rowWriteBatch (reg : ModbusRegister) : ModbusWriteBatch where
  slave := reg.slaveAddress
  kind := writeKind reg
  fc := writeBatchFc (writeKind reg) (writeRowSpan reg) reg.fc
  start := reg.address
  count := writeRowSpan reg
  rows := [reg]

/-- The batch with one more row, where the row may join it. -/
def extendWriteBatch (last : ModbusWriteBatch) (reg : ModbusRegister) :
    Option ModbusWriteBatch :=
  if last.slave = reg.slaveAddress ∧ last.kind = writeKind reg ∧ canMergeWriteRows last reg ∧
      last.start + last.count = reg.address ∧
      last.count + writeRowSpan reg ≤ writeLimit (writeKind reg) then
    some { last with
      count := last.count + writeRowSpan reg
      fc := writeBatchFc (writeKind reg) (last.count + writeRowSpan reg) reg.fc
      rows := last.rows ++ [reg] }
  else none

def writeGrouper : Grouper ModbusRegister ModbusWriteBatch := ⟨rowWriteBatch, extendWriteBatch⟩

def buildModbusWriteBatches (regs : List ModbusRegister) : List ModbusWriteBatch :=
  writeGrouper.group (writable regs)

/-! ## What a batch carries -/

/-- The words of one row. -/
def rowWords (reg : ModbusRegister) : List Nat := encodeValues reg.type (modbusWriteRowValues reg)

/-- The coils of one row. -/
def rowCoils (reg : ModbusRegister) : List Bool :=
  (modbusWriteRowValues reg).map fun value => value.toRat ≠ 0

def encodeModbusRegisterWriteValues (batch : ModbusWriteBatch) : List Nat :=
  if batch.kind = .register then batch.rows.flatMap rowWords else []

def encodeModbusCoilWriteValues (batch : ModbusWriteBatch) : List Bool :=
  if batch.kind = .coil then batch.rows.flatMap rowCoils else []

/-! ## Wire requests -/

structure ModbusWireRequest where
  wire : Uint8Array
  expectedLen : Option Nat

def expectedReadResponseLength (batch : ModbusReadBatch) (transport : ModbusTransport) :
    Option Nat :=
  if transport = .rtu then none
  else if isBitFc batch.fc then some (2 + (batch.count + 7) / 8)
  else some (2 + batch.count * 2)

def expectedWriteResponseLength (transport : ModbusTransport) : Option Nat :=
  if transport = .rtu then none else some 5

def buildModbusReadWireRequest (transport : ModbusTransport) (batch : ModbusReadBatch) :
    Except JsError ModbusWireRequest := do
  let wire ← readRequest transport batch.slave batch.fc batch.start batch.count
  .ok ⟨wire, expectedReadResponseLength batch transport⟩

/-- The first coil of an empty batch would be `undefined`, which counts as off. -/
def writeRequest (transport : ModbusTransport) (batch : ModbusWriteBatch) :
    Except JsError Uint8Array :=
  match batch.kind with
  | .coil =>
    let bits := encodeModbusCoilWriteValues batch
    if batch.fc = 0x05 then
      writeSingleCoilRequest transport batch.slave batch.start (bits.headD false)
    else writeMultipleCoilsRequest transport batch.slave batch.start bits
  | .register =>
    let values := encodeModbusRegisterWriteValues batch
    if batch.fc = 0x06 then
      writeSingleRegisterRequest transport batch.slave batch.start values.head?
    else writeMultipleRegistersRequest transport batch.slave batch.start values

def buildModbusWriteWireRequest (transport : ModbusTransport) (batch : ModbusWriteBatch) :
    Except JsError ModbusWireRequest := do
  let wire ← writeRequest transport batch
  .ok ⟨wire, expectedWriteResponseLength transport⟩

end bbcom.modbus_batches
