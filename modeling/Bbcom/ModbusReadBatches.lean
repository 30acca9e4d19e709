-- Read batching: the grouping and the splitting of `buildModbusReadBatches`, and the
-- mapping of `modbus-response-mapper.ts` from the answer to a batch back to its rows.
import Bbcom.Lib.Grouping
import Bbcom.ModbusRows

open bbcom.js bbcom.modbus_core bbcom.grouping

namespace bbcom.modbus_batches

/-! ## Batches -/

/-- A row of a batch, with its place in the window that the batch reads. -/
structure ReadRow where
  reg : ModbusRegister
  offset : Nat
  deriving DecidableEq

structure ModbusReadBatch where
  slave : Nat
  fc : Nat
  start : Nat
  count : Nat
  rows : List ReadRow
  deriving DecidableEq

/-- The comparison that the readable rows are sorted with: by slave, then by function code,
then by address. -/
def readsBefore (a b : ModbusRegister) : Prop :=
  a.slaveAddress < b.slaveAddress ∨
    a.slaveAddress = b.slaveAddress ∧
      (a.fc < b.fc ∨ a.fc = b.fc ∧ a.address ≤ b.address)

instance : DecidableRel readsBefore := fun a b => by
  unfold readsBefore
  infer_instance

def readable (regs : List ModbusRegister) : List ModbusRegister :=
  (regs.filter fun r => isReadFc r.fc).insertionSort readsBefore

/-- The batch that one row opens. A read of one row on demand sends the same batch. -/
def rowBatch (reg : ModbusRegister) : ModbusReadBatch where
  slave := reg.slaveAddress
  fc := reg.fc
  start := reg.address
  count := modbusReadRowCount reg
  rows := [⟨reg, 0⟩]

/-- The batch with one more row, where the row starts at the end of its window. -/
def extendReadBatch (last : ModbusReadBatch) (reg : ModbusRegister) : Option ModbusReadBatch :=
  if last.slave = reg.slaveAddress ∧ last.fc = reg.fc ∧
      last.start + last.count = reg.address then
    some { last with
      count := last.count + modbusReadRowCount reg
      rows := last.rows ++ [⟨reg, reg.address - last.start⟩] }
  else none

def readGrouper : Grouper ModbusRegister ModbusReadBatch := ⟨rowBatch, extendReadBatch⟩

/-! ## Splitting -/

/-- The inner loop of the split: the rows that still fit beside `used`, their offsets moved
back by `shift`, and what they use in all. -/
def takeRows (max shift : Nat) : Nat → List ReadRow → List ReadRow × Nat
  | used, [] => ([], used)
  | used, row :: rest =>
    let span := modbusReadRowCount row.reg
    if used + span > max then ([], used)
    else
      let (sliceRows, total) := takeRows max shift (used + span) rest
      (⟨row.reg, row.offset - shift⟩ :: sliceRows, total)

/-- The outer loop. Each turn takes a row at least, so that `fuel` may be the number of
rows. -/
def splitRows (batch : ModbusReadBatch) (max : Nat) :
    Nat → List ReadRow → Nat → List ModbusReadBatch
  | 0, _, _ => []
  | _, [], _ => []
  | fuel + 1, remaining, cursor =>
    let (sliceRows, used) := takeRows max (cursor - batch.start) 0 remaining
    { batch with start := cursor, count := used, rows := sliceRows } ::
      splitRows batch max fuel (remaining.drop sliceRows.length) (cursor + used)

def splitReadBatch (batch : ModbusReadBatch) : List ModbusReadBatch :=
  let max := readLimit batch.fc
  if batch.count ≤ max then [batch]
  else splitRows batch max batch.rows.length batch.rows batch.start

def buildModbusReadBatches (regs : List ModbusRegister) : List ModbusReadBatch :=
  (readGrouper.group (readable regs)).flatMap splitReadBatch

/-! ## Mapping a response -/

structure ModbusRegisterValueUpdate where
  id : String
  value : JsNumber
  values : Option (List JsNumber)
  valueTs : JsNumber
  deriving DecidableEq

structure ModbusSample where
  registerId : String
  channel : Nat
  value : JsNumber
  ts : JsNumber
  deriving DecidableEq

structure MappedModbusReadResponse where
  valueUpdates : List ModbusRegisterValueUpdate
  samples : List ModbusSample
  deriving DecidableEq

def emptyMapping : MappedModbusReadResponse := ⟨[], []⟩

def addValues (mapped : MappedModbusReadResponse) (registerId : String) (channel : Option Nat)
    (values : List JsNumber) (ts : JsNumber) : MappedModbusReadResponse :=
  match values with
  | [] => mapped
  | value :: rest =>
    { valueUpdates := mapped.valueUpdates ++
        [⟨registerId, value, if rest = [] then none else some values, ts⟩]
      samples := match channel with
        | some channel => mapped.samples ++ [⟨registerId, channel, value, ts⟩]
        | none => mapped.samples }

/-- The values of one row of a coil response. -/
def bitValues (bits : List Bool) (row : ReadRow) : List JsNumber :=
  ((bits.drop row.offset).take (modbusDataValueCount row.reg)).map
    fun bit => .finite (if bit then 1 else 0)

/-- The values of one row of a register response. -/
def registerValues (regs : List Nat) (row : ReadRow) : List JsNumber :=
  (decodeValues row.reg.type
    ((regs.drop row.offset).take (modbusReadRowCount row.reg))).take (modbusDataValueCount row.reg)

/-- `mapReadBits` and `mapReadRegisters`, which differ in the values of a row only. -/
def mapRows (values : ReadRow → List JsNumber) (rows : List ReadRow) (ts : JsNumber) :
    MappedModbusReadResponse :=
  rows.foldl (fun mapped row =>
    addValues mapped row.reg.id row.reg.waveformChannel (values row) ts) emptyMapping

def mapReadBits (batch : ModbusReadBatch) (bits : List Bool) (ts : JsNumber) :
    MappedModbusReadResponse :=
  mapRows (bitValues bits) batch.rows ts

def mapReadRegisters (batch : ModbusReadBatch) (regs : List Nat) (ts : JsNumber) :
    MappedModbusReadResponse :=
  mapRows (registerValues regs) batch.rows ts

def mapModbusReadResponse (batch : ModbusReadBatch) (response : ModbusResponse) (ts : JsNumber) :
    MappedModbusReadResponse :=
  match response with
  | .readBits _ _ bits => mapReadBits batch bits ts
  | .readRegs _ _ regs => mapReadRegisters batch regs ts
  | _ => emptyMapping

/-! ## The mapping, row by row -/

/-- What one row adds to the updates. -/
def updatesOf (values : List JsNumber) (reg : ModbusRegister) (ts : JsNumber) :
    List ModbusRegisterValueUpdate :=
  (addValues emptyMapping reg.id reg.waveformChannel values ts).valueUpdates

/-- What one row adds to the samples. -/
def samplesOf (values : List JsNumber) (reg : ModbusRegister) (ts : JsNumber) :
    List ModbusSample :=
  (addValues emptyMapping reg.id reg.waveformChannel values ts).samples

theorem addValues_eq (mapped : MappedModbusReadResponse) (reg : ModbusRegister)
    (values : List JsNumber) (ts : JsNumber) :
    addValues mapped reg.id reg.waveformChannel values ts =
      ⟨mapped.valueUpdates ++ updatesOf values reg ts,
        mapped.samples ++ samplesOf values reg ts⟩ := by
  cases values with
  | nil => simp [addValues, updatesOf, samplesOf, emptyMapping]
  | cons value rest =>
    cases h : reg.waveformChannel <;> simp [addValues, updatesOf, samplesOf, emptyMapping, h]

theorem mapRows_eq (values : ReadRow → List JsNumber) (rows : List ReadRow) (ts : JsNumber) :
    mapRows values rows ts =
      ⟨rows.flatMap fun row => updatesOf (values row) row.reg ts,
        rows.flatMap fun row => samplesOf (values row) row.reg ts⟩ := by
  induction rows using List.reverseRecOn with
  | nil => rfl
  | append_singleton rows row ih =>
    unfold mapRows at ih ⊢
    rw [List.foldl_append, ih, List.foldl_cons, List.foldl_nil, addValues_eq]
    simp

end bbcom.modbus_batches
