-- The rows of the register table, and what `modbus-batches.ts` reads off one row:
-- how many values it stands for, and how many coils or words these take.
import Bbcom.ModbusCore

open bbcom.js bbcom.modbus_core

namespace bbcom.modbus_batches

open MODBUS_LIMITS

/-- The function codes that a row can have. -/
inductive ModbusFunctionCode
  | readCoils | readDiscreteInputs | readHoldingRegisters | readInputRegisters
  | writeSingleCoil | writeSingleRegister | writeMultipleRegisters
  deriving DecidableEq

def ModbusFunctionCode.code : ModbusFunctionCode → Nat
  | .readCoils => 0x01
  | .readDiscreteInputs => 0x02
  | .readHoldingRegisters => 0x03
  | .readInputRegisters => 0x04
  | .writeSingleCoil => 0x05
  | .writeSingleRegister => 0x06
  | .writeMultipleRegisters => 0x10

/-- A row of the register table. `normalizeModbusRegister`, which every row passes on its way
into a table, keeps the two addresses in their ranges. -/
structure ModbusRegister where
  id : String
  slaveAddress : Nat
  functionCode : ModbusFunctionCode
  address : Nat
  quantity : Option JsNumber
  type : ModbusValueType
  waveformChannel : Option Nat
  value : Option JsNumber
  values : Option (List JsNumber)
  slave_in_range : slaveAddress ≤ 247
  address_in_range : address ≤ 0xffff
  deriving DecidableEq

theorem one_is_a_slave : 1 ≤ 247 := by decide

theorem zero_is_an_address : 0 ≤ 0xffff := by decide

namespace ModbusRegister

/-- The number of the function code. -/
def fc (reg : ModbusRegister) : Nat := reg.functionCode.code

end ModbusRegister

/-- `clampInt`: what is no finite number becomes the least value. -/
def clampInt (value : Option JsNumber) (min max : Nat) : Nat :=
  let n : ℤ := match value with
    | some (.finite q) => ⌊q⌋
    | some .negativeZero => 0
    | _ => min
  (Max.max (min : ℤ) (Min.min (max : ℤ) n)).toNat

/-- The quantity that `normalizeModbusRegister` gives a row. -/
def normalizeModbusQuantity (raw : Option JsNumber) (functionCode : ModbusFunctionCode)
    (type : ModbusValueType) : Nat :=
  let max := match functionCode with
    | .readCoils | .readDiscreteInputs => readBits
    | .readHoldingRegisters | .readInputRegisters =>
      maxValueCountForRegisters type readRegisters
    | .writeMultipleRegisters => maxValueCountForRegisters type writeRegisters
    | .writeSingleCoil | .writeSingleRegister => 1
  clampInt raw 1 max

/-- A row as a session holds it. Its quantity is what `normalizeModbusQuantity` makes of it: a row
that is added or changed passes `normalizeModbusRegister`, and a stored one with another quantity
is refused (`projectModbusRegisterRow`). -/
structure NormalizedRegister extends ModbusRegister where
  quantity_normal : ∀ raw ∈ quantity,
    raw = .finite (normalizeModbusQuantity (some raw) functionCode type)

/-- How many typed values the row stands for. -/
def modbusDataValueCount (reg : ModbusRegister) : Nat :=
  let max :=
    if isBitFc reg.fc then readBits
    else if reg.fc = 0x10 then maxValueCountForRegisters reg.type writeRegisters
    else if isReadFc reg.fc then maxValueCountForRegisters reg.type readRegisters
    else 1
  clampInt reg.quantity 1 max

/-- The limit on one read, for a row and for a batch. -/
def readLimit (fc : Nat) : Nat :=
  if isBitFc fc then readBits else readRegisters

/-- How many coils or words a read of the row asks for. -/
def modbusReadRowCount (reg : ModbusRegister) : Nat :=
  let max := readLimit reg.fc
  let dataCount := modbusDataValueCount reg
  if isBitFc reg.fc then dataCount else min max (registerCountForValues reg.type dataCount)

/-- The values that a row is ready to send, none when it is not. -/
def modbusWriteRowValues (reg : ModbusRegister) : List FiniteNumber :=
  let count := modbusDataValueCount reg
  let single :=
    if reg.fc = 0x10 ∧ count > 1 then []
    else (finiteNumbers reg.value.toList)
  match reg.values with
  | none => single
  | some values =>
    let values := finiteNumbers values
    if reg.fc = 0x10 then if values.length ≥ count then values.take count else []
    else if values.length > 0 then values.take count
    else single

/-- How many coils or words a write of the row carries. -/
def writeRowSpan (reg : ModbusRegister) : Nat :=
  let values := modbusWriteRowValues reg
  if reg.fc = 0x05 then values.length else (encodeValues reg.type values).length

/-! ## Bounds of one row -/

theorem clampInt_bounds (value : Option JsNumber) {min max : Nat} (h : min ≤ max) :
    min ≤ clampInt value min max ∧ clampInt value min max ≤ max := by
  unfold clampInt
  generalize (match value with
    | some (.finite q) => ⌊q⌋
    | some .negativeZero => 0
    | _ => (min : ℤ)) = n
  dsimp only
  omega

theorem maxValueCountForRegisters_pos (type : ModbusValueType) {limit : Nat} (h : 2 ≤ limit) :
    1 ≤ maxValueCountForRegisters type limit := by
  cases type <;> simp [maxValueCountForRegisters, isByteValueType, registerSpan] <;> omega

theorem modbusDataValueCount_pos (reg : ModbusRegister) : 1 ≤ modbusDataValueCount reg := by
  refine (clampInt_bounds _ ?_).1
  split
  · decide
  · split
    · exact maxValueCountForRegisters_pos _ (by decide)
    · split
      · exact maxValueCountForRegisters_pos _ (by decide)
      · exact Nat.le_refl 1

theorem registerCountForValues_pos (type : ModbusValueType) (count : Nat) :
    1 ≤ registerCountForValues type count := by
  cases type <;> simp [registerCountForValues, isByteValueType, registerSpan] <;> omega

theorem readLimit_pos (fc : Nat) : 1 ≤ readLimit fc := by
  unfold readLimit
  split <;> decide

theorem modbusReadRowCount_pos (reg : ModbusRegister) : 1 ≤ modbusReadRowCount reg := by
  unfold modbusReadRowCount
  dsimp only
  split
  · exact modbusDataValueCount_pos reg
  · exact le_min (readLimit_pos _) (registerCountForValues_pos _ _)

theorem modbusReadRowCount_le (reg : ModbusRegister) :
    modbusReadRowCount reg ≤ readLimit reg.fc := by
  unfold modbusReadRowCount
  dsimp only
  split
  · rename_i h
    unfold modbusDataValueCount readLimit
    rw [if_pos h, if_pos h]
    exact (clampInt_bounds _ (by decide)).2
  · exact min_le_left _ _

end bbcom.modbus_batches
