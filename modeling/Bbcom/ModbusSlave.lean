-- What a slave on the bus is, apart from any code: four tables of coils and words, the
-- answer to a read request, and the effect of a write request.
import Bbcom.ModbusRows

open bbcom.modbus_core bbcom.modbus_batches

namespace bbcom.modbus_slave

open List UInt8

/-- A wire address has 16 bits. -/
def addressSpace : Nat := 0x10000

structure SlaveMemory where
  coils : Nat → Bool
  discreteInputs : Nat → Bool
  holdingRegisters : Nat → UInt16
  inputRegisters : Nat → UInt16

/-- The memories on the bus, by slave address. -/
abbrev Bus := Nat → SlaveMemory

namespace SlaveMemory

def bits (m : SlaveMemory) (fc : Nat) : Nat → Bool :=
  if fc = 0x01 then m.coils else m.discreteInputs

def words (m : SlaveMemory) (fc : Nat) : Nat → UInt16 :=
  if fc = 0x03 then m.holdingRegisters else m.inputRegisters

/-- The correct answer to a read, as the master reads it off the wire: coils fill up their
last byte, and a request that names no window of the tables gets an exception. -/
def answerRead (m : SlaveMemory) (slave fc start count : Nat) : ModbusResponse :=
  if count < 1 ∨ readLimit fc < count then
    .exception (ofNat slave) (ofNat fc ||| 0x80) 0x03
  else if addressSpace < start + count then
    .exception (ofNat slave) (ofNat fc ||| 0x80) 0x02
  else if isBitFc fc then
    .readBits (ofNat slave) (ofNat fc)
      ((range count).map (fun i => m.bits fc (start + i)) ++
        replicate (8 * ((count + 7) / 8) - count) false)
  else
    .readRegs (ofNat slave) (ofNat fc)
      ((range count).map fun i => (m.words fc (start + i)).toNat)

end SlaveMemory

/-! ## Writes -/

/-- The cells with `values` written from `start` on. -/
def writeCells {α : Type*} (cells : Nat → α) (start : Nat) (values : List α) : Nat → α :=
  fun a => if start ≤ a then values.getD (a - start) (cells a) else cells a

/-- A write to slave 0 goes to every slave. -/
def Bus.write (bus : Bus) (slave : Nat) (f : SlaveMemory → SlaveMemory) : Bus :=
  fun s => if slave = 0 ∨ s = slave then f (bus s) else bus s

def SlaveMemory.writeCoils (m : SlaveMemory) (start : Nat) (bits : List Bool) : SlaveMemory :=
  { m with coils := writeCells m.coils start bits }

def SlaveMemory.writeRegisters (m : SlaveMemory) (start : Nat) (words : List Nat) : SlaveMemory :=
  { m with holdingRegisters := writeCells m.holdingRegisters start (words.map UInt16.ofNat) }

/-- Two writes side by side are one write. -/
theorem writeCells_append {α : Type*} (cells : Nat → α) (start : Nat) (xs ys : List α) :
    writeCells cells start (xs ++ ys) =
      writeCells (writeCells cells start xs) (start + xs.length) ys := by
  funext a
  unfold writeCells
  by_cases hstart : start ≤ a
  · rw [if_pos hstart, if_pos hstart]
    by_cases hmid : start + xs.length ≤ a
    · rw [if_pos hmid, getD_append_right _ _ _ _ (by omega), getD_eq_default xs _ (by omega)]
      congr 1
      omega
    · rw [if_neg hmid, getD_append _ _ _ _ (by omega)]
  · have hmid : ¬start + xs.length ≤ a := by omega
    rw [if_neg hstart, if_neg hmid, if_neg hstart]

theorem Bus.write_write (bus : Bus) (slave : Nat) (f g : SlaveMemory → SlaveMemory) :
    (bus.write slave f).write slave g = bus.write slave (g ∘ f) := by
  funext s
  unfold Bus.write
  by_cases h : slave = 0 ∨ s = slave
  · simp [h]
  · simp [h]

/-! ## Windows -/

/-- A window inside a window that was read is read at its own addresses. -/
theorem window_slice {α : Type*} (cell : Nat → α) (start count offset n : Nat) (tail : List α)
    (h : offset + n ≤ count) :
    (((range count).map (fun i => cell (start + i)) ++ tail).drop offset).take n =
      (range n).map fun i => cell (start + offset + i) := by
  apply ext_getElem?
  intro i
  rw [getElem?_take]
  split
  · rename_i hi
    have hcount : offset + i < count := by omega
    rw [getElem?_drop, getElem?_append_left (by simpa using hcount)]
    simp [hcount, hi, Nat.add_assoc]
  · rename_i hi
    rw [getElem?_eq_none (by simpa using hi)]

end bbcom.modbus_slave
