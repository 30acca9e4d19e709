-- The laws of the read batches: no row is lost or doubled, each batch keeps to the limit of
-- its function code, and a row gets out of a batch what a read of the row alone gives.
import Bbcom.ModbusReadBatches
import Bbcom.ModbusSlave

open bbcom.js bbcom.modbus_core bbcom.modbus_slave

namespace bbcom.modbus_batches

open List ReadRow List

/-! ## Rows that tile a window -/

/-- What the rows read in all. -/
def totalSpan (rows : List ReadRow) : Nat := (rows.map fun row => modbusReadRowCount row.reg).sum

/-- The rows stand one after the other from `offset` on, each at its own address. -/
def Tiles (start : Nat) : Nat → List ReadRow → Prop
  | _, [] => True
  | offset, row :: rest =>
    row.offset = offset ∧ start + offset = row.reg.address ∧
      Tiles start (offset + modbusReadRowCount row.reg) rest

@[simp] theorem totalSpan_nil : totalSpan [] = 0 := rfl

@[simp] theorem totalSpan_cons (row : ReadRow) (rest : List ReadRow) :
    totalSpan (row :: rest) = modbusReadRowCount row.reg + totalSpan rest := by
  simp [totalSpan]

@[simp] theorem totalSpan_append (xs ys : List ReadRow) :
    totalSpan (xs ++ ys) = totalSpan xs + totalSpan ys := by
  simp [totalSpan]

theorem tiles_append (start : Nat) (xs ys : List ReadRow) (offset : Nat) :
    Tiles start offset (xs ++ ys) ↔
      Tiles start offset xs ∧ Tiles start (offset + totalSpan xs) ys := by
  induction xs generalizing offset with
  | nil => simp [Tiles]
  | cons row rest ih => simp [Tiles, ih, and_assoc, Nat.add_assoc]

variable {rows : List ReadRow} {b : ModbusReadBatch}

variable {start offset : Nat} {row : ReadRow}

/-- The place of one row among rows that tile a window. -/
theorem tiles_mem (h : Tiles start offset rows) (hrow : row ∈ rows) :
    start + row.offset = row.reg.address ∧ offset ≤ row.offset ∧
      row.offset + modbusReadRowCount row.reg ≤ offset + totalSpan rows := by
  induction rows generalizing offset with
  | nil => cases hrow
  | cons first rest ih =>
    obtain ⟨h1, h2, h3⟩ := h
    rw [totalSpan_cons]
    rcases mem_cons.mp hrow with rfl | hrow
    · refine ⟨by omega, by omega, by omega⟩
    · obtain ⟨ha, hb, hc⟩ := ih h3 hrow
      exact ⟨ha, by omega, by omega⟩

/-- The window ends where its last row ends. -/
theorem tiles_end (h : Tiles start offset rows) (hne : rows ≠ []) :
    ∃ row ∈ rows, start + offset + totalSpan rows =
      row.reg.address + modbusReadRowCount row.reg := by
  induction rows generalizing offset with
  | nil => exact absurd rfl hne
  | cons first rest ih =>
    obtain ⟨h1, h2, h3⟩ := h
    rw [totalSpan_cons]
    by_cases hrest : rest = []
    · subst hrest
      exact ⟨first, by simp, by simp; omega⟩
    · obtain ⟨row, hrow, he⟩ := ih h3 hrest
      exact ⟨row, mem_cons_of_mem _ hrow, by omega⟩

/-- A row of a window that starts `shift` further on. -/
def ReadRow.moveBack (shift : Nat) (row : ReadRow) : ReadRow := ⟨row.reg, row.offset - shift⟩

@[simp] theorem ReadRow.moveBack_reg (shift : Nat) (row : ReadRow) :
    (row.moveBack shift).reg = row.reg := rfl

@[simp] theorem totalSpan_moveBack (shift : Nat) (rows : List ReadRow) :
    totalSpan (rows.map (moveBack shift)) = totalSpan rows := by
  simp [totalSpan, Function.comp_def]

theorem tiles_moveBack {shift : Nat} (h : Tiles start (shift + offset) rows) :
    Tiles (start + shift) offset (rows.map (moveBack shift)) := by
  induction rows generalizing offset with
  | nil => trivial
  | cons row rest ih =>
    obtain ⟨h1, h2, h3⟩ := h
    refine ⟨?_, ?_, ih (by rw [← Nat.add_assoc]; exact h3)⟩
    · simp only [moveBack]
      omega
    · simp only [moveBack_reg]
      omega

/-! ## Batches that hold their rows in place -/

/-- What every batch keeps: it has rows, they come from one slave and one table, and they
tile the window that it reads. -/
structure InPlace (b : ModbusReadBatch) : Prop where
  rows_nonempty : b.rows ≠ []
  one_source : ∀ row ∈ b.rows, row.reg.slaveAddress = b.slave ∧ row.reg.fc = b.fc
  tiled : Tiles b.start 0 b.rows
  count_eq : b.count = totalSpan b.rows

def regsOf (b : ModbusReadBatch) : List ModbusRegister := b.rows.map reg

theorem rowBatch_inPlace (reg : ModbusRegister) : InPlace (rowBatch reg) where
  rows_nonempty := by simp [rowBatch]
  one_source row hrow := by
    simp only [rowBatch, mem_singleton] at hrow
    subst hrow
    exact ⟨rfl, rfl⟩
  tiled := ⟨rfl, rfl, trivial⟩
  count_eq := by simp [rowBatch]

theorem extendReadBatch_inPlace {last grown : ModbusReadBatch} {reg : ModbusRegister}
    (h : InPlace last) (hext : extendReadBatch last reg = some grown) : InPlace grown := by
  unfold extendReadBatch at hext
  split at hext
  · rename_i hjoin
    obtain ⟨hslave, hfc, hadj⟩ := hjoin
    cases hext
    have hcount := h.count_eq
    refine ⟨by simp, ?_, ?_, ?_⟩
    · intro row hrow
      rcases mem_append.mp hrow with hrow | hrow
      · exact h.one_source row hrow
      · rw [mem_singleton.mp hrow]
        exact ⟨hslave.symm, hfc.symm⟩
    · rw [tiles_append]
      refine ⟨h.tiled, ?_, ?_, trivial⟩
      · show reg.address - last.start = 0 + totalSpan last.rows
        omega
      · show last.start + (0 + totalSpan last.rows) = reg.address
        omega
    · simp [hcount]
  · cases hext

variable (regs : List ModbusRegister)

theorem grouped_inPlace : ∀ b ∈ readGrouper.group regs, InPlace b :=
  readGrouper.group_forall (fun _ => True) (fun reg _ => rowBatch_inPlace reg)
    (fun _ _ _ _ h hext => extendReadBatch_inPlace h hext) regs (fun _ _ => trivial)

theorem grouped_regs : (readGrouper.group regs).flatMap regsOf = regs := by
  rw [readGrouper.flatMap_group regsOf (fun reg => [reg]) (fun reg => rfl) ?_ regs]
  · simp
  · intro last reg grown hext
    simp only [readGrouper, extendReadBatch] at hext
    split at hext
    · cases hext
      simp [regsOf]
    · cases hext

/-! ## The split -/

/-- The inner loop takes rows off the front as long as they fit, and one at least where the
first one does. -/
theorem takeRows_spec (max shift : Nat) (rows : List ReadRow) (used : Nat) (hused : used ≤ max) :
    ∃ taken rest, rows = taken ++ rest ∧
      takeRows max shift used rows = (taken.map (moveBack shift), used + totalSpan taken) ∧
      used + totalSpan taken ≤ max ∧
      (∀ row ∈ rows.head?, used + modbusReadRowCount row.reg ≤ max → taken ≠ []) := by
  induction rows generalizing used with
  | nil => exact ⟨[], [], rfl, rfl, hused, fun row hrow => by cases hrow⟩
  | cons row rest ih =>
    by_cases hfit : used + modbusReadRowCount row.reg > max
    · refine ⟨[], row :: rest, rfl, ?_, hused, ?_⟩
      · simp [takeRows, hfit]
      · intro r hr hle
        simp only [head?_cons, Option.mem_some_iff] at hr
        subst hr
        omega
    · obtain ⟨taken, rest', hrows, htake, hle, _⟩ :=
        ih (used + modbusReadRowCount row.reg) (by omega)
      refine ⟨row :: taken, rest', by rw [hrows]; rfl, ?_, ?_, fun _ _ _ => by simp⟩
      · simp only [takeRows, hfit, if_false, htake]
        simp [moveBack, Nat.add_assoc]
      · rw [totalSpan_cons]
        omega

/-- Both loops together: the pieces keep their rows in place and within the limit, and hold
the rows that are left, in order. -/
theorem splitRows_spec (b : ModbusReadBatch) (max : Nat)
    (hsource : ∀ row ∈ b.rows, row.reg.slaveAddress = b.slave ∧ row.reg.fc = b.fc)
    (hfit : ∀ row ∈ b.rows, modbusReadRowCount row.reg ≤ max)
    (fuel : Nat) (remaining : List ReadRow) (offset : Nat) (hfuel : remaining.length ≤ fuel)
    (hmem : ∀ row ∈ remaining, row ∈ b.rows) (htiles : Tiles b.start offset remaining) :
    (∀ piece ∈ splitRows b max fuel remaining (b.start + offset),
      InPlace piece ∧ piece.count ≤ max ∧ piece.fc = b.fc) ∧
    (splitRows b max fuel remaining (b.start + offset)).flatMap regsOf =
      remaining.map reg := by
  induction fuel generalizing remaining offset with
  | zero =>
    have : remaining = [] := length_eq_zero_iff.mp (by omega)
    subst this
    exact ⟨fun piece hpiece => (by cases hpiece), rfl⟩
  | succ fuel ih =>
    rcases remaining with _ | ⟨row, rows⟩
    · exact ⟨fun piece hpiece => (by cases hpiece), rfl⟩
    · obtain ⟨taken, rest, hrows, htake, hle, hprogress⟩ :=
        takeRows_spec max offset (row :: rows) 0 (Nat.zero_le _)
      have hne : taken ≠ [] :=
        hprogress row (by simp) (by have := hfit row (hmem row (by simp)); omega)
      have hstep : splitRows b max (fuel + 1) (row :: rows) (b.start + offset) =
          { b with
            start := b.start + offset, count := totalSpan taken
            rows := taken.map (moveBack offset) } ::
          splitRows b max fuel rest (b.start + (offset + totalSpan taken)) := by
        have hdrop : (row :: rows).drop (taken.map (moveBack offset)).length = rest := by
          rw [hrows, length_map, drop_left]
        simp only [splitRows, Nat.add_sub_cancel_left, htake, hdrop, Nat.zero_add, Nat.add_assoc]
      rw [hstep, hrows, flatMap_cons, map_append]
      rw [hrows] at htiles hmem hfuel
      have htaken := (tiles_append _ _ _ _).mp htiles
      have hlen : 0 < taken.length := length_pos_iff.mpr hne
      obtain ⟨hpieces, hregs⟩ := ih rest (offset + totalSpan taken)
        (by simp only [length_append] at hfuel; omega)
        (fun r hr => hmem r (mem_append_right _ hr)) htaken.2
      refine ⟨?_, ?_⟩
      · intro piece hpiece
        rcases mem_cons.mp hpiece with rfl | hpiece
        · refine ⟨⟨by simpa using hne, ?_, ?_, by simp⟩, by simpa using hle, rfl⟩
          · intro r hr
            obtain ⟨r', hr', rfl⟩ := mem_map.mp hr
            exact hsource r' (hmem r' (mem_append_left _ hr'))
          · exact tiles_moveBack (by simpa using htaken.1)
        · exact hpieces piece hpiece
      · rw [hregs]
        simp [regsOf, Function.comp_def]

theorem splitReadBatch_spec (h : InPlace b) :
    (∀ piece ∈ splitReadBatch b, InPlace piece ∧ piece.count ≤ readLimit piece.fc) ∧
      (splitReadBatch b).flatMap regsOf = regsOf b := by
  unfold splitReadBatch
  dsimp only
  by_cases hcount : b.count ≤ readLimit b.fc
  · rw [if_pos hcount]
    refine ⟨?_, by simp⟩
    intro piece hpiece
    rw [mem_singleton.mp hpiece]
    exact ⟨h, hcount⟩
  · have hfit : ∀ row ∈ b.rows, modbusReadRowCount row.reg ≤ readLimit b.fc := by
      intro row hrow
      rw [← (h.one_source row hrow).2]
      exact modbusReadRowCount_le row.reg
    rw [if_neg hcount]
    have hspec := splitRows_spec b (readLimit b.fc) h.one_source hfit b.rows.length b.rows 0
      (Nat.le_refl _) (fun _ hr => hr) h.tiled
    refine ⟨?_, hspec.2⟩
    intro piece hpiece
    obtain ⟨hok, hle, hfc⟩ := hspec.1 piece hpiece
    rw [hfc]
    exact ⟨hok, hle⟩

theorem built_inPlace {regs : List ModbusRegister} (h : b ∈ buildModbusReadBatches regs) :
    InPlace b ∧ b.count ≤ readLimit b.fc := by
  obtain ⟨group, hgroup, hb⟩ := mem_flatMap.mp h
  exact (splitReadBatch_spec (grouped_inPlace _ group hgroup)).1 b hb

/-- The batches hold the sorted readable rows, in that order. -/
theorem built_regs : (buildModbusReadBatches regs).flatMap regsOf = readable regs := by
  unfold buildModbusReadBatches
  rw [flatMap_assoc]
  calc (readGrouper.group (readable regs)).flatMap (fun b => (splitReadBatch b).flatMap regsOf)
      = (readGrouper.group (readable regs)).flatMap regsOf :=
        flatMap_congr fun b hb => (splitReadBatch_spec (grouped_inPlace _ b hb)).2
    _ = readable regs := grouped_regs _

/-! ## Reading through a batch -/

/-- The slave's answer to a batch, mapped back to the rows. -/
def readBatch (bus : Bus) (b : ModbusReadBatch) (ts : JsNumber) : MappedModbusReadResponse :=
  mapModbusReadResponse b ((bus b.slave).answerRead b.slave b.fc b.start b.count) ts

/-- A row whose own window ends inside the address space. -/
def InAddressSpace (reg : ModbusRegister) : Prop :=
  reg.address + modbusReadRowCount reg ≤ addressSpace

/-- The values that the memory holds for a row. -/
def rowValues (m : SlaveMemory) (reg : ModbusRegister) : List JsNumber :=
  if isBitFc reg.fc then
    (range (modbusDataValueCount reg)).map fun i =>
      .finite (if m.bits reg.fc (reg.address + i) then 1 else 0)
  else
    (decodeValues reg.type ((range (modbusReadRowCount reg)).map fun i =>
      (m.words reg.fc (reg.address + i)).toNat)).take (modbusDataValueCount reg)

theorem InPlace.end_le (h : InPlace b) (hrows : ∀ row ∈ b.rows, InAddressSpace row.reg) :
    b.start + b.count ≤ addressSpace := by
  obtain ⟨row, hrow, he⟩ := tiles_end h.tiled h.rows_nonempty
  have hend : row.reg.address + modbusReadRowCount row.reg ≤ addressSpace := hrows row hrow
  have hcount := h.count_eq
  omega

/-- Each row of a batch finds its values in the answer to the batch. -/
theorem InPlace.bitValues_eq (h : InPlace b) (hbit : isBitFc b.fc) (m : SlaveMemory)
    (tail : List Bool) (hrow : row ∈ b.rows) :
    bitValues ((range b.count).map (fun i => m.bits b.fc (b.start + i)) ++ tail) row =
      rowValues m row.reg := by
  obtain ⟨haddr, _, hspan⟩ := tiles_mem h.tiled hrow
  have hfc := (h.one_source row hrow).2
  have hcell := h.count_eq
  have hcount : modbusReadRowCount row.reg = modbusDataValueCount row.reg := by
    simp [modbusReadRowCount, hfc, hbit]
  unfold bitValues rowValues
  rw [window_slice _ _ _ _ _ _ (by omega), hfc, if_pos hbit, haddr]
  simp

theorem InPlace.registerValues_eq (h : InPlace b) (hbit : ¬isBitFc b.fc) (m : SlaveMemory)
    (hrow : row ∈ b.rows) :
    registerValues ((range b.count).map fun i => (m.words b.fc (b.start + i)).toNat) row =
      rowValues m row.reg := by
  obtain ⟨haddr, _, hspan⟩ := tiles_mem h.tiled hrow
  have hfc := (h.one_source row hrow).2
  have hcell := h.count_eq
  have hwindow := window_slice (fun a => (m.words b.fc a).toNat) b.start b.count row.offset
    (modbusReadRowCount row.reg) [] (by omega)
  rw [append_nil] at hwindow
  unfold registerValues rowValues
  rw [hwindow, hfc, if_neg hbit, haddr]

/-- A batch gives each row the values that the memory holds for it. -/
theorem InPlace.readBatch_eq (h : InPlace b) (hpos : 1 ≤ b.count)
    (hlimit : b.count ≤ readLimit b.fc) (hend : b.start + b.count ≤ addressSpace) (bus : Bus)
    (ts : JsNumber) :
    readBatch bus b ts =
      ⟨b.rows.flatMap fun row => updatesOf (rowValues (bus b.slave) row.reg) row.reg ts,
        b.rows.flatMap fun row => samplesOf (rowValues (bus b.slave) row.reg) row.reg ts⟩ := by
  have hquantity : ¬(b.count < 1 ∨ readLimit b.fc < b.count) := by omega
  have hspace : ¬addressSpace < b.start + b.count := by omega
  unfold readBatch SlaveMemory.answerRead
  rw [if_neg hquantity, if_neg hspace]
  by_cases hbit : isBitFc b.fc
  · rw [if_pos hbit]
    simp only [mapModbusReadResponse, mapReadBits, mapRows_eq]
    congr 1
    · exact flatMap_congr fun row hrow => by rw [h.bitValues_eq hbit _ _ hrow]
    · exact flatMap_congr fun row hrow => by rw [h.bitValues_eq hbit _ _ hrow]
  · rw [if_neg hbit]
    simp only [mapModbusReadResponse, mapReadRegisters, mapRows_eq]
    congr 1
    · exact flatMap_congr fun row hrow => by rw [h.registerValues_eq hbit _ hrow]
    · exact flatMap_congr fun row hrow => by rw [h.registerValues_eq hbit _ hrow]

theorem InPlace.count_pos (h : InPlace b) : 1 ≤ b.count := by
  obtain ⟨row, hrow⟩ := exists_mem_of_ne_nil _ h.rows_nonempty
  obtain ⟨_, _, hspan⟩ := tiles_mem h.tiled hrow
  have hpos := modbusReadRowCount_pos row.reg
  have hcount := h.count_eq
  omega

/-- A row that is read alone gets the values that the memory holds for it. -/
theorem readBatch_rowBatch (bus : Bus) (reg : ModbusRegister) (h : InAddressSpace reg)
    (ts : JsNumber) :
    readBatch bus (rowBatch reg) ts =
      ⟨updatesOf (rowValues (bus reg.slaveAddress) reg) reg ts,
        samplesOf (rowValues (bus reg.slaveAddress) reg) reg ts⟩ := by
  rw [(rowBatch_inPlace reg).readBatch_eq (modbusReadRowCount_pos reg)
    (modbusReadRowCount_le reg) h]
  simp [rowBatch]

/-! ## The whole table -/

/-- A row at the last address whose value takes two words. -/
def lastAddressRow : ModbusRegister where
  id := "last"
  slaveAddress := 1
  functionCode := .readHoldingRegisters
  address := 65535
  quantity := none
  type := .uint32Be
  waveformChannel := none
  value := none
  values := none
  slave_in_range := one_is_a_slave
  address_in_range := by decide

/-- Nothing keeps a batch inside the address space when a row of the table leaves it. -/
theorem a_row_at_the_end_leaves_the_address_space :
    ∃ b ∈ buildModbusReadBatches [lastAddressRow], addressSpace < b.start + b.count :=
  ⟨rowBatch lastAddressRow, by decide +kernel, by decide +kernel⟩

/-- Batching is invisible: every readable row stands in one batch at its own place, every
batch keeps to its limit, and a batch whose rows end inside the address space ends there too
and gives every one of its rows what a read of that row alone gives. -/
theorem batched_reads_are_the_single_reads (regs : List ModbusRegister) :
    ((buildModbusReadBatches regs).flatMap regsOf).Perm (regs.filter fun r => isReadFc r.fc) ∧
    ∀ b ∈ buildModbusReadBatches regs, 1 ≤ b.count ∧ b.count ≤ readLimit b.fc ∧
      (∀ row ∈ b.rows, row.reg.slaveAddress = b.slave ∧ row.reg.fc = b.fc ∧
        b.start + row.offset = row.reg.address) ∧
      ((∀ row ∈ b.rows, InAddressSpace row.reg) → b.start + b.count ≤ addressSpace ∧
        ∀ (bus : Bus) (ts : JsNumber), (readBatch bus b ts).valueUpdates =
            b.rows.flatMap (fun row => (readBatch bus (rowBatch row.reg) ts).valueUpdates) ∧
          (readBatch bus b ts).samples =
            b.rows.flatMap fun row => (readBatch bus (rowBatch row.reg) ts).samples) := by
  constructor
  · rw [built_regs]
    exact perm_insertionSort _ _
  · intro b hb
    obtain ⟨hplace, hlimit⟩ := built_inPlace hb
    refine ⟨hplace.count_pos, hlimit, ?_, ?_⟩
    · intro row hrow
      obtain ⟨hslave, hfc⟩ := hplace.one_source row hrow
      exact ⟨hslave, hfc, (tiles_mem hplace.tiled hrow).1⟩
    · intro hrows
      have hend := hplace.end_le hrows
      refine ⟨hend, fun bus ts => ?_⟩
      rw [hplace.readBatch_eq hplace.count_pos hlimit hend]
      constructor
      · refine flatMap_congr fun row hrow => ?_
        rw [readBatch_rowBatch bus row.reg (hrows row hrow), (hplace.one_source row hrow).1]
      · refine flatMap_congr fun row hrow => ?_
        rw [readBatch_rowBatch bus row.reg (hrows row hrow), (hplace.one_source row hrow).1]

/-- A row for one word. -/
def wordRow (id : String) (address : Nat) (h : address ≤ 0xffff) : ModbusRegister where
  id
  slaveAddress := 1
  functionCode := .readHoldingRegisters
  address
  quantity := none
  type := .uint16
  waveformChannel := none
  value := none
  values := none
  slave_in_range := one_is_a_slave
  address_in_range := h

/-- A bus where every word holds its own address. -/
def addressBus : Bus := fun _ => ⟨fun _ => false, fun _ => false, UInt16.ofNat, UInt16.ofNat⟩

/-- Two rows side by side, given in the wrong order, share one request. -/
theorem two_words_share_a_batch :
    let first := wordRow "first" 10 (by decide)
    let second := wordRow "second" 11 (by decide)
    let b : ModbusReadBatch := ⟨1, 3, 10, 2, [⟨first, 0⟩, ⟨second, 1⟩]⟩
    b ∈ buildModbusReadBatches [second, first] ∧ b.start + b.count ≤ addressSpace ∧
      (readBatch addressBus b (.finite 0)).valueUpdates =
        b.rows.flatMap fun row =>
          (readBatch addressBus (rowBatch row.reg) (.finite 0)).valueUpdates := by
  intro first second b
  have hb : b ∈ buildModbusReadBatches [second, first] := by decide +kernel
  have hrows : ∀ row ∈ b.rows, InAddressSpace row.reg := by
    intro row hrow
    unfold InAddressSpace
    revert row hrow
    decide +kernel
  obtain ⟨hend, hread⟩ := ((batched_reads_are_the_single_reads [second, first]).2 b hb).2.2.2 hrows
  exact ⟨hb, hend, (hread addressBus (.finite 0)).1⟩

end bbcom.modbus_batches
