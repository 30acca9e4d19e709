-- The laws of the write batches: no eligible row is lost or doubled, a batch carries what it
-- says, and batched writes leave the memory that writes one by one leave.
import Bbcom.ModbusWriteBatches
import Bbcom.ModbusSlave

open bbcom.js bbcom.modbus_core bbcom.modbus_slave bbcom.modbus_transport

namespace bbcom.modbus_batches

open List MODBUS_LIMITS ModbusWriteBatch

/-! ## Eligible rows -/

variable {reg : ModbusRegister} {b : ModbusWriteBatch} {regs : List ModbusRegister}

theorem eligible_cases (h : eligible reg) :
    (reg.fc = 0x05 ∨ reg.fc = 0x06 ∨ reg.fc = 0x10) ∧ 0 < (modbusWriteRowValues reg).length ∧
      (reg.fc = 0x06 → writeRowSpan reg = 1) := by
  simp only [eligible, Bool.and_eq_true, Bool.or_eq_true, decide_eq_true_eq] at h
  obtain ⟨⟨hfc, hvalues⟩, hsingle⟩ := h
  refine ⟨by tauto, hvalues, ?_⟩
  intro hsix
  rcases hsingle with hne | hone
  · exact absurd hsix hne
  · exact hone

theorem rowWords_length (reg : ModbusRegister) (h : reg.fc ≠ 0x05) :
    (rowWords reg).length = writeRowSpan reg := by
  unfold rowWords writeRowSpan
  rw [if_neg h]

theorem rowCoils_length (reg : ModbusRegister) (h : reg.fc = 0x05) :
    (rowCoils reg).length = writeRowSpan reg := by
  unfold rowCoils writeRowSpan
  rw [if_pos h, length_map]

theorem writeRowSpan_pos (h : eligible reg) : 0 < writeRowSpan reg := by
  obtain ⟨_, hvalues, _⟩ := eligible_cases h
  unfold writeRowSpan
  dsimp only
  split
  · exact hvalues
  · have hspan := registerSpan_pos reg.type
    rw [length_encodeValues]
    split
    · omega
    · exact Nat.mul_pos hvalues hspan

theorem modbusWriteRowValues_length_le (reg : ModbusRegister) :
    (modbusWriteRowValues reg).length ≤ modbusDataValueCount reg := by
  have hpos := modbusDataValueCount_pos reg
  have hsingle : (if reg.fc = 0x10 ∧ modbusDataValueCount reg > 1 then []
      else finiteNumbers reg.value.toList).length ≤ modbusDataValueCount reg := by
    split
    · exact Nat.zero_le _
    · have hfilter : (finiteNumbers reg.value.toList).length ≤ reg.value.toList.length :=
        length_filterMap_le _ _
      have hone : reg.value.toList.length ≤ 1 := by
        cases reg.value <;> simp
      omega
  unfold modbusWriteRowValues
  cases reg.values with
  | none => exact hsingle
  | some values =>
    dsimp only
    split
    · split
      · exact length_take_le _ _
      · exact Nat.zero_le _
    · split
      · exact length_take_le _ _
      · exact hsingle

/-- A register row fits in one request, whatever its type and its quantity. -/
theorem writeRowSpan_le (h : eligible reg) (hreg : reg.fc ≠ 0x05) :
    writeRowSpan reg ≤ writeRegisters := by
  obtain ⟨hfc, _, hsingle⟩ := eligible_cases h
  rcases hfc with hfc | hfc | hfc
  · exact absurd hfc hreg
  · rw [hsingle hfc]
    decide
  · have hlen := modbusWriteRowValues_length_le reg
    have hcount : modbusDataValueCount reg ≤
        maxValueCountForRegisters reg.type writeRegisters := by
      unfold modbusDataValueCount
      simp only [hfc, isBitFc]
      exact (clampInt_bounds _ (maxValueCountForRegisters_pos _ (by decide))).2
    unfold writeRowSpan
    rw [if_neg hreg, length_encodeValues]
    revert hcount
    cases reg.type <;>
      simp [maxValueCountForRegisters, isByteValueType, registerSpan, writeRegisters] <;> omega

/-! ## Executing batches -/

/-- A batch writes what it carries from its start on. -/
def executeWrite (bus : Bus) (b : ModbusWriteBatch) : Bus :=
  bus.write b.slave fun m =>
    match b.kind with
    | .coil => m.writeCoils b.start (encodeModbusCoilWriteValues b)
    | .register => m.writeRegisters b.start (encodeModbusRegisterWriteValues b)

def executeWrites (bus : Bus) (batches : List ModbusWriteBatch) : Bus :=
  batches.foldl executeWrite bus

/-! ## Batches that carry what they say -/

/-- What every batch keeps. The last field says that the batch does to the bus what its rows
do one after the other. -/
structure Carries (b : ModbusWriteBatch) : Prop where
  rows_eligible : ∀ row ∈ b.rows, eligible row
  one_kind : ∀ row ∈ b.rows, writeKind row = b.kind
  count_eq : b.count = (b.rows.map writeRowSpan).sum
  count_pos : 0 < b.count
  start_u16 : b.start ≤ 0xffff
  coil_fc : b.kind = .coil → b.fc = if b.count = 1 then 0x05 else 0x0f
  register_fc : b.kind = .register → b.fc = 0x10 ∨ b.fc = 0x06 ∧ b.count = 1
  register_count : b.kind = .register → b.count ≤ writeRegisters
  one_by_one : ∀ bus, executeWrite bus b =
    b.rows.foldl (fun bus row => executeWrite bus (rowWriteBatch row)) bus

theorem writeKind_eq_coil : writeKind reg = .coil ↔ reg.fc = 0x05 := by
  unfold writeKind
  split <;> simp [*]

theorem writeKind_eq_register : writeKind reg = .register ↔ reg.fc ≠ 0x05 := by
  unfold writeKind
  split <;> simp [*]

theorem sum_length_flatMap {α β : Type*} (f : α → List β) (g : α → Nat) (xs : List α)
    (h : ∀ x ∈ xs, (f x).length = g x) : (xs.flatMap f).length = (xs.map g).sum := by
  rw [length_flatMap]
  congr 1
  exact map_congr_left h

theorem Carries.coils_length (h : Carries b) (hkind : b.kind = .coil) :
    (encodeModbusCoilWriteValues b).length = b.count := by
  rw [encodeModbusCoilWriteValues, if_pos hkind, h.count_eq]
  refine sum_length_flatMap _ _ _ fun row hrow => rowCoils_length row ?_
  rw [← writeKind_eq_coil, h.one_kind row hrow, hkind]

theorem Carries.words_length (h : Carries b) (hkind : b.kind = .register) :
    (encodeModbusRegisterWriteValues b).length = b.count := by
  rw [encodeModbusRegisterWriteValues, if_pos hkind, h.count_eq]
  refine sum_length_flatMap _ _ _ fun row hrow => rowWords_length row ?_
  rw [← writeKind_eq_register, h.one_kind row hrow, hkind]

theorem encodeModbusRegisterWriteValues_u16 (b : ModbusWriteBatch) :
    ∀ word ∈ encodeModbusRegisterWriteValues b, word ≤ 0xffff := by
  intro word h
  unfold encodeModbusRegisterWriteValues at h
  split at h
  · obtain ⟨row, _, hword⟩ := mem_flatMap.mp h
    exact encodeValues_u16 _ _ word hword
  · cases h

theorem rowWriteBatch_carries (h : eligible reg) : Carries (rowWriteBatch reg) where
  rows_eligible row hrow := by
    rw [mem_singleton.mp hrow]
    exact h
  one_kind row hrow := by
    rw [mem_singleton.mp hrow]
    rfl
  count_eq := by simp [rowWriteBatch]
  count_pos := writeRowSpan_pos h
  start_u16 := reg.address_in_range
  coil_fc hkind := by
    have hkind : writeKind reg = .coil := hkind
    simp [rowWriteBatch, hkind, writeBatchFc]
  register_fc hkind := by
    have hkind : writeKind reg = .register := hkind
    obtain ⟨hfc, _, hsingle⟩ := eligible_cases h
    rw [writeKind_eq_register] at hkind
    rcases hfc with hfc | hfc | hfc
    · exact absurd hfc hkind
    · exact .inr ⟨by simp [rowWriteBatch, writeKind, writeBatchFc, hfc], hsingle hfc⟩
    · exact .inl (by simp [rowWriteBatch, writeKind, writeBatchFc, hfc])
  register_count hkind := writeRowSpan_le h (writeKind_eq_register.mp hkind)
  one_by_one bus := rfl

/-- A row that joins a batch writes right behind it. -/
theorem executeWrite_extend {last grown : ModbusWriteBatch} (h : Carries last)
    (hext : extendWriteBatch last reg = some grown) (bus : Bus) :
    executeWrite bus grown = executeWrite (executeWrite bus last) (rowWriteBatch reg) := by
  unfold extendWriteBatch at hext
  split at hext
  · rename_i hjoin
    obtain ⟨hslave, hkind, _, hadj, _⟩ := hjoin
    cases hext
    unfold executeWrite
    show bus.write last.slave _ = (bus.write last.slave _).write reg.slaveAddress _
    rw [← hslave, Bus.write_write]
    congr 1
    funext m
    cases hcoil : last.kind with
    | coil =>
      have hlen := h.coils_length hcoil
      simp only [encodeModbusCoilWriteValues, hcoil, if_true] at hlen
      have hreg : writeKind reg = .coil := by rw [← hkind, hcoil]
      simp only [encodeModbusCoilWriteValues, rowWriteBatch, hreg, hcoil, if_true, flatMap_append,
        flatMap_cons, flatMap_nil, append_nil, Function.comp_apply, SlaveMemory.writeCoils]
      rw [writeCells_append, hlen, hadj]
    | register =>
      have hlen := h.words_length hcoil
      simp only [encodeModbusRegisterWriteValues, hcoil, if_true] at hlen
      have hreg : writeKind reg = .register := by rw [← hkind, hcoil]
      simp only [encodeModbusRegisterWriteValues, rowWriteBatch, hreg, hcoil, if_true,
        flatMap_append, flatMap_cons, flatMap_nil, append_nil,
        Function.comp_apply, SlaveMemory.writeRegisters, map_append]
      rw [writeCells_append, length_map, hlen, hadj]
  · cases hext

theorem extendWriteBatch_carries {last grown : ModbusWriteBatch} (hreg : eligible reg)
    (h : Carries last) (hext : extendWriteBatch last reg = some grown) : Carries grown := by
  have hexec := executeWrite_extend h hext
  unfold extendWriteBatch at hext
  split at hext
  · rename_i hjoin
    obtain ⟨_, hkind, hmerge, _, hlimit⟩ := hjoin
    cases hext
    have hpos := h.count_pos
    have hspan := writeRowSpan_pos hreg
    refine ⟨?_, ?_, ?_, ?_, h.start_u16, ?_, ?_, ?_, ?_⟩
    · intro row hrow
      rcases mem_append.mp hrow with hrow | hrow
      · exact h.rows_eligible row hrow
      · rw [mem_singleton.mp hrow]
        exact hreg
    · intro row hrow
      rcases mem_append.mp hrow with hrow | hrow
      · exact h.one_kind row hrow
      · rw [mem_singleton.mp hrow]
        exact hkind.symm
    · simp [h.count_eq]
    · show 0 < last.count + writeRowSpan reg
      omega
    · intro hcoil
      have hcoil : last.kind = .coil := hcoil
      simp [← hkind, hcoil, writeBatchFc]
    · intro hregister
      have hregister : last.kind = .register := hregister
      simp only [canMergeWriteRows, hregister, Bool.and_eq_true, decide_eq_true_eq] at hmerge
      left
      simp [← hkind, hregister, writeBatchFc, hmerge.2]
    · intro hregister
      have hregister : last.kind = .register := hregister
      rw [← hkind, hregister] at hlimit
      exact hlimit
    · intro bus
      rw [hexec bus, List.foldl_append, h.one_by_one bus]
      rfl
  · cases hext

theorem eligible_of_mem_writable (h : reg ∈ writable regs) : reg ∈ regs ∧ eligible reg :=
  mem_filter.mp ((perm_insertionSort _ _).mem_iff.mp h)

theorem built_carries (regs : List ModbusRegister) :
    ∀ b ∈ buildModbusWriteBatches regs, Carries b :=
  writeGrouper.group_forall (fun reg => eligible reg) (fun _ h => rowWriteBatch_carries h)
    (fun _ _ _ hreg h hext => extendWriteBatch_carries hreg h hext) _
    (fun _ h => (eligible_of_mem_writable h).2)

/-- The batches hold the sorted eligible rows, in that order. -/
theorem built_rows (regs : List ModbusRegister) :
    (buildModbusWriteBatches regs).flatMap rows = writable regs := by
  unfold buildModbusWriteBatches
  rw [writeGrouper.flatMap_group rows (fun reg => [reg]) (fun reg => rfl)]
  · simp
  · intro last reg grown hext
    simp only [writeGrouper, extendWriteBatch] at hext
    split at hext
    · cases hext
      rfl
    · cases hext

/-! ## The wire requests -/

theorem assertU16_ok (name : String) {value : Nat} (h : value ≤ 0xffff) :
    assertU16 name (some value) = .ok value := by
  simp [assertU16, h]

theorem mapM_assertU16_ok (name : String) (values : List Nat)
    (h : ∀ value ∈ values, value ≤ 0xffff) :
    values.mapM (fun value => assertU16 name (some value)) = .ok values := by
  induction values with
  | nil => rfl
  | cons value values ih =>
    rw [mapM_cons, assertU16_ok name (h value (by simp)), ih fun v hv => h v (mem_cons_of_mem _ hv)]
    rfl

/-- The request builder takes a batch that keeps to the limit of its kind. -/
theorem Carries.accepted (h : Carries b) (hlimit : b.count ≤ writeLimit b.kind)
    (transport : ModbusTransport) :
    ∃ request, buildModbusWriteWireRequest transport b = .ok request := by
  have hpos := h.count_pos
  unfold buildModbusWriteWireRequest writeRequest
  cases hkind : b.kind with
  | coil =>
    have hlen := h.coils_length hkind
    rw [hkind] at hlimit
    have hquantity : 1 ≤ b.count ∧ b.count ≤ writeBits := ⟨hpos, hlimit⟩
    dsimp only
    by_cases hfc : b.fc = 0x05
    · rw [if_pos hfc]
      simp only [writeSingleCoilRequest, buildWriteSingleCoilPdu, assertU16_ok _ h.start_u16]
      exact ⟨_, rfl⟩
    · rw [if_neg hfc]
      simp only [writeMultipleCoilsRequest, buildWriteMultipleCoilsPdu,
        assertU16_ok _ h.start_u16, assertQuantity, hlen, if_pos hquantity]
      exact ⟨_, rfl⟩
  | register =>
    have hlen := h.words_length hkind
    rw [hkind] at hlimit
    have hquantity : 1 ≤ b.count ∧ b.count ≤ writeRegisters := ⟨hpos, hlimit⟩
    have hwords := encodeModbusRegisterWriteValues_u16 b
    dsimp only
    by_cases hfc : b.fc = 0x06
    · rw [if_pos hfc]
      cases hvalues : encodeModbusRegisterWriteValues b with
      | nil =>
        rw [hvalues] at hlen
        simp only [length_nil] at hlen
        omega
      | cons word words =>
        have hword : word ≤ 0xffff := hwords word (by simp [hvalues])
        simp only [List.head?_cons, writeSingleRegisterRequest, buildWriteSingleRegisterPdu,
          assertU16_ok _ h.start_u16, assertU16_ok _ hword]
        exact ⟨_, rfl⟩
    · rw [if_neg hfc]
      simp only [writeMultipleRegistersRequest, buildWriteMultipleRegistersPdu,
        assertU16_ok _ h.start_u16, assertQuantity, hlen, if_pos hquantity,
        mapM_assertU16_ok _ _ hwords]
      exact ⟨_, rfl⟩

/-! ## The whole table -/

/-- What write batching promises for a table: each eligible row stands in one batch, a batch
carries as many items as it says and no more than one request may, the request builder takes
it on both transports, and the batches leave the memory that the rows leave when they are
sent alone, in the sorted order. -/
structure SoundWrites (regs : List ModbusRegister) : Prop where
  rows_once : ((buildModbusWriteBatches regs).flatMap rows).Perm
    (regs.filter eligible)
  carried : ∀ b ∈ buildModbusWriteBatches regs,
    (b.kind = .coil → (encodeModbusCoilWriteValues b).length = b.count) ∧
      (b.kind = .register → (encodeModbusRegisterWriteValues b).length = b.count)
  within_limit : ∀ b ∈ buildModbusWriteBatches regs, 1 ≤ b.count ∧ b.count ≤ writeLimit b.kind
  accepted : ∀ b ∈ buildModbusWriteBatches regs, ∀ transport,
    ∃ request, buildModbusWriteWireRequest transport b = .ok request
  same_memory : ∀ bus, executeWrites bus (buildModbusWriteBatches regs) =
    (writable regs).foldl (fun bus reg => executeWrites bus (buildModbusWriteBatches [reg])) bus

theorem buildModbusWriteBatches_single (h : eligible reg) :
    buildModbusWriteBatches [reg] = [rowWriteBatch reg] := by
  have hone : writable [reg] = [reg] := by simp [writable, h]
  unfold buildModbusWriteBatches
  rw [hone]
  rfl

theorem executeWrites_built (regs : List ModbusRegister) (bus : Bus) :
    executeWrites bus (buildModbusWriteBatches regs) =
      (writable regs).foldl (fun bus reg => executeWrite bus (rowWriteBatch reg)) bus := by
  rw [← built_rows regs]
  have hcarries := built_carries regs
  generalize buildModbusWriteBatches regs = batches at hcarries ⊢
  induction batches generalizing bus with
  | nil => rfl
  | cons b batches ih =>
    rw [flatMap_cons, List.foldl_append, ← (hcarries b (by simp)).one_by_one bus]
    exact ih (executeWrite bus b) fun c hc => hcarries c (mem_cons_of_mem _ hc)

theorem same_memory_built (regs : List ModbusRegister) (bus : Bus) :
    executeWrites bus (buildModbusWriteBatches regs) =
      (writable regs).foldl (fun bus reg => executeWrites bus (buildModbusWriteBatches [reg]))
        bus := by
  rw [executeWrites_built]
  refine foldl_ext _ _ _ fun bus reg hreg => ?_
  rw [buildModbusWriteBatches_single (eligible_of_mem_writable hreg).2]
  rfl

/-- A coil row of a session sends one coil. -/
theorem NormalizedRegister.coil_count (reg : NormalizedRegister) (hfc : reg.fc = 0x05) :
    modbusDataValueCount reg.toModbusRegister = 1 := by
  have hcode : reg.functionCode = .writeSingleCoil := by
    revert hfc
    unfold ModbusRegister.fc
    cases reg.functionCode <;> decide
  unfold modbusDataValueCount
  rw [hfc]
  rcases hquantity : reg.quantity with _ | raw
  · rfl
  · have hraw := reg.quantity_normal raw (by simp [hquantity])
    have hbounds := clampInt_bounds (some raw) (Nat.le_refl 1)
    have hone : normalizeModbusQuantity (some raw) reg.functionCode reg.type = 1 := by
      rw [hcode]
      exact Nat.le_antisymm hbounds.2 hbounds.1
    rw [hraw, hone]
    rfl

theorem NormalizedRegister.writeRowSpan_le (reg : NormalizedRegister)
    (h : eligible reg.toModbusRegister) :
    writeRowSpan reg.toModbusRegister ≤ writeLimit (writeKind reg.toModbusRegister) := by
  by_cases hfc : reg.fc = 0x05
  · rw [writeKind_eq_coil.mpr hfc]
    unfold writeRowSpan
    rw [if_pos hfc]
    have hlen := modbusWriteRowValues_length_le reg.toModbusRegister
    rw [reg.coil_count hfc] at hlen
    exact hlen.trans (by decide)
  · rw [writeKind_eq_register.mpr hfc]
    exact modbus_batches.writeRowSpan_le h hfc

theorem within_limit_built (regs : List NormalizedRegister) :
    ∀ b ∈ buildModbusWriteBatches (regs.map (·.toModbusRegister)), b.count ≤ writeLimit b.kind := by
  refine writeGrouper.group_forall (fun reg => writeRowSpan reg ≤ writeLimit (writeKind reg))
    (fun _ hspan => hspan) ?_ _ fun reg hreg => ?_
  · intro last reg grown _ _ hext
    simp only [writeGrouper, extendWriteBatch] at hext
    split at hext
    · rename_i hjoin
      obtain ⟨_, hkind, _, _, hlimit⟩ := hjoin
      cases hext
      rw [← hkind] at hlimit
      exact hlimit
    · cases hext
  · obtain ⟨hmem, heligible⟩ := eligible_of_mem_writable hreg
    obtain ⟨row, -, rfl⟩ := mem_map.mp hmem
    exact row.writeRowSpan_le heligible

end bbcom.modbus_batches
