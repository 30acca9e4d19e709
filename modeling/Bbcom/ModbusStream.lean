-- The register stream files (`modbus-stream.ts`): the snapshot of a register table, its lines, and
-- the rows that are made of what is read back. A line stands for what `JSON.parse` makes of it,
-- and what `JSON.stringify` writes is read back as it was.
import Bbcom.Lib.OrderedMap
import Bbcom.ModbusReadBatches

open bbcom.js bbcom.ordered_map bbcom.modbus_core

namespace bbcom.modbus_stream

open List Option FiniteNumber JsNumber OrderedMap

/-! ## Records and their lines -/

/-- One sample of one register. A channel that is absent and one that is `null` are the same to
every reader. -/
structure ModbusStreamRecord where
  t : ℚ
  slave : Nat
  fc : Nat
  addr : Nat
  type : ModbusValueType
  value : FiniteNumber
  name : Option String
  ch : Option Nat
  unit : Option String
  deriving DecidableEq

def VALUE_TYPES : List ModbusValueType :=
  [.bool, .uint8, .int8, .uint16, .int16, .uint32Be, .int32Be, .float32Be, .uint32Le, .int32Le,
    .float32Le]

/-- The name of a type in a file. -/
def typeText : ModbusValueType → String
  | .bool => "bool"
  | .uint8 => "uint8"
  | .int8 => "int8"
  | .uint16 => "uint16"
  | .int16 => "int16"
  | .uint32Be => "uint32-be"
  | .int32Be => "int32-be"
  | .float32Be => "float32-be"
  | .uint32Le => "uint32-le"
  | .int32Le => "int32-le"
  | .float32Le => "float32-le"

def SUPPORTED_FUNCTION_CODES : List Nat := [0x01, 0x02, 0x03, 0x04, 0x05, 0x06, 0x10]

/-- What `JSON.parse` returns. The keys of an object are distinct. -/
inductive JsonValue
  | null
  | bool (value : Bool)
  | number (value : ℚ)
  | string (text : String)
  | array (items : List JsonValue)
  | object (fields : List (String × JsonValue))

/-- A line of a file: `none` where it is blank or no JSON. -/
abbrev Line := Option JsonValue

/-- The object of one record; a zero loses its sign in it. -/
def encodeRecord (r : ModbusStreamRecord) : JsonValue :=
  .object ([("t", .number r.t), ("slave", .number r.slave), ("fc", .number r.fc),
    ("addr", .number r.addr), ("type", .string (typeText r.type)),
    ("value", .number r.value.toRat)] ++
    (r.name.map fun name => ("name", .string name)).toList ++
    (r.ch.map fun (ch : Nat) => ("ch", .number ch)).toList ++
    (r.unit.map fun unit => ("unit", .string unit)).toList)

def encodeStream (records : List ModbusStreamRecord) : List Line :=
  records.map fun r => some (encodeRecord r)

def field (key : String) : JsonValue → Option JsonValue
  | .object fields => (fields.find? (·.1 = key)).map Prod.snd
  | _ => none

section parse

-- `Number(value)`, for what is no number.
variable (toNumber : JsonValue → JsNumber)

/-- A field as a number, if that is finite. -/
def finiteField (raw : JsonValue) (key : String) : Option FiniteNumber :=
  let value := match field key raw with
    | some (.number q) => .finite q
    | some other => toNumber other
    | none => .nan
  if h : value.isFinite then some ⟨value, h⟩ else none

def textField (raw : JsonValue) (key : String) : Option String :=
  match field key raw with
  | some (.string text) => some text
  | _ => none

def normalizeRecord (raw : JsonValue) : Option ModbusStreamRecord := do
  let t ← finiteField toNumber raw "t"
  let slave ← finiteField toNumber raw "slave"
  let fc ← finiteField toNumber raw "fc"
  let addr ← finiteField toNumber raw "addr"
  let value ← finiteField toNumber raw "value"
  guard (0 ≤ t.toRat)
  let slave ← integerBetween slave.val 0 247
  let fc ← SUPPORTED_FUNCTION_CODES.find? fun (code : Nat) => fc.toRat = code
  let addr ← integerBetween addr.val 0 0xffff
  let text ← textField raw "type"
  let type ← VALUE_TYPES.find? fun type => typeText type = text
  some
    { t := t.toRat
      slave
      fc
      addr
      type
      value
      name := textField raw "name"
      ch := match field "ch" raw with
        | some (.number q) => integerBetween (.finite q) 0 7
        | _ => none
      unit := textField raw "unit" }

def parseStream (lines : List Line) : List ModbusStreamRecord :=
  lines.filterMap fun line => line.bind (normalizeRecord toNumber)

end parse

/-! ## The snapshot of a table -/

/-- A row with its name, its unit and the time of its values. Only a float that was read from
words can be no finite number: bits and integers are finite, and so is what was typed in. The
time is one of the clock, or one that came from a record. -/
structure TableRow extends modbus_batches.ModbusRegister where
  name : String
  unit : Option String
  valueTs : Option ℚ
  finite_unless_float : isBitFc functionCode.code ∨ type ≠ .float32Be ∧ type ≠ .float32Le →
    (∀ v ∈ value, v.isFinite) ∧ ∀ vs ∈ values, ∀ v ∈ vs, v.isFinite
  time_nonneg : ∀ t ∈ valueTs, 0 ≤ t

def snapshotRow (now : Nat) (reg : TableRow) : List ModbusStreamRecord :=
  let values := match reg.values with
    | some (first :: rest) => finiteNumbers (first :: rest)
    | _ => finiteNumbers reg.value.toList
  let span := registerSpan reg.type
  values.mapIdx fun index value =>
    { t := reg.valueTs.getD now
      slave := reg.slaveAddress
      fc := reg.functionCode.code
      addr := reg.address + index * span
      type := reg.type
      value
      name := some (if index = 0 then reg.name else reg.name ++ "[" ++ toString index ++ "]")
      ch := reg.waveformChannel
      unit := reg.unit }

def snapshotFromRegisters (now : Nat) (regs : List TableRow) : List ModbusStreamRecord :=
  regs.flatMap (snapshotRow now)

/-! ## The rows of a file -/

/-- A row without its id. -/
structure RegisterDef where
  name : String
  slaveAddress : Nat
  functionCode : Nat
  address : Nat
  type : ModbusValueType
  unit : Option String
  waveformChannel : Option Nat
  periodicRead : Bool
  periodicWrite : Bool
  value : FiniteNumber
  valueTs : ℚ

/-- The key of a record. In the source it is a text of these three numbers. -/
def ModbusStreamRecord.key (r : ModbusStreamRecord) : Nat × Nat × Nat := (r.slave, r.fc, r.addr)

def keepLatest (latest : OrderedMap (Nat × Nat × Nat) ModbusStreamRecord)
    (r : ModbusStreamRecord) : OrderedMap (Nat × Nat × Nat) ModbusStreamRecord :=
  match latest.get r.key with
  | some prev => if r.t ≥ prev.t then latest.set r.key r else latest
  | none => latest.set r.key r

def registerDef (r : ModbusStreamRecord) : RegisterDef where
  name := r.name.getD ("s" ++ toString r.slave ++ "." ++ toString r.addr)
  slaveAddress := r.slave
  functionCode := r.fc
  address := r.addr
  type := r.type
  unit := r.unit
  waveformChannel := r.ch
  periodicRead := r.fc = 0x01 || r.fc = 0x02 || r.fc = 0x03 || r.fc = 0x04
  periodicWrite := false
  value := r.value
  valueTs := r.t

/-- The order of the rows: the first difference that is not zero. -/
def compareDefs (a b : RegisterDef) : ℤ :=
  let slave : ℤ := a.slaveAddress - b.slaveAddress
  let fc : ℤ := a.functionCode - b.functionCode
  if slave ≠ 0 then slave else if fc ≠ 0 then fc else a.address - b.address

def recordsToRegisterDefs (records : List ModbusStreamRecord) : List RegisterDef :=
  let latest := records.foldl keepLatest []
  (latest.map fun entry => registerDef entry.2).mergeSort fun a b => decide (compareDefs a b ≤ 0)

/-! ## Which register carried a value -/

/-- A value with its register. The sign of a zero is none of its value. -/
structure Reading where
  slave : Nat
  fc : Nat
  addr : Nat
  type : ModbusValueType
  value : ℚ
  deriving DecidableEq

def RegisterDef.reading (d : RegisterDef) : Reading :=
  ⟨d.slaveAddress, d.functionCode, d.address, d.type, d.value.toRat⟩

def ModbusStreamRecord.reading (r : ModbusStreamRecord) : Reading :=
  ⟨r.slave, r.fc, r.addr, r.type, r.value.toRat⟩

/-- How far behind the first register of a row its value number `index` stands: a bit has a place
of its own, and of the byte types two values share a register. -/
def valueOffset (fc : Nat) (type : ModbusValueType) (index : Nat) : Nat :=
  if isBitFc fc then index
  else if isByteValueType type then index / 2
  else index * registerSpan type

/-- The values of a row. -/
def currentValues (reg : TableRow) : List JsNumber :=
  match reg.values with
  | some (first :: rest) => first :: rest
  | _ => reg.value.toList

/-- The finite values of a row with the registers that carried them. -/
def carriedRow (reg : TableRow) : List Reading :=
  (currentValues reg).zipIdx.filterMap fun (value, index) =>
    if h : value.isFinite then
      some ⟨reg.slaveAddress, reg.functionCode.code,
        reg.address + valueOffset reg.functionCode.code reg.type index, reg.type,
        toRat ⟨value, h⟩⟩
    else none

def carried (regs : List TableRow) : List Reading := regs.flatMap carriedRow

/-! ## What is read back from a file -/

section parse

variable (toNumber : JsonValue → JsNumber)

/-- The record that is read back: its zero has no sign, and its channel is one of the eight. -/
def readBack (r : ModbusStreamRecord) : ModbusStreamRecord :=
  { r with value := ⟨.finite r.value.toRat, rfl⟩, ch := r.ch.filter (· ≤ 7) }

theorem typeText_find (type : ModbusValueType) :
    (VALUE_TYPES.find? fun other => typeText other = typeText type) = some type := by
  cases type <;> decide

theorem supported_find (fc : Nat) :
    (SUPPORTED_FUNCTION_CODES.find? fun code => decide (fc = code)) =
      if fc ∈ SUPPORTED_FUNCTION_CODES then some fc else none := by
  generalize SUPPORTED_FUNCTION_CODES = codes
  induction codes with
  | nil => rfl
  | cons code codes ih =>
    by_cases heq : fc = code
    · simp [heq]
    · simpa [heq] using ih

theorem integerBetween_natCast (n min max : Nat) :
    integerBetween (.finite n) min max = if min ≤ n ∧ n ≤ max then some n else none := by
  simp [integerBetween]

/-- A record is read back just when its time and its three numbers are what they can be. -/
theorem normalizeRecord_encodeRecord (r : ModbusStreamRecord) :
    normalizeRecord toNumber (encodeRecord r) =
      if 0 ≤ r.t ∧ r.slave ≤ 247 ∧ r.fc ∈ SUPPORTED_FUNCTION_CODES ∧ r.addr ≤ 0xffff then
        some (readBack r)
      else none := by
  have hnumber : ∀ (key : String) (q : ℚ), field key (encodeRecord r) = some (.number q) →
      finiteField toNumber (encodeRecord r) key = some ⟨.finite q, rfl⟩ := by
    intro key q hfield
    simp [finiteField, hfield, isFinite]
  have htext : ∀ (key text : String), field key (encodeRecord r) = some (.string text) →
      textField (encodeRecord r) key = some text := by
    intro key text hfield
    simp [textField, hfield]
  unfold normalizeRecord
  rw [hnumber "t" r.t (by simp [field, encodeRecord]),
    hnumber "slave" r.slave (by simp [field, encodeRecord]),
    hnumber "fc" r.fc (by simp [field, encodeRecord]),
    hnumber "addr" r.addr (by simp [field, encodeRecord]),
    hnumber "value" r.value.toRat (by simp [field, encodeRecord]),
    htext "type" (typeText r.type) (by simp [field, encodeRecord])]
  have hname : textField (encodeRecord r) "name" = r.name := by
    unfold textField field encodeRecord
    rcases r.name with _ | name <;> rcases r.ch with _ | ch <;> rcases r.unit with _ | unit <;> rfl
  have hunit : textField (encodeRecord r) "unit" = r.unit := by
    unfold textField field encodeRecord
    rcases r.name with _ | name <;> rcases r.ch with _ | ch <;> rcases r.unit with _ | unit <;> rfl
  have hch : field "ch" (encodeRecord r) = r.ch.map fun (ch : Nat) => .number ch := by
    unfold field encodeRecord
    rcases r.name with _ | name <;> rcases r.ch with _ | ch <;> rcases r.unit with _ | unit <;> rfl
  rw [hname, hunit, hch]
  have hchannel : (match r.ch.map fun (ch : Nat) => JsonValue.number ch with
      | some (.number q) => integerBetween (.finite q) 0 7
      | _ => none) = r.ch.filter (· ≤ 7) := by
    cases r.ch with
    | none => rfl
    | some ch =>
      simp only [map_some, integerBetween_natCast, filter_some]
      simp
  rw [hchannel]
  simp only [bind_eq_bind, bind_some, toRat, integerBetween_natCast, typeText_find]
  by_cases ht : 0 ≤ r.t
  · by_cases hslave : r.slave ≤ 247
    · by_cases hfc : r.fc ∈ SUPPORTED_FUNCTION_CODES
      · by_cases haddr : r.addr ≤ 0xffff
        · simp [ht, hslave, hfc, haddr, supported_find, readBack, toRat]
        · simp [ht, hslave, hfc, haddr, supported_find]
      · simp [ht, hslave, hfc, supported_find]
    · simp [ht, hslave]
  · simp [ht]

theorem parseStream_encodeStream (records : List ModbusStreamRecord)
    (hfit : ∀ r ∈ records, 0 ≤ r.t ∧ r.slave ≤ 247 ∧ r.fc ∈ SUPPORTED_FUNCTION_CODES) :
    parseStream toNumber (encodeStream records) =
      (records.filter (·.addr ≤ 0xffff)).map readBack := by
  induction records with
  | nil => rfl
  | cons r records ih =>
    obtain ⟨⟨ht, hslave, hfc⟩, hrest⟩ := forall_mem_cons.mp hfit
    have hline : normalizeRecord toNumber (encodeRecord r) =
        if r.addr ≤ 0xffff then some (readBack r) else none := by
      rw [normalizeRecord_encodeRecord]
      simp [ht, hslave, hfc]
    have hlater := ih hrest
    simp only [parseStream, encodeStream] at hlater ⊢
    rw [map_cons, filterMap_cons, filter_cons, bind_some, hline, hlater]
    by_cases haddr : r.addr ≤ 0xffff
    · simp [haddr]
    · simp [haddr]

end parse

/-! ## The latest record of each register -/

theorem keys_keepLatest (latest : OrderedMap (Nat × Nat × Nat) ModbusStreamRecord)
    (r : ModbusStreamRecord) (h : (latest.map Prod.fst).Nodup) :
    ((keepLatest latest r).map Prod.fst).Nodup ∧
      ∀ k ∈ (keepLatest latest r).map Prod.fst, k = r.key ∨ k ∈ latest.map Prod.fst := by
  have hset := keys_set latest r.key r h
  unfold keepLatest
  split
  · split
    · exact ⟨hset.1, fun k hk => (hset.2 k).mp hk⟩
    · exact ⟨h, fun k hk => .inr hk⟩
  · exact ⟨hset.1, fun k hk => (hset.2 k).mp hk⟩

theorem keys_latest (records : List ModbusStreamRecord) :
    ((records.foldl keepLatest []).map Prod.fst).Nodup ∧
      ∀ k ∈ (records.foldl keepLatest []).map Prod.fst, k ∈ records.map (·.key) := by
  have hall : ∀ (latest : OrderedMap (Nat × Nat × Nat) ModbusStreamRecord),
      (latest.map Prod.fst).Nodup →
      ((records.foldl keepLatest latest).map Prod.fst).Nodup ∧
        ∀ k ∈ (records.foldl keepLatest latest).map Prod.fst,
          k ∈ latest.map Prod.fst ∨ k ∈ records.map (·.key) := by
    induction records with
    | nil => exact fun latest h => ⟨h, fun k hk => .inl hk⟩
    | cons r records ih =>
      intro latest h
      obtain ⟨hnodup, hkeys⟩ := keys_keepLatest latest r h
      obtain ⟨hnodup', hkeys'⟩ := ih (keepLatest latest r) hnodup
      refine ⟨hnodup', fun k hk => ?_⟩
      rw [map_cons, mem_cons]
      rcases hkeys' k hk with hold | hnew
      · exact (hkeys k hold).elim (fun h => .inr (.inl h)) .inl
      · exact .inr (.inr hnew)
  obtain ⟨hnodup, hkeys⟩ := hall [] nodup_nil
  exact ⟨hnodup, fun k hk => (hkeys k hk).resolve_left not_mem_nil⟩

/-- Records with keys of their own are all kept. -/
theorem latest_of_nodup {records : List ModbusStreamRecord} (h : (records.map (·.key)).Nodup) :
    records.foldl keepLatest [] = records.map fun r => (r.key, r) := by
  have hall : ∀ latest : OrderedMap (Nat × Nat × Nat) ModbusStreamRecord,
      (∀ r ∈ records, r.key ∉ latest.map Prod.fst) →
      records.foldl keepLatest latest = latest ++ records.map fun r => (r.key, r) := by
    induction records with
    | nil => simp
    | cons r records ih =>
      intro latest hnew
      rw [map_cons, nodup_cons] at h
      have hnone : latest.get r.key = none := get_eq_none.mpr (hnew r mem_cons_self)
      have hkept : keepLatest latest r = latest ++ [(r.key, r)] := by
        unfold keepLatest
        rw [hnone]
        exact set_of_get_eq_none hnone r
      rw [foldl_cons, hkept, ih h.2, append_assoc]
      · rfl
      · intro other hother hin
        rw [map_append, mem_append] at hin
        rcases hin with hin | hin
        · exact hnew other (mem_cons_of_mem _ hother) hin
        · have hkey : other.key = r.key := by simpa using hin
          exact h.1 (hkey ▸ List.mem_map_of_mem hother)
  simpa using hall [] (by simp)

/-- Only records with keys of their own are as many as the rows that are made of them. -/
theorem length_latest_le (records : List ModbusStreamRecord) :
    (records.foldl keepLatest []).length ≤ records.length ∧
      ((records.foldl keepLatest []).length = records.length → (records.map (·.key)).Nodup) := by
  obtain ⟨hnodup, hkeys⟩ := keys_latest records
  have hsub : ((records.foldl keepLatest []).map Prod.fst).Subperm (records.map (·.key)).dedup :=
    hnodup.subperm fun k hk => mem_dedup.mpr (hkeys k hk)
  have hlatest := hsub.length_le
  have hdedup := (dedup_sublist (records.map (·.key))).length_le
  rw [length_map] at hlatest hdedup
  refine ⟨hlatest.trans hdedup, fun heq => ?_⟩
  have hsame : (records.map (·.key)).dedup = records.map (·.key) := by
    apply (dedup_sublist _).eq_of_length
    rw [length_map]
    omega
  exact dedup_eq_self.mp hsame

theorem readings_recordsToRegisterDefs (records : List ModbusStreamRecord) :
    ((recordsToRegisterDefs records).map RegisterDef.reading).Perm
      ((records.foldl keepLatest []).map fun entry => entry.2.reading) := by
  have hsorted := (mergeSort_perm
    ((records.foldl keepLatest []).map fun entry => registerDef entry.2)
    (fun a b => decide (compareDefs a b ≤ 0))).map RegisterDef.reading
  rw [List.map_map] at hsorted
  exact hsorted

/-! ## Places counted with and without the values that are not finite -/

/-- The finite values, each with its place among all values and its place among the finite ones. -/
def finiteAt (index rank : Nat) : List JsNumber → List (FiniteNumber × Nat × Nat)
  | [] => []
  | value :: rest =>
    if h : value.isFinite then (⟨value, h⟩, index, rank) :: finiteAt (index + 1) (rank + 1) rest
    else finiteAt (index + 1) rank rest

theorem mem_finiteAt {values : List JsNumber} {index rank : Nat} {item : FiniteNumber × Nat × Nat} :
    item ∈ finiteAt index rank values ↔ ∃ front back, values = front ++ item.1.val :: back ∧
      item.2.1 = index + front.length ∧ item.2.2 = rank + front.countP isFinite := by
  induction values generalizing index rank with
  | nil => simp [finiteAt]
  | cons value rest ih =>
    obtain ⟨number, i, k⟩ := item
    have hlater : ∀ rank', ((number, i, k) ∈ finiteAt (index + 1) rank' rest ↔
        ∃ front back, value :: rest = value :: front ++ number.val :: back ∧
          i = index + (value :: front).length ∧ k = rank' + front.countP isFinite) := by
      intro rank'
      rw [ih]
      constructor
      · rintro ⟨front, back, rfl, hi, hk⟩
        exact ⟨front, back, rfl, by simp only [length_cons] at hi ⊢; omega, hk⟩
      · rintro ⟨front, back, hrest, hi, hk⟩
        refine ⟨front, back, by simpa using hrest, ?_, hk⟩
        simp only [length_cons] at hi ⊢
        omega
    unfold finiteAt
    constructor
    · intro hin
      split at hin
      · rename_i hfinite
        rcases mem_cons.mp hin with heq | hin
        · obtain ⟨rfl, rfl, rfl⟩ : number = ⟨value, hfinite⟩ ∧ i = index ∧ k = rank := by
            simpa using heq
          exact ⟨[], rest, rfl, rfl, rfl⟩
        · obtain ⟨front, back, hrest, hi, hk⟩ := (hlater _).mp hin
          refine ⟨value :: front, back, hrest, hi, ?_⟩
          rw [countP_cons_of_pos hfinite]
          exact hk.trans (by omega)
      · rename_i hinfinite
        obtain ⟨front, back, hrest, hi, hk⟩ := (hlater _).mp hin
        refine ⟨value :: front, back, hrest, hi, ?_⟩
        rwa [countP_cons_of_neg hinfinite]
    · rintro ⟨front, back, hsplit, hi, hk⟩
      cases front with
      | nil =>
        obtain ⟨rfl, rfl⟩ : value = number.val ∧ rest = back := by simpa using hsplit
        obtain rfl : i = index := hi
        obtain rfl : k = rank := hk
        rw [dif_pos number.property]
        exact mem_cons_self
      | cons first front =>
        obtain ⟨rfl, hrest⟩ : value = first ∧ rest = front ++ number.val :: back := by
          simpa using hsplit
        split
        · rename_i hfinite
          rw [countP_cons_of_pos hfinite] at hk
          refine mem_cons_of_mem _ ((hlater _).mpr ⟨front, back, hsplit, hi, ?_⟩)
          exact hk.trans (by omega)
        · rename_i hinfinite
          rw [countP_cons_of_neg hinfinite] at hk
          exact (hlater _).mpr ⟨front, back, hsplit, hi, hk⟩

/-- A finite value of a table: its row, and its two places in it. -/
structure Placed where
  reg : TableRow
  value : FiniteNumber
  index : Nat
  rank : Nat

namespace Placed

/-- Where the snapshot puts the value, and where it came from. -/
def recordedAt (p : Placed) : Reading :=
  ⟨p.reg.slaveAddress, p.reg.functionCode.code, p.reg.address + p.rank * registerSpan p.reg.type,
    p.reg.type, p.value.toRat⟩

def carriedAt (p : Placed) : Reading :=
  ⟨p.reg.slaveAddress, p.reg.functionCode.code,
    p.reg.address + valueOffset p.reg.functionCode.code p.reg.type p.index, p.reg.type,
    p.value.toRat⟩

end Placed

def placedRow (reg : TableRow) : List Placed :=
  (finiteAt 0 0 (currentValues reg)).map fun item => ⟨reg, item.1, item.2.1, item.2.2⟩

def placed (regs : List TableRow) : List Placed := regs.flatMap placedRow

theorem finiteNumbers_zipIdx (values : List JsNumber) (index rank : Nat) :
    (finiteNumbers values).zipIdx rank =
      (finiteAt index rank values).map fun item => (item.1, item.2.2) := by
  induction values generalizing index rank with
  | nil => rfl
  | cons value rest ih =>
    rw [finiteAt]
    by_cases h : value.isFinite
    · have hnumbers : finiteNumbers (value :: rest) = ⟨value, h⟩ :: finiteNumbers rest := by
        simp [finiteNumbers, h]
      rw [dif_pos h, hnumbers, zipIdx_cons, ih (index + 1), map_cons]
    · have hnumbers : finiteNumbers (value :: rest) = finiteNumbers rest := by
        simp [finiteNumbers, h]
      rw [dif_neg h, hnumbers, ih (index + 1)]

open Placed

theorem carriedRow_eq (reg : TableRow) : carriedRow reg = (placedRow reg).map carriedAt := by
  have hall : ∀ (values : List JsNumber) (index rank : Nat),
      ((values.zipIdx index).filterMap fun (value, index) =>
        if h : value.isFinite then
          some (⟨reg.slaveAddress, reg.functionCode.code,
            reg.address + valueOffset reg.functionCode.code reg.type index, reg.type,
            toRat ⟨value, h⟩⟩ : Reading)
        else none) =
      (finiteAt index rank values).map fun item =>
        carriedAt ⟨reg, item.1, item.2.1, item.2.2⟩ := by
    intro values
    induction values with
    | nil => exact fun _ _ => rfl
    | cons value rest ih =>
      intro index rank
      rw [finiteAt, zipIdx_cons, filterMap_cons]
      by_cases h : value.isFinite
      · simp only [h, dite_true, map_cons]
        rw [ih (index + 1) (rank + 1)]
        rfl
      · simp only [h]
        exact ih (index + 1) rank
  unfold carriedRow placedRow
  rw [hall _ 0 0, List.map_map]
  rfl

theorem carried_eq (regs : List TableRow) :
    carried regs = (placed regs).map carriedAt := by
  unfold carried placed
  rw [map_flatMap]
  exact congrArg (regs.flatMap ·) (funext carriedRow_eq)

open ModbusStreamRecord

theorem snapshotRow_eq (now : Nat) (reg : TableRow) :
    (snapshotRow now reg).map reading =
      (placedRow reg).map recordedAt := by
  have hvalues : (match reg.values with
      | some (first :: rest) => finiteNumbers (first :: rest)
      | _ => finiteNumbers reg.value.toList) = finiteNumbers (currentValues reg) := by
    unfold currentValues
    split <;> rfl
  unfold snapshotRow placedRow
  dsimp only
  rw [hvalues, mapIdx_eq_zipIdx_map, finiteNumbers_zipIdx _ 0, List.map_map, List.map_map,
    List.map_map]
  rfl

theorem recorded_eq (now : Nat) (regs : List TableRow) :
    (snapshotFromRegisters now regs).map reading =
      (placed regs).map recordedAt := by
  unfold snapshotFromRegisters placed
  rw [map_flatMap, map_flatMap]
  exact congrArg (regs.flatMap ·) (funext (snapshotRow_eq now))

/-! ## Rows whose values keep their places -/

/-- Two values of the row share a register, or it reads bits as a type of two registers. -/
def Shared (reg : TableRow) : Prop :=
  if isBitFc reg.functionCode.code then registerSpan reg.type = 2
  else isByteValueType reg.type = true

/-- A row with one value where the count of registers is not the count of values, and with no
finite value behind one that is not. -/
structure KeepsPlaces (reg : TableRow) : Prop where
  alone : Shared reg → (currentValues reg).length ≤ 1
  finite_first : ∀ front value back, currentValues reg = front ++ value :: back →
    value.isFinite → ∀ earlier ∈ front, earlier.isFinite

variable {regs : List TableRow}

theorem mem_placed {p : Placed} : p ∈ placed regs ↔
    p.reg ∈ regs ∧ ∃ front back, currentValues p.reg = front ++ p.value.val :: back ∧
      p.index = front.length ∧ p.rank = front.countP isFinite := by
  obtain ⟨reg, value, index, rank⟩ := p
  simp only [placed, placedRow, mem_flatMap, List.mem_map]
  constructor
  · rintro ⟨row, hrow, item, hitem, heq⟩
    obtain ⟨front, back, hvalues, hindex, hrank⟩ := mem_finiteAt.mp hitem
    obtain ⟨rfl, rfl, rfl, rfl⟩ : row = reg ∧ item.1 = value ∧ item.2.1 = index ∧
        item.2.2 = rank := by simpa using heq
    exact ⟨hrow, front, back, hvalues, by omega, by omega⟩
  · rintro ⟨hrow, front, back, hvalues, hindex, hrank⟩
    refine ⟨reg, hrow, (value, index, rank), mem_finiteAt.mpr ⟨front, back, hvalues, ?_, ?_⟩, rfl⟩
    · exact hindex.trans (Nat.zero_add _).symm
    · exact hrank.trans (Nat.zero_add _).symm

theorem span_of_byte {type : ModbusValueType} (h : isByteValueType type = true) :
    registerSpan type = 1 := by
  simp [registerSpan, h]

/-- Only a row of floats that reads words has values that are not finite. -/
theorem all_finite {reg : TableRow} (h : isBitFc reg.functionCode.code = true ∨
    reg.type ≠ .float32Be ∧ reg.type ≠ .float32Le) :
    ∀ value ∈ currentValues reg, value.isFinite := by
  obtain ⟨hvalue, hvalues⟩ := reg.finite_unless_float h
  intro value hin
  unfold currentValues at hin
  split at hin
  · rename_i heq
    exact hvalues _ heq value hin
  · exact hvalue value (mem_toList.mp hin)

/-- Whether a row reads floats from words. -/
def readsFloats (fc : Nat) (type : ModbusValueType) : Bool :=
  !isBitFc fc && (type = .float32Be || type = .float32Le)

section places

variable {regs : List TableRow} {p : Placed}

section

variable (hin : p ∈ placed regs)
include hin

theorem rank_le_index : p.rank ≤ p.index := by
  obtain ⟨-, front, back, -, hindex, hrank⟩ := mem_placed.mp hin
  rw [hindex, hrank]
  exact countP_le_length

theorem rank_eq_index (hfloat : readsFloats p.reg.functionCode.code p.reg.type = false) :
    p.rank = p.index := by
  obtain ⟨-, front, back, hvalues, hindex, hrank⟩ := mem_placed.mp hin
  have hfinite : ∀ value ∈ front, value.isFinite := by
    intro value hvalue
    have hcurrent : value ∈ currentValues p.reg := by simp [hvalues, hvalue]
    refine all_finite ?_ value hcurrent
    cases hbit : isBitFc p.reg.functionCode.code with
    | true => exact .inl rfl
    | false => exact .inr (by simpa [readsFloats, hbit] using hfloat)
  rw [hindex, hrank]
  exact countP_eq_length.mpr hfinite

/-- The addresses of a snapshot are too small for floats, and too great for the others. -/
theorem recorded_le (hfloat : readsFloats p.reg.functionCode.code p.reg.type = true) :
    p.recordedAt.addr ≤ p.carriedAt.addr := by
  have hrank := rank_le_index hin
  obtain ⟨hbit, htype⟩ : isBitFc p.reg.functionCode.code = false ∧
      isByteValueType p.reg.type = false := by
    simp only [readsFloats, Bool.and_eq_true, Bool.not_eq_true', Bool.or_eq_true,
      decide_eq_true_eq] at hfloat
    refine ⟨hfloat.1, ?_⟩
    rcases hfloat.2 with htype | htype <;> simp [isByteValueType, htype]
  simp only [recordedAt, carriedAt, valueOffset, hbit, htype]
  exact Nat.add_le_add_left (Nat.mul_le_mul_right _ hrank) _

theorem le_recorded (hfloat : readsFloats p.reg.functionCode.code p.reg.type = false) :
    p.carriedAt.addr ≤ p.recordedAt.addr := by
  have hspan := registerSpan_pos p.reg.type
  have hmul : p.index ≤ p.index * registerSpan p.reg.type := Nat.le_mul_of_pos_right _ hspan
  simp only [recordedAt, carriedAt, valueOffset, rank_eq_index hin hfloat]
  apply Nat.add_le_add_left
  split
  · exact hmul
  · split
    · omega
    · exact le_rfl

/-- The values whose rows keep their places are recorded where they came from. -/
theorem recordedAt_eq (hkeeps : KeepsPlaces p.reg) : p.recordedAt = p.carriedAt := by
  obtain ⟨-, front, back, hvalues, hindex, hrank⟩ := mem_placed.mp hin
  have hsame : p.rank = p.index := by
    rw [hindex, hrank]
    exact countP_eq_length.mpr
      (hkeeps.finite_first front p.value.val back hvalues p.value.property)
  have hoffset : p.index * registerSpan p.reg.type =
      valueOffset p.reg.functionCode.code p.reg.type p.index := by
    have hzero : Shared p.reg → p.index = 0 := by
      intro hshared
      have hone := hkeeps.alone hshared
      rw [hvalues, length_append, length_cons] at hone
      omega
    have hspans : registerSpan p.reg.type = 1 ∨ registerSpan p.reg.type = 2 := by
      unfold registerSpan
      split
      · exact .inl rfl
      · exact .inr rfl
    unfold valueOffset
    unfold Shared at hzero
    split at hzero
    · rename_i hbit
      rw [if_pos hbit]
      rcases hspans with hspan | hspan
      · rw [hspan, Nat.mul_one]
      · rw [hzero hspan, Nat.zero_mul]
    · rename_i hbit
      rw [if_neg hbit]
      split
      · rename_i hbyte
        rw [hzero hbyte, Nat.zero_mul]
      · rfl
  simp only [recordedAt, carriedAt, hsame, hoffset]

end

/-- A row all of whose values are recorded where they came from keeps their places. -/
theorem keepsPlaces_of_recorded {reg : TableRow} (hreg : reg ∈ regs)
    (hall : ∀ p ∈ placed regs, p.recordedAt.addr = p.carriedAt.addr) : KeepsPlaces reg := by
  have hoffset : ∀ p ∈ placed regs, p.rank * registerSpan p.reg.type =
      valueOffset p.reg.functionCode.code p.reg.type p.index :=
    fun p hin => Nat.add_left_cancel (hall p hin)
  constructor
  · intro hshared
    by_contra hmany
    obtain ⟨first, second, rest, hvalues⟩ : ∃ first second rest,
        currentValues reg = first :: second :: rest := by
      match hlist : currentValues reg with
      | [] => simp [hlist] at hmany
      | [_] => simp [hlist] at hmany
      | first :: second :: rest => exact ⟨first, second, rest, rfl⟩
    have hfinite : ∀ value ∈ currentValues reg, value.isFinite := by
      apply all_finite
      unfold Shared at hshared
      split at hshared
      · rename_i hbit
        exact .inl hbit
      · refine .inr ⟨?_, ?_⟩ <;> intro htype <;> simp [htype, isByteValueType] at hshared
    have hfirst : first.isFinite := hfinite first (by simp [hvalues])
    have hsecond : second.isFinite := hfinite second (by simp [hvalues])
    have hplace := hoffset ⟨reg, ⟨second, hsecond⟩, 1, 1⟩
      (mem_placed.mpr ⟨hreg, [first], rest, hvalues, rfl, by simp [hfirst]⟩)
    unfold valueOffset at hplace
    unfold Shared at hshared
    split at hshared
    · rename_i hbit
      simp [hbit, hshared] at hplace
    · rename_i hbit
      simp [hbit, hshared, span_of_byte hshared] at hplace
  · intro front value back hvalues hvalue earlier hearlier
    by_contra hinfinite
    have hfloat : ¬(isBitFc reg.functionCode.code = true ∨
        reg.type ≠ .float32Be ∧ reg.type ≠ .float32Le) := fun h =>
      hinfinite (all_finite h earlier (by simp [hvalues, hearlier]))
    have hword : isBitFc reg.functionCode.code = false ∧ isByteValueType reg.type = false := by
      cases htype : reg.type <;> simp_all [isByteValueType]
    have hplace := hoffset ⟨reg, ⟨value, hvalue⟩, front.length, front.countP isFinite⟩
      (mem_placed.mpr ⟨hreg, front, back, hvalues, rfl, rfl⟩)
    simp only [valueOffset, hword] at hplace
    have hcount := Nat.eq_of_mul_eq_mul_right (registerSpan_pos reg.type) hplace
    exact hinfinite (countP_eq_length.mp hcount earlier hearlier)

end places

/-! ## The round trip -/

/-- Two measures of which one is never less are the same everywhere, if their sums are. -/
theorem eq_of_sum_eq {α : Type} {items : List α} {f g : α → Nat} (hle : ∀ x ∈ items, f x ≤ g x)
    (hsum : (items.map f).sum = (items.map g).sum) : ∀ x ∈ items, f x = g x := by
  intro x hx
  by_contra hne
  have hlt := sum_lt_sum f g hle ⟨x, hx, lt_of_le_of_ne (hle x hx) hne⟩
  omega

/-- The kinds of rows apart, no address can make up for another. -/
theorem recorded_of_perm
    (hperm : ((placed regs).map recordedAt).Perm ((placed regs).map carriedAt)) :
    ∀ p ∈ placed regs, p.recordedAt.addr = p.carriedAt.addr := by
  have hsum : ∀ floats : Bool, (((placed regs).filter fun p =>
          readsFloats p.reg.functionCode.code p.reg.type = floats).map
        fun p => p.recordedAt.addr).sum =
      (((placed regs).filter fun p =>
          readsFloats p.reg.functionCode.code p.reg.type = floats).map
        fun p => p.carriedAt.addr).sum := by
    intro floats
    have hkind := ((hperm.filter fun r => readsFloats r.fc r.type = floats).map Reading.addr).sum_eq
    rw [List.filter_map, List.filter_map, List.map_map, List.map_map] at hkind
    exact hkind
  intro p hin
  cases hfloat : readsFloats p.reg.functionCode.code p.reg.type with
  | true =>
    refine eq_of_sum_eq (fun q hq => ?_) (hsum true) p (mem_filter.mpr ⟨hin, by simp [hfloat]⟩)
    obtain ⟨hq, hfloats⟩ := mem_filter.mp hq
    exact recorded_le hq (by simpa using hfloats)
  | false =>
    refine (eq_of_sum_eq (fun q hq => ?_) (hsum false).symm p
      (mem_filter.mpr ⟨hin, by simp [hfloat]⟩)).symm
    obtain ⟨hq, hfloats⟩ := mem_filter.mp hq
    exact le_recorded hq (by simpa using hfloats)

/-- A table that a file gives back: no row moves a value, no value is carried by a register behind
the last one, and no two by the same one. -/
structure Recoverable (regs : List TableRow) : Prop where
  keeps_places : ∀ reg ∈ regs, KeepsPlaces reg
  in_range : ∀ reading ∈ carried regs, reading.addr ≤ 0xffff
  one_each : ((carried regs).map fun reading => (reading.slave, reading.fc, reading.addr)).Nodup

/-- The rows that come of saving a table and loading the file. -/
def reloaded (toNumber : JsonValue → JsNumber) (now : Nat) (regs : List TableRow) :
    List RegisterDef :=
  recordsToRegisterDefs (parseStream toNumber (encodeStream (snapshotFromRegisters now regs)))

theorem code_supported (fc : modbus_batches.ModbusFunctionCode) :
    fc.code ∈ SUPPORTED_FUNCTION_CODES := by
  cases fc <;> decide

/-- Every record of a snapshot is one that is read back, its address apart. -/
theorem snapshot_fits (now : Nat) (regs : List TableRow) :
    ∀ r ∈ snapshotFromRegisters now regs,
      0 ≤ r.t ∧ r.slave ≤ 247 ∧ r.fc ∈ SUPPORTED_FUNCTION_CODES := by
  intro r hr
  obtain ⟨reg, -, hrow⟩ := mem_flatMap.mp hr
  obtain ⟨index, hlt, rfl⟩ := mem_mapIdx.mp hrow
  refine ⟨?_, reg.slave_in_range, code_supported reg.functionCode⟩
  cases htime : reg.valueTs with
  | none => exact Nat.cast_nonneg now
  | some t => exact reg.time_nonneg t htime

theorem readings_reloaded (toNumber : JsonValue → JsNumber) (now : Nat) (regs : List TableRow) :
    ((reloaded toNumber now regs).map RegisterDef.reading).Perm
      (((((snapshotFromRegisters now regs).filter (·.addr ≤ 0xffff)).map readBack).foldl
        keepLatest []).map fun entry => entry.2.reading) := by
  unfold reloaded
  rw [parseStream_encodeStream toNumber _ (snapshot_fits now regs)]
  exact readings_recordsToRegisterDefs _

theorem keys_eq (records : List ModbusStreamRecord) :
    records.map (·.key) = (records.map reading).map fun reading =>
      (reading.slave, reading.fc, reading.addr) := by
  rw [List.map_map]
  rfl

/-- A table is given back by its file, each finite value on the register that carried it and no
other, just when it is recoverable. -/
theorem round_trip_iff (toNumber : JsonValue → JsNumber) (now : Nat) (regs : List TableRow) :
    ((reloaded toNumber now regs).map RegisterDef.reading).Perm (carried regs) ↔
      Recoverable regs := by
  have hreadings := readings_reloaded toNumber now regs
  have hrecorded := recorded_eq now regs
  set records := snapshotFromRegisters now regs
  constructor
  · intro hperm
    -- No record may be lost on the way: there are as many as there are finite values.
    have hlatest := hreadings.symm.trans hperm
    have hcount := hlatest.length_eq
    rw [carried_eq, length_map, length_map, ← length_map recordedAt,
      ← hrecorded, length_map] at hcount
    obtain ⟨hle, hnodup⟩ := length_latest_le ((records.filter (·.addr ≤ 0xffff)).map readBack)
    have hfilter := length_filter_le (fun r : ModbusStreamRecord => decide (r.addr ≤ 0xffff))
      records
    rw [length_map] at hle
    have hall : records.filter (·.addr ≤ 0xffff) = records :=
      filter_sublist.eq_of_length (by omega)
    rw [hall] at hnodup hlatest hcount
    have hkeys := hnodup (by rw [hcount, length_map])
    rw [latest_of_nodup hkeys, List.map_map, List.map_map] at hlatest
    have hmoved : (records.map reading).Perm (carried regs) := hlatest
    rw [hrecorded, carried_eq] at hmoved
    have hplaces := recorded_of_perm hmoved
    have hcarried : records.map reading = carried regs := by
      rw [hrecorded, carried_eq]
      refine map_congr_left fun p hin => ?_
      exact recordedAt_eq hin (keepsPlaces_of_recorded (mem_placed.mp hin).1 hplaces)
    refine ⟨fun reg hreg => keepsPlaces_of_recorded hreg hplaces, ?_, ?_⟩
    · intro reading hin
      rw [← hcarried] at hin
      obtain ⟨r, hr, rfl⟩ := List.mem_map.mp hin
      rw [← hall] at hr
      exact of_decide_eq_true (mem_filter.mp hr).2
    · rw [← hcarried, ← keys_eq]
      rwa [List.map_map] at hkeys
  · intro h
    have hcarried : records.map reading = carried regs := by
      rw [hrecorded, carried_eq]
      exact map_congr_left fun p hin =>
        recordedAt_eq hin (h.keeps_places p.reg (mem_placed.mp hin).1)
    have hall : records.filter (·.addr ≤ 0xffff) = records := by
      rw [filter_eq_self]
      intro r hr
      have haddr := h.in_range r.reading (hcarried ▸ List.mem_map_of_mem hr)
      exact decide_eq_true haddr
    have hkeys : ((records.map readBack).map (·.key)).Nodup := by
      have hnodup := h.one_each
      rw [← hcarried, ← keys_eq] at hnodup
      rwa [List.map_map]
    rw [hall, latest_of_nodup hkeys, List.map_map, List.map_map] at hreadings
    rw [← hcarried]
    exact hreadings

/-- Two bytes that share a register. -/
def byteRow : TableRow where
  id := "a"
  slaveAddress := 1
  functionCode := .readHoldingRegisters
  address := 100
  quantity := some (.finite 2)
  type := .uint8
  waveformChannel := none
  value := some (.finite 5)
  values := some [.finite 5, .finite 6]
  slave_in_range := modbus_batches.one_is_a_slave
  address_in_range := by decide
  name := "Bytes"
  unit := none
  valueTs := some 1000
  finite_unless_float := by decide
  time_nonneg := by decide

/-- A float behind one that is not a number. -/
def floatRow : TableRow :=
  { byteRow with
    type := .float32Be
    value := some .nan
    values := some [.nan, .finite 1.5]
    finite_unless_float := by decide }

/-- The second byte comes back on the next register, and the float on the one of its
predecessor. -/
theorem second_byte_moved :
    ¬((reloaded (fun _ => .nan) 0 [byteRow]).map RegisterDef.reading).Perm (carried [byteRow]) ∧
    ¬((reloaded (fun _ => .nan) 0 [floatRow]).map RegisterDef.reading).Perm
      (carried [floatRow]) := by
  have hmoved : ∀ (row : TableRow) (r : Reading),
      r ∈ ((((snapshotFromRegisters 0 [row]).filter (·.addr ≤ 0xffff)).map readBack).foldl
        keepLatest []).map (fun entry => entry.2.reading) → r ∉ carried [row] →
      ¬((reloaded (fun _ => .nan) 0 [row]).map RegisterDef.reading).Perm (carried [row]) := by
    intro row r hin hnot hperm
    exact hnot (((readings_reloaded _ 0 [row]).symm.trans hperm).mem_iff.mp hin)
  constructor
  · exact hmoved byteRow ⟨1, 3, 101, .uint8, 6⟩ (by decide +kernel) (by decide +kernel)
  · exact hmoved floatRow ⟨1, 3, 100, .float32Be, 1.5⟩ (by decide +kernel) (by decide +kernel)

end bbcom.modbus_stream
