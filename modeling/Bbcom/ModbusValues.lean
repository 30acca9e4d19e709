-- Typed values through the register words and back (`encodeValues`, `decodeValues`), for all
-- numbers of the language.
import Bbcom.ModbusCore

open bbcom.js

namespace bbcom.modbus_core

open List Nat

/-! ## Numbers that are not finite -/

/-- `clampInteger`. No value stands for `NaN`. -/
def clampNumber (value : JsNumber) (min max : ℤ) : Option ℤ :=
  match value with
  | .nan => none
  | .infinity true => some min
  | .infinity false => some (Max.max min max)
  | .negativeZero => some (Max.max min (Min.min max 0))
  | .finite q => some (Max.max min (Min.min max (trunc q)))

/-- One byte of a word that carries two values. A bit operation takes `NaN` for zero. -/
def encodeByteOf (type : ModbusValueType) (value : JsNumber) : Nat :=
  if type = .int8 then ((clampNumber value (-0x80) 0x7f).getD 0 % 0x100).toNat
  else ((clampNumber value 0 0xff).getD 0).toNat

def encodeBytePairsOf (type : ModbusValueType) : List JsNumber → List Nat
  | [] => []
  | [hi] => [encodeByteOf type hi * 0x100 + encodeByteOf type (.finite 0)]
  | hi :: lo :: rest => (encodeByteOf type hi * 0x100 + encodeByteOf type lo) ::
      encodeBytePairsOf type rest

/-- `encodeValue`, with the check at its start. -/
def encodeValueOf (type : ModbusValueType) (value : JsNumber) : Except JsError (List Nat) :=
  if h : value.isFinite then .ok (encodeValue type ⟨value, h⟩)
  else .error (.rangeError "value must be finite")

/-- `encodeValues`. The byte types do not go through `encodeValue`, and check nothing. -/
def encodeValuesOf (type : ModbusValueType) (values : List JsNumber) :
    Except JsError (List Nat) :=
  if isByteValueType type then .ok (encodeBytePairsOf type values)
  else do
    let words ← values.mapM (encodeValueOf type)
    .ok words.flatten

theorem clampNumber_finite (value : FiniteNumber) (min max : ℤ) :
    clampNumber value.val min max = some (clampInteger value min max) := by
  obtain ⟨value, hfinite⟩ := value
  cases value with
  | nan => cases hfinite
  | infinity negative => cases hfinite
  | negativeZero => simp [clampNumber, clampInteger, FiniteNumber.toRat, trunc]
  | finite q => rfl

variable (type : ModbusValueType)

theorem mapM_encodeValueOf (values : List FiniteNumber) :
    (values.map (·.val)).mapM (encodeValueOf type) = .ok (values.map (encodeValue type)) := by
  induction values with
  | nil => rfl
  | cons value values ih =>
    have hfirst : encodeValueOf type value.val = .ok (encodeValue type value) :=
      dif_pos value.property
    rw [map_cons, mapM_cons, hfirst, ih]
    rfl

/-! ## What a type holds -/

/-- The least and the greatest value of a type that is no float. -/
def bounds : ModbusValueType → ℤ × ℤ
  | .bool => (0, 1)
  | .uint8 => (0, 0xff)
  | .int8 => (-0x80, 0x7f)
  | .uint16 => (0, 0xffff)
  | .int16 => (-0x8000, 0x7fff)
  | .uint32Be | .uint32Le => (0, 0xffffffff)
  | .int32Be | .int32Le => (-0x80000000, 0x7fffffff)
  | .float32Be | .float32Le => (0, 0)

/-- What is left of a number in a register: the integer part, drawn into the range of the type.
A coil only tells zero from all else. -/
def held (type : ModbusValueType) (value : JsNumber) : ℤ :=
  if type = .bool then if value = .finite 0 ∨ value = .negativeZero then 0 else 1
  else (clampNumber value (bounds type).1 (bounds type).2).getD 0

/-- The byte types fill the last word with a zero. -/
def padded (type : ModbusValueType) (values : List ℤ) : List ℤ :=
  if isByteValueType type ∧ values.length % 2 = 1 then values ++ [0] else values

theorem bounds_zero : (bounds type).1 ≤ 0 ∧ 0 ≤ (bounds type).2 := by
  cases type <;> decide

theorem held_bounds (value : JsNumber) :
    (bounds type).1 ≤ held type value ∧ held type value ≤ (bounds type).2 := by
  have hzero := bounds_zero type
  unfold held
  split_ifs with hbool hnone
  · exact hzero
  · subst hbool
    decide
  · unfold clampNumber
    split <;> simp only [Option.getD_none, Option.getD_some] <;> omega

/-- A number that the type has is held as it is. -/
theorem held_self {type : ModbusValueType} {n : ℤ} (hlow : (bounds type).1 ≤ n)
    (hhigh : n ≤ (bounds type).2) : held type (.finite n) = n := by
  have htrunc : trunc (n : ℚ) = n := by simp [trunc]
  unfold held
  split_ifs with hbool hnone
  · rcases hnone with hnone | hnone
    · have : (n : ℚ) = 0 := by simpa using hnone
      exact_mod_cast this.symm
    · cases hnone
  · subst hbool
    have hne : n ≠ 0 := fun h => hnone (.inl (by rw [h]; rfl))
    simp only [bounds] at hlow hhigh
    omega
  · simp only [clampNumber, htrunc, Option.getD_some]
    omega

/-! ## One value -/

variable {v : ℤ}

theorem toInt8_emod (hlow : -0x80 ≤ v) (hhigh : v ≤ 0x7f) :
    toInt8 (v % 0x100).toNat = v := by
  unfold toInt8
  simp only
  split_ifs <;> omega

theorem toInt16_emod (hlow : -0x8000 ≤ v) (hhigh : v ≤ 0x7fff) :
    toInt16 (v % 0x10000).toNat = v := by
  unfold toInt16
  simp only
  split_ifs <;> omega

theorem u32_halves (hlow : 0 ≤ v) (hhigh : v ≤ 0xffffffff) :
    ((v.toNat / 0x10000 % 0x10000 * 0x10000 + v.toNat % 0x10000 : Nat) : ℤ) = v := by
  omega

theorem toInt32_halves (hlow : -0x80000000 ≤ v) (hhigh : v ≤ 0x7fffffff) :
    toInt32 ((if v < 0 then v + 0x100000000 else v).toNat / 0x10000 % 0x10000)
      ((if v < 0 then v + 0x100000000 else v).toNat % 0x10000) = v := by
  unfold toInt32
  simp only
  split_ifs <;> omega

/-- The halves of a 32-bit number come back in their places, whatever the order of the words. -/
theorem u32Halves_emit (hi lo : Nat) :
    u32Halves type (emitU32Words type hi lo) = (hi % 0x10000, lo % 0x10000) := by
  unfold u32Halves emitU32Words
  split_ifs <;> rfl

theorem held_int {type : ModbusValueType} (hbool : type ≠ .bool) (value : FiniteNumber) :
    held type value.val = clampInteger value (bounds type).1 (bounds type).2 := by
  unfold held
  rw [if_neg hbool, clampNumber_finite, Option.getD_some]

theorem held_bool (value : FiniteNumber) :
    held .bool value.val = if value.toRat = 0 then 0 else 1 := by
  obtain ⟨value, hfinite⟩ := value
  cases value with
  | nan => cases hfinite
  | infinity negative => cases hfinite
  | negativeZero => rfl
  | finite q => by_cases hq : q = 0 <;> simp [held, FiniteNumber.toRat, hq]

theorem decodeValue_encodeValue {type : ModbusValueType}
    (hfloat : type ≠ .float32Be ∧ type ≠ .float32Le) (hbyte : isByteValueType type = false)
    (value : FiniteNumber) :
    decodeValue type (encodeValue type value) = .finite (held type value.val) := by
  have hlow := le_clampInteger value (bounds type).1 (bounds type).2
  have hhigh := @clampInteger_le value _ _ ((bounds_zero type).1.trans (bounds_zero type).2)
  cases type with
  | bool =>
    rw [held_bool]
    simp only [decodeValue, encodeValue, getD_cons_zero]
    split_ifs <;> simp_all
  | uint8 => cases hbyte
  | int8 => cases hbyte
  | uint16 =>
    rw [held_int (by decide)]
    simp only [decodeValue, encodeValue, getD_cons_zero, bounds] at hlow hhigh ⊢
    have hword : (((clampInteger value 0 0xffff).toNat % 0x10000 : Nat) : ℤ) =
        clampInteger value 0 0xffff := by omega
    rw [← Int.cast_natCast, hword]
  | int16 =>
    rw [held_int (by decide)]
    simp only [decodeValue, encodeValue, getD_cons_zero, bounds] at hlow hhigh ⊢
    rw [toInt16_emod hlow hhigh]
  | uint32Be | uint32Le =>
    rw [held_int (by decide)]
    simp only [decodeValue, encodeValue, u32Halves_emit, bounds] at hlow hhigh ⊢
    rw [← Int.cast_natCast, u32_halves hlow hhigh]
  | int32Be | int32Le =>
    rw [held_int (by decide)]
    simp only [decodeValue, encodeValue, u32Halves_emit, bounds] at hlow hhigh ⊢
    rw [toInt32_halves hlow hhigh]
  | float32Be => exact absurd rfl hfloat.1
  | float32Le => exact absurd rfl hfloat.2

/-! ## Lists of values -/

/-- The words are read one span after the other. -/
theorem decodeValues_append {type : ModbusValueType} (hbyte : isByteValueType type = false)
    {first : List Nat} (hfirst : first.length = registerSpan type) (rest : List Nat) :
    decodeValues type (first ++ rest) = decodeValue type first :: decodeValues type rest := by
  have hspan := registerSpan_pos type
  have hcount : (first ++ rest).length / registerSpan type =
      rest.length / registerSpan type + 1 := by
    rw [length_append, hfirst, add_div_left _ hspan]
  unfold decodeValues
  rw [if_neg (by simp [hbyte]), if_neg (by simp [hbyte])]
  simp only
  rw [hcount, range_succ_eq_map, map_cons, map_map, zero_mul, drop_zero, ← hfirst, take_left]
  congr 1
  apply map_congr_left
  intro k _
  rw [Function.comp_apply, succ_mul, add_comm, ← List.drop_drop, drop_left]

theorem decodeValues_encoded {type : ModbusValueType}
    (hfloat : type ≠ .float32Be ∧ type ≠ .float32Le) (hbyte : isByteValueType type = false)
    (values : List FiniteNumber) :
    decodeValues type (values.flatMap (encodeValue type)) =
      values.map fun value => .finite (held type value.val) := by
  induction values with
  | nil => simp [decodeValues, hbyte]
  | cons value values ih =>
    rw [flatMap_cons, decodeValues_append hbyte (length_encodeValue type value), ih,
      decodeValue_encodeValue hfloat hbyte, map_cons]

/-- What is read back from one byte of a word. -/
def readByte (type : ModbusValueType) (byte : Nat) : ℤ :=
  if type = .int8 then toInt8 byte else byte

theorem encodeByteOf_lt {type : ModbusValueType} (hbyte : isByteValueType type = true)
    (value : JsNumber) :
    encodeByteOf type value < 0x100 ∧
      readByte type (encodeByteOf type value) = held type value := by
  have hbounds := held_bounds type value
  have hbool : type ≠ .bool := by
    rintro rfl
    cases hbyte
  unfold held at hbounds ⊢
  rw [if_neg hbool] at hbounds ⊢
  unfold encodeByteOf readByte
  by_cases hsigned : type = .int8
  · subst hsigned
    simp only [bounds, if_true] at hbounds ⊢
    refine ⟨?_, toInt8_emod hbounds.1 hbounds.2⟩
    have := Int.emod_lt_of_pos ((clampNumber value (-0x80) 0x7f).getD 0)
      (by decide : (0 : ℤ) < 0x100)
    omega
  · have hunsigned : type = .uint8 := by
      cases type <;> first | rfl | exact absurd rfl hsigned | exact absurd hbyte (by decide)
    subst hunsigned
    simp only [bounds, hsigned, if_false] at hbounds ⊢
    omega

/-- A word of two bytes is read as both. -/
theorem decodeValues_word {type : ModbusValueType} (hbyte : isByteValueType type = true)
    {hi lo : Nat} (hhi : hi < 0x100) (hlo : lo < 0x100) (rest : List Nat) :
    decodeValues type ((hi * 0x100 + lo) :: rest) =
      .finite (readByte type hi) :: .finite (readByte type lo) :: decodeValues type rest := by
  have hfirst : (hi * 0x100 + lo) / 0x100 % 0x100 = hi := by omega
  have hsecond : (hi * 0x100 + lo) % 0x100 = lo := by omega
  unfold decodeValues readByte
  rw [if_pos hbyte, if_pos hbyte, flatMap_cons]
  simp only [hfirst, hsecond]
  split_ifs <;> rfl

theorem decodeValues_bytes {type : ModbusValueType} (hbyte : isByteValueType type = true)
    (values : List JsNumber) :
    decodeValues type (encodeBytePairsOf type values) =
      (padded type (values.map (held type))).map fun v => .finite v := by
  have hzero : held type (.finite 0) = 0 :=
    @held_self type 0 (bounds_zero type).1 (bounds_zero type).2
  induction values using encodeBytePairsOf.induct with
  | case1 => simp [encodeBytePairsOf, decodeValues, hbyte, padded]
  | case2 hi =>
    obtain ⟨hhi, hhi'⟩ := encodeByteOf_lt hbyte hi
    obtain ⟨hlo, hlo'⟩ := encodeByteOf_lt hbyte (.finite 0)
    rw [encodeBytePairsOf, decodeValues_word hbyte hhi hlo, hhi', hlo', hzero]
    simp [decodeValues, hbyte, padded]
  | case3 hi lo rest ih =>
    obtain ⟨hhi, hhi'⟩ := encodeByteOf_lt hbyte hi
    obtain ⟨hlo, hlo'⟩ := encodeByteOf_lt hbyte lo
    have hpad : padded type ((hi :: lo :: rest).map (held type)) =
        held type hi :: held type lo :: padded type (rest.map (held type)) := by
      have hodd : (rest.length + 1 + 1) % 2 = 1 ↔ rest.length % 2 = 1 := by omega
      unfold padded
      simp only [map_cons, length_cons, length_map, hodd]
      split_ifs <;> rfl
    rw [encodeBytePairsOf, decodeValues_word hbyte hhi hlo, hhi', hlo', ih, hpad]
    rfl

theorem length_encodeBytePairsOf (values : List JsNumber) :
    (encodeBytePairsOf type values).length = (values.length + 1) / 2 := by
  induction values using encodeBytePairsOf.induct with
  | case1 => rfl
  | case2 hi => simp [encodeBytePairsOf]
  | case3 hi lo rest ih =>
    simp only [encodeBytePairsOf, length_cons, ih]
    omega

/-- Either all values are finite, or one of them is why nothing is encoded. -/
theorem mapM_encodeValueOf_cases (values : List JsNumber) :
    (∃ finite : List FiniteNumber, values = finite.map (·.val)) ∨
      (∃ value ∈ values, value.isFinite = false) ∧
        values.mapM (encodeValueOf type) = .error (.rangeError "value must be finite") := by
  induction values with
  | nil => exact .inl ⟨[], rfl⟩
  | cons value values ih =>
    cases hvalue : value.isFinite with
    | false =>
      refine .inr ⟨⟨value, mem_cons_self, hvalue⟩, ?_⟩
      have hthrows : encodeValueOf type value = .error (.rangeError "value must be finite") :=
        dif_neg (by simp [hvalue])
      rw [mapM_cons, hthrows]
      rfl
    | true =>
      rcases ih with ⟨finite, rfl⟩ | ⟨⟨other, hother, hnot⟩, hthrows⟩
      · exact .inl ⟨⟨value, hvalue⟩ :: finite, rfl⟩
      · refine .inr ⟨⟨other, mem_cons_of_mem _ hother, hnot⟩, ?_⟩
        have hfirst : encodeValueOf type value = .ok (encodeValue type ⟨value, hvalue⟩) :=
          dif_pos hvalue
        rw [mapM_cons, hfirst, hthrows]
        rfl

theorem registerCountForValues_pos {count : Nat} (h : count ≠ 0) :
    registerCountForValues type count =
      if isByteValueType type then (count + 1) / 2 else count * registerSpan type := by
  have hcount : max 1 count = count := max_eq_right (one_le_iff_ne_zero.2 h)
  unfold registerCountForValues
  rw [hcount]
  simp only
  split_ifs with hbyte hbool
  · rfl
  · rw [hbool]
    exact (mul_one count).symm
  · rfl

/-- What is encoded is read back as what the type holds of it, in order, and takes the registers
that are counted for it, unless it is nothing. Only a number that is not finite is refused, and
the byte types take it too. -/
theorem values_round_trip (type : ModbusValueType) (values : List JsNumber)
    (hfloat : type ≠ .float32Be ∧ type ≠ .float32Le) :
    match encodeValuesOf type values with
    | .ok words =>
      decodeValues type words = (padded type (values.map (held type))).map (fun v => .finite v) ∧
        words.length = if values = [] then 0 else registerCountForValues type values.length
    | .error error =>
      isByteValueType type = false ∧ (∃ value ∈ values, value.isFinite = false) ∧
        error = .rangeError "value must be finite" := by
  have hcount : ∀ words : List Nat,
      words.length = (if isByteValueType type then (values.length + 1) / 2
        else values.length * registerSpan type) →
      words.length = if values = [] then 0 else registerCountForValues type values.length := by
    intro words hwords
    rw [hwords]
    split_ifs with hbyte hnil hnil
    · simp [hnil]
    · rw [registerCountForValues_pos type (by simpa using hnil), if_pos hbyte]
    · simp [hnil]
    · rw [registerCountForValues_pos type (by simpa using hnil), if_neg hbyte]
  unfold encodeValuesOf
  by_cases hbyte : isByteValueType type = true
  · rw [if_pos hbyte]
    refine ⟨decodeValues_bytes hbyte values, hcount _ ?_⟩
    rw [length_encodeBytePairsOf, if_pos hbyte]
  · have hword : isByteValueType type = false := by simpa using hbyte
    rw [if_neg hbyte]
    rcases mapM_encodeValueOf_cases type values with ⟨finite, rfl⟩ | ⟨hnot, hthrows⟩
    · rw [mapM_encodeValueOf]
      have hflat : (finite.map (encodeValue type)).flatten = encodeValues type finite := by
        unfold encodeValues
        rw [if_neg hbyte]
        rfl
      refine ⟨?_, hcount _ ?_⟩
      · rw [hflat]
        unfold encodeValues padded
        rw [if_neg hbyte, if_neg (by simp [hword]), decodeValues_encoded hfloat hword, map_map,
          map_map]
        rfl
      · rw [hflat, length_encodeValues, length_map]
    · rw [hthrows]
      exact ⟨hword, hnot, rfl⟩

theorem values_round_trip_int16 :
    match encodeValuesOf .int16 [.finite (-1), .finite 70000] with
    | .ok words =>
      decodeValues .int16 words =
          (padded .int16 ([.finite (-1), .finite 70000].map (held .int16))).map
            (fun v => .finite v) ∧
        words.length = if [JsNumber.finite (-1), .finite 70000] = [] then 0
          else registerCountForValues .int16 2
    | .error error =>
      isByteValueType .int16 = false ∧
        (∃ value ∈ [JsNumber.finite (-1), .finite 70000], value.isFinite = false) ∧
        error = .rangeError "value must be finite" :=
  values_round_trip .int16 [.finite (-1), .finite 70000] ⟨by decide, by decide⟩

/-- A register is counted for no value at all. -/
theorem no_value_takes_no_register :
    encodeValuesOf .uint16 [] = .ok [] ∧ registerCountForValues .uint16 0 = 1 := ⟨rfl, rfl⟩

end bbcom.modbus_core
