-- What the RTU scan gives out of a buffer and what it skips: valid frames one behind the other,
-- and no valid frame that none of them touches.
import Bbcom.ModbusScan

open bbcom.js bbcom.modbus_core

namespace bbcom.modbus_transport

open List MODBUS_LIMITS Option List

/-! ## Valid frames -/

/-- The bits or words of a read are as many as a request may have asked for. -/
def WithinLimits : ModbusResponse → Prop
  | .readBits _ _ bits => 0 < bits.length ∧ bits.length ≤ readBits
  | .readRegs _ _ regs => 0 < regs.length ∧ regs.length ≤ readRegisters
  | _ => True

/-- A frame of valid length, CRC and form. The parser alone takes a read of no byte and of more
than 250 bytes too. -/
def ValidFrame (frame : Uint8Array) : Prop :=
  ∃ response, parseFrame .rtu frame = some response ∧ WithinLimits response

variable {frame buf : Uint8Array}

/-- A valid frame announces its length. -/
theorem ValidFrame.announced (h : ValidFrame frame) :
    rtuResponseLength frame = some frame.length ∧ verifyCrc frame = true := by
  obtain ⟨response, hparse, hlimits⟩ := h
  obtain ⟨hvalid, slave, pdu, crc, rfl, hcrc, hpdu⟩ := parseFrame_rtu hparse
  refine ⟨?_, hvalid⟩
  rcases parsePdu_cases hpdu with ⟨fc, code, rfl, hfc, rfl⟩ | ⟨fc, n, data, rfl, hfc, hlen, rfl⟩ |
    ⟨fc, n, data, rfl, hfc, hlen, heven, rfl⟩ | ⟨fc, a, b, c, d, count, rfl, hfc, rfl⟩
  · simp [rtuResponseLength, hfc, hcrc]
  · obtain ⟨hpositive, hlimit⟩ := hlimits
    rw [length_flatMap_byteBits] at hpositive hlimit
    unfold readBits at hlimit
    refine readReply_announced hcrc hlen (by omega) (by omega) ?_ ?_
    · rcases hfc with rfl | rfl <;> decide
    · intro hword
      rcases hfc with rfl | rfl <;> exact absurd hword (by decide)
  · obtain ⟨hpositive, hlimit⟩ := hlimits
    rw [length_pairWords] at hpositive hlimit
    unfold readRegisters at hlimit
    refine readReply_announced hcrc hlen (by omega) (by omega) ?_ fun _ => heven
    rcases hfc with rfl | rfl <;> decide
  · have hplain : ¬fc &&& 0x80 ≠ 0 := plain_fc (by rcases hfc with rfl | rfl | rfl | rfl <;> decide)
    simp only [rtuResponseLength, cons_append, getElem?_cons_succ,
      getElem?_cons_zero, if_neg hplain, if_pos hfc]
    simp [hcrc]

/-- What the bytes of a frame that announces its length are. -/
inductive Announced : Uint8Array → Prop
  | exception (slave fc code c d : UInt8) (hfc : fc &&& 0x80 ≠ 0) :
      Announced [slave, fc, code, c, d]
  | ack (slave fc a b c d e f : UInt8) (hfc : fc = 0x05 ∨ fc = 0x06 ∨ fc = 0x0f ∨ fc = 0x10) :
      Announced [slave, fc, a, b, c, d, e, f]
  | read (slave fc byteCount : UInt8) (data crc : Uint8Array) (hcrc : crc.length = 2)
      (hdata : data.length = byteCount.toNat) (hone : 1 ≤ byteCount.toNat)
      (hmax : byteCount.toNat ≤ 250) (hfc : fc = 0x01 ∨ fc = 0x02 ∨ fc = 0x03 ∨ fc = 0x04)
      (heven : fc = 0x03 ∨ fc = 0x04 → byteCount.toNat % 2 = 0) :
      Announced (slave :: (fc :: byteCount :: data ++ crc))

theorem announced_of_length (h : rtuResponseLength frame = some frame.length) :
    Announced frame := by
  rcases frame with _ | ⟨slave, _ | ⟨fc, rest⟩⟩
  · cases h
  · cases h
  simp only [rtuResponseLength, getElem?_cons_succ, getElem?_cons_zero] at h
  split_ifs at h with hexception hack hother
  · simp only [length_cons, some.injEq] at h
    obtain ⟨code, c, d, rfl⟩ := length_eq_three.1 (by omega : rest.length = 3)
    exact .exception slave fc code c d hexception
  · simp only [length_cons, some.injEq] at h
    obtain ⟨a, rest, rfl⟩ := exists_cons_of_length_eq_add_one (by omega : rest.length = 5 + 1)
    simp only [length_cons] at h
    obtain ⟨b, rest, rfl⟩ := exists_cons_of_length_eq_add_one (by omega : rest.length = 4 + 1)
    simp only [length_cons] at h
    obtain ⟨c, rest, rfl⟩ := exists_cons_of_length_eq_add_one (by omega : rest.length = 3 + 1)
    simp only [length_cons] at h
    obtain ⟨d, e, f, rfl⟩ := length_eq_three.1 (by omega : rest.length = 3)
    exact .ack slave fc a b c d e f hack
  · rcases rest with _ | ⟨byteCount, rest⟩
    · cases h
    · simp only [getElem?_cons_zero] at h
      split_ifs at h with hquantity hodd
      simp only [length_cons, some.injEq] at h
      have hread : fc = 0x01 ∨ fc = 0x02 ∨ fc = 0x03 ∨ fc = 0x04 := by tauto
      have hdata : (rest.take byteCount.toNat).length = byteCount.toNat := by
        rw [length_take]
        omega
      have hcrc : (rest.drop byteCount.toNat).length = 2 := by
        rw [length_drop]
        omega
      rw [← take_append_drop byteCount.toNat rest]
      exact .read slave fc byteCount _ _ hcrc hdata (by omega) (by omega) hread fun hword => by
        by_contra hne
        exact hodd ⟨hword, hne⟩

/-- Behind a valid CRC a frame is read from what stands in front of it. -/
theorem parseFrame_valid {slave : UInt8} {pdu crc : Uint8Array} (hcrc : crc.length = 2)
    (hpdu : pdu ≠ []) (h : verifyCrc (slave :: (pdu ++ crc)) = true) :
    parseFrame .rtu (slave :: (pdu ++ crc)) = parsePdu slave pdu := by
  have hpositive := length_pos_of_ne_nil hpdu
  have hlength : (slave :: (pdu ++ crc)).length = pdu.length + 3 := by simp [hcrc]
  have hsub : Uint8Array.subarray (slave :: (pdu ++ crc)) 1 (pdu.length + 1) = pdu := by
    simp [Uint8Array.subarray]
  simp only [parseFrame, parseResponse, Bool.not_true, Bool.false_and, if_true, hlength]
  rw [if_neg (by omega), if_neg (by simp [h]), if_neg (by decide)]
  exact congrArg (parsePdu slave) hsub

theorem validFrame_of_announced (hlength : rtuResponseLength frame = some frame.length)
    (hvalid : verifyCrc frame = true) : ValidFrame frame := by
  cases announced_of_length hlength with
  | exception slave fc code c d hfc =>
    have hparse : parsePdu slave [fc, code] = some (.exception slave fc code) := by
      simp [parsePdu, hfc]
    exact ⟨_, (@parseFrame_valid slave [fc, code] [c, d] rfl (by simp) hvalid).trans
      hparse, trivial⟩
  | ack slave fc a b c d e f hfc =>
    have hplain : ¬fc &&& 0x80 ≠ 0 := plain_fc (by rcases hfc with rfl | rfl | rfl | rfl <;> decide)
    obtain ⟨count, hparse⟩ : ∃ count, parsePdu slave [fc, a, b, c, d] =
        some (.writeAck slave fc (u16Of a b) count) := by
      simp only [parsePdu, if_neg hplain]
      rcases hfc with rfl | rfl | rfl | rfl
      · exact ⟨1, rfl⟩
      · exact ⟨1, rfl⟩
      · exact ⟨u16Of c d, rfl⟩
      · exact ⟨u16Of c d, rfl⟩
    exact ⟨_, (@parseFrame_valid slave [fc, a, b, c, d] [e, f] rfl (by simp)
      hvalid).trans hparse, trivial⟩
  | read slave fc byteCount data crc hcrc hdata hone hmax hfc heven =>
    have hplain : ¬fc &&& 0x80 ≠ 0 := plain_fc (by rcases hfc with rfl | rfl | rfl | rfl <;> decide)
    have hparse := @parseFrame_valid slave (fc :: byteCount :: data) crc hcrc (by simp) hvalid
    by_cases hbits : fc = 0x01 ∨ fc = 0x02
    · refine ⟨.readBits slave fc (data.flatMap byteBits), hparse.trans ?_, ?_⟩
      · simp only [parsePdu, if_neg hplain, if_pos hbits, if_pos hdata]
      · change 0 < (data.flatMap byteBits).length ∧ (data.flatMap byteBits).length ≤ 2000
        rw [length_flatMap_byteBits]
        omega
    · have hwords : fc = 0x03 ∨ fc = 0x04 := by tauto
      have hform := And.intro hdata (heven hwords)
      refine ⟨.readRegs slave fc (pairWords data), hparse.trans ?_, ?_⟩
      · simp only [parsePdu, if_neg hplain, if_neg hbits, if_pos hwords, if_pos hform]
      · change 0 < (pairWords data).length ∧ (pairWords data).length ≤ 125
        rw [length_pairWords]
        omega

/-- The scan takes what stands at the front of the buffer just when it is a valid frame. -/
theorem rtuFrameAt_iff : rtuFrameAt buf = some frame ↔ frame <+: buf ∧ ValidFrame frame := by
  constructor
  · intro h
    have hspec := rtuFrameAt_spec h
    obtain ⟨tail, rfl⟩ := hspec.front
    have hlong := hspec.long
    have hannounced := hspec.announced
    rw [rtuResponseLength_append frame tail (by omega)] at hannounced
    exact ⟨prefix_append _ _, validFrame_of_announced hannounced hspec.crc⟩
  · rintro ⟨⟨tail, rfl⟩, hvalid⟩
    obtain ⟨hlength, hcrc⟩ := hvalid.announced
    have hlong := rtuResponseLength_le hlength
    have hannounced := rtuResponseLength_append frame tail (by omega)
    have hwhole := rtuFrameAt_whole hlength hcrc
    have hroom : ¬frame.length > (frame ++ tail).length := by simp
    unfold rtuFrameAt at hwhole ⊢
    rw [hannounced, hlength]
    rw [hlength] at hwhole
    simp only [gt_iff_lt, lt_irrefl, if_false, take_length] at hwhole
    simp only [if_neg hroom, take_left]
    exact hwhole

/-! ## The windows of a scan -/

/-- The windows stand in the buffer one behind the other, from `offset` on. -/
def Windows (buf : Uint8Array) : Nat → List (Nat × Uint8Array) → Prop
  | _, [] => True
  | offset, (start, frame) :: windows =>
    offset ≤ start ∧ frame <+: buf.drop start ∧ Windows buf (start + frame.length) windows

/-- Two windows have a byte of the buffer in common. -/
def Overlap (a b : Nat × Uint8Array) : Prop :=
  a.1 < b.1 + b.2.length ∧ b.1 < a.1 + a.2.length

/-- Where the last window ends. -/
def lastEnd (start : Nat) (windows : List (Nat × Uint8Array)) : Nat :=
  windows.foldl (fun _ window => window.1 + window.2.length) start

theorem Windows.from_before {offset offset' : Nat} {windows : List (Nat × Uint8Array)}
    (h : Windows buf offset windows) (hle : offset' ≤ offset) : Windows buf offset' windows := by
  cases windows with
  | nil => trivial
  | cons window windows => exact ⟨hle.trans h.1, h.2⟩

/-- What a scan from `offset` on gives. -/
structure Scanned (buf : Uint8Array) (offset consumed : Nat) (result : List Uint8Array × Nat)
    (windows : List (Nat × Uint8Array)) : Prop where
  frames : result.1 = windows.map (·.2)
  placed : Windows buf offset windows
  valid : ∀ window ∈ windows, ValidFrame window.2
  rest : result.2 = lastEnd consumed windows
  skipped : ∀ start frame, offset ≤ start → frame <+: buf.drop start → ValidFrame frame →
    ∃ window ∈ windows, Overlap (start, frame) window

/-- A frame has five bytes at least, so none starts where fewer are left. -/
theorem ValidFrame.room {start : Nat} (h : ValidFrame frame) (hfront : frame <+: buf.drop start) :
    start + 4 < buf.length := by
  have hlong := rtuResponseLength_le h.announced.1
  have hle := hfront.length_le
  rw [length_drop] at hle
  omega

theorem scanned_end {offset consumed : Nat} (h : ¬offset + 4 < buf.length) :
    Scanned buf offset consumed ([], consumed) [] := by
  refine ⟨rfl, trivial, by simp, rfl, fun start frame hstart hfront hvalid => ?_⟩
  have hroom := hvalid.room hfront
  omega

theorem scanRtu_scanned (buf : Uint8Array) (fuel offset consumed : Nat)
    (hfuel : buf.length ≤ fuel + offset) :
    ∃ windows, Scanned buf offset consumed (scanRtu buf fuel offset consumed) windows := by
  induction fuel generalizing offset consumed with
  | zero => exact ⟨[], scanned_end (by omega)⟩
  | succ fuel ih =>
    unfold scanRtu
    split
    · rename_i hroom
      cases hat : rtuFrameAt (buf.drop offset) with
      | none =>
        -- nothing starts here, so all that starts from here on starts behind
        obtain ⟨windows, hnext⟩ := ih (offset + 1) consumed (by omega)
        refine ⟨windows, hnext.frames, hnext.placed.from_before (Nat.le_succ _), hnext.valid,
          hnext.rest, fun start frame hstart hfront hvalid => ?_⟩
        rcases Nat.eq_or_lt_of_le hstart with rfl | hbehind
        · rw [rtuFrameAt_iff.2 ⟨hfront, hvalid⟩] at hat
          cases hat
        · exact hnext.skipped start frame hbehind hfront hvalid
      | some first =>
        obtain ⟨hfirst, hfirstValid⟩ := rtuFrameAt_iff.1 hat
        have hlong := rtuResponseLength_le hfirstValid.announced.1
        obtain ⟨windows, hnext⟩ := ih (offset + first.length) (offset + first.length) (by omega)
        refine ⟨(offset, first) :: windows, ?_, ⟨le_rfl, hfirst, hnext.placed⟩, ?_,
          hnext.rest, fun start frame hstart hfront hvalid => ?_⟩
        · exact congrArg (first :: ·) hnext.frames
        · rintro window hwindow
          rcases mem_cons.1 hwindow with rfl | hwindow
          · exact hfirstValid
          · exact hnext.valid window hwindow
        · rcases Nat.lt_or_ge start (offset + first.length) with hinside | hbehind
          · have hlength := rtuResponseLength_le hvalid.announced.1
            exact ⟨_, mem_cons_self, hinside, by simp only; omega⟩
          · obtain ⟨window, hwindow, hoverlap⟩ := hnext.skipped start frame hbehind hfront hvalid
            exact ⟨window, mem_cons_of_mem _ hwindow, hoverlap⟩
    · rename_i hend
      exact ⟨[], scanned_end hend⟩

/-- The frames of an RTU scan are disjoint windows of the buffer in increasing order, each of them
valid, the remainder is what stands behind the last of them, and every valid frame that stands
anywhere in the buffer overlaps one of them. -/
theorem scan_is_sound (buf : Uint8Array) (expectedLength : Option Nat) :
    ∃ windows, (scanResponse .rtu buf expectedLength).frames = windows.map (·.2) ∧
      Windows buf 0 windows ∧
      (∀ window ∈ windows, verifyCrc window.2 = true ∧ parseFrame .rtu window.2 ≠ none) ∧
      (scanResponse .rtu buf expectedLength).remainder = buf.drop (lastEnd 0 windows) ∧
      ∀ start frame, frame <+: buf.drop start → ValidFrame frame →
        ∃ window ∈ windows, Overlap (start, frame) window := by
  obtain ⟨windows, hscan⟩ := scanRtu_scanned buf buf.length 0 0 (by omega)
  refine ⟨windows, hscan.frames, hscan.placed, fun window hwindow => ?_, ?_,
    fun start frame => hscan.skipped start frame (Nat.zero_le _)⟩
  · have hvalid := hscan.valid window hwindow
    obtain ⟨response, hresponse, _⟩ := hscan.valid window hwindow
    exact ⟨hvalid.announced.2, by rw [hresponse]; exact some_ne_none _⟩
  · rw [← hscan.rest]
    rfl

end bbcom.modbus_transport
