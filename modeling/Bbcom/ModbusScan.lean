-- The laws of the response scan: what it cuts out are windows of the buffer, what it passes
-- over holds no frame, and a response fixes the length of the frame that it was read from.
import Bbcom.ModbusTransport

open bbcom.js bbcom.modbus_core

namespace bbcom.modbus_transport

open List Nat Uint8Array

/-! ## One frame -/

variable {buf frame : Uint8Array} {response : ModbusResponse}

/-- The length that a response announces is five bytes at least. -/
theorem rtuResponseLength_le {length : Nat} (h : rtuResponseLength buf = some length) :
    5 ≤ length := by
  unfold rtuResponseLength at h
  split at h
  · cases h
  · split at h
    · cases h
      exact le_refl 5
    · split at h
      · cases h
        decide
      · split at h
        · cases h
        · split at h
          · cases h
          · split at h
            · cases h
            · split at h
              · cases h
              · cases h
                omega

/-- Only the first three bytes count. -/
theorem rtuResponseLength_append (buf tail : Uint8Array) (h : 3 ≤ buf.length) :
    rtuResponseLength (buf ++ tail) = rtuResponseLength buf := by
  unfold rtuResponseLength
  rw [List.getElem?_append_left (by omega), List.getElem?_append_left (by omega)]

structure IsFrameAt (buf frame : Uint8Array) : Prop where
  announced : rtuResponseLength buf = some frame.length
  front : frame <+: buf
  long : 5 ≤ frame.length
  crc : verifyCrc frame = true

theorem rtuFrameAt_spec (h : rtuFrameAt buf = some frame) : IsFrameAt buf frame := by
  unfold rtuFrameAt at h
  split at h
  · cases h
  · rename_i length hlength
    split at h
    · cases h
    · rename_i hfits
      have hlong := rtuResponseLength_le hlength
      have hlen : (buf.take length).length = length := by
        rw [length_take]
        omega
      dsimp only at h
      split at h
      · rename_i hcrc
        cases h
        refine ⟨by rw [hlen, hlength], take_prefix _ _, by omega, ?_⟩
        unfold verifyCrc
        rw [hlen, if_neg (by omega)]
        exact decide_eq_true hcrc
      · cases h

theorem rtuFrameAt_whole (hlength : rtuResponseLength frame = some frame.length)
    (hcrc : verifyCrc frame = true) : rtuFrameAt frame = some frame := by
  have hlong := rtuResponseLength_le hlength
  unfold verifyCrc at hcrc
  rw [if_neg (by omega), decide_eq_true_eq] at hcrc
  unfold rtuFrameAt
  rw [hlength]
  dsimp only
  rw [if_neg (lt_irrefl _), take_length, if_pos hcrc]

/-! ## The RTU scan -/

/-- No whole frame with a valid CRC stands anywhere in the bytes. -/
def FrameFree (buf : Uint8Array) : Prop := ∀ i, rtuFrameAt (buf.drop i) = none

/-- A buffer without a frame is passed over. -/
theorem scanRtu_frameFree (h : FrameFree buf) (fuel offset consumed : Nat) :
    scanRtu buf fuel offset consumed = ([], consumed) := by
  induction fuel generalizing offset with
  | zero => rfl
  | succ fuel ih =>
    unfold scanRtu
    rw [h offset]
    split
    · exact ih (offset + 1)
    · rfl

/-- Every frame is a window of the buffer, at the offset of the scan or behind it. -/
theorem scanRtu_windows (buf : Uint8Array) (fuel offset consumed : Nat) :
    ∀ frame ∈ (scanRtu buf fuel offset consumed).1,
      ∃ i, offset ≤ i ∧ rtuFrameAt (buf.drop i) = some frame := by
  induction fuel generalizing offset consumed with
  | zero =>
    intro frame hframe
    cases hframe
  | succ fuel ih =>
    intro frame hframe
    unfold scanRtu at hframe
    split at hframe
    · split at hframe
      · obtain ⟨i, hi, hat⟩ := ih (offset + 1) consumed frame hframe
        exact ⟨i, by omega, hat⟩
      · rename_i first hfirst
        rcases mem_cons.mp hframe with rfl | hframe
        · exact ⟨offset, le_refl _, hfirst⟩
        · obtain ⟨i, hi, hat⟩ := ih _ _ frame hframe
          exact ⟨i, by omega, hat⟩
    · cases hframe

/-- The scan never gives bytes back that it has consumed. -/
theorem le_scanRtu_consumed (buf : Uint8Array) (fuel offset consumed : Nat)
    (h : consumed ≤ offset) : consumed ≤ (scanRtu buf fuel offset consumed).2 := by
  induction fuel generalizing offset consumed with
  | zero => exact le_refl _
  | succ fuel ih =>
    unfold scanRtu
    split
    · split
      · exact ih (offset + 1) consumed (by omega)
      · refine le_trans ?_ (ih _ _ (le_refl _))
        omega
    · exact le_refl _

/-- A frame at or behind the offset is found, or another one before it, and the bytes up to
its end are consumed. -/
theorem scanRtu_finds (buf : Uint8Array) (fuel offset consumed i : Nat) (hoffset : offset ≤ i)
    (hfuel : i < fuel + offset) (h : rtuFrameAt (buf.drop i) ≠ none) :
    offset + 5 ≤ (scanRtu buf fuel offset consumed).2 := by
  have hroom : i + 4 < buf.length := by
    obtain ⟨frame, hframe⟩ := Option.ne_none_iff_exists'.mp h
    have hspec := rtuFrameAt_spec hframe
    have hlong := hspec.long
    have hle := hspec.front.length_le
    rw [length_drop] at hle
    omega
  induction fuel generalizing offset consumed with
  | zero => omega
  | succ fuel ih =>
    unfold scanRtu
    rw [if_pos (by omega)]
    cases hat : rtuFrameAt (buf.drop offset) with
    | none =>
      have hne : offset ≠ i := by
        rintro rfl
        exact h hat
      have := ih (offset + 1) consumed (by omega) (by omega)
      dsimp only
      omega
    | some frame =>
      have hlong := (rtuFrameAt_spec hat).long
      have := le_scanRtu_consumed buf fuel (offset + frame.length) (offset + frame.length)
        (le_refl _)
      dsimp only
      omega

/-- A buffer that is one frame is given out whole. -/
theorem scanRtu_whole (h : rtuFrameAt frame = some frame) :
    scanRtu frame frame.length 0 0 = ([frame], frame.length) := by
  have hlong := (rtuFrameAt_spec h).long
  obtain ⟨n, hn⟩ : ∃ n, frame.length = n + 1 := ⟨frame.length - 1, by omega⟩
  have hend : scanRtu frame n frame.length frame.length = ([], frame.length) := by
    cases n with
    | zero => rfl
    | succ n =>
      unfold scanRtu
      rw [if_neg (by omega)]
  rw [hn] at hend ⊢
  unfold scanRtu
  rw [if_pos (by omega), drop_zero, h]
  simp [hn, hend]

/-! ## The PDU scan -/

theorem scanPdu_windows (buf : Uint8Array) (expectedLength : Option Nat) (fuel offset : Nat) :
    ∀ frame ∈ (scanPdu buf expectedLength fuel offset).1, frame <:+: buf := by
  induction fuel generalizing offset with
  | zero =>
    intro frame hframe
    cases hframe
  | succ fuel ih =>
    intro frame hframe
    unfold scanPdu at hframe
    split at hframe
    · cases hframe
    · split at hframe
      · cases hframe
      · split at hframe
        · cases hframe
        · rcases mem_cons.mp hframe with rfl | hframe
          · unfold subarray
            exact (drop_suffix _ _).isInfix.trans ( take_prefix _ _).isInfix
          · exact ih _ frame hframe

/-! ## Both scans -/

/-- What the scan leaves over is the end of the buffer. -/
theorem scanResponse_remainder (transport : ModbusTransport) (buf : Uint8Array)
    (expectedLength : Option Nat) :
    (scanResponse transport buf expectedLength).remainder <:+ buf := drop_suffix _ _

/-- What the scan gives out are windows of the buffer, with a valid CRC on RTU. -/
theorem scanResponse_frames (transport : ModbusTransport) (buf : Uint8Array)
    (expectedLength : Option Nat) (h : frame ∈ (scanResponse transport buf expectedLength).frames) :
    frame <:+: buf ∧ (transport = .rtu → verifyCrc frame = true) := by
  cases transport with
  | pdu => exact ⟨scanPdu_windows _ _ _ _ frame h, fun hrtu => by cases hrtu⟩
  | rtu =>
    obtain ⟨i, _, hat⟩ := scanRtu_windows _ _ _ _ frame h
    have hspec := rtuFrameAt_spec hat
    exact ⟨hspec.front.isInfix.trans (drop_suffix _ _).isInfix, fun _ => hspec.crc⟩

/-! ## The length of a response -/

/-- The bytes of the PDU that a response is read from. -/
def pduLength : ModbusResponse → Nat
  | .exception _ _ _ => 2
  | .readBits _ _ bits => 2 + bits.length / 8
  | .readRegs _ _ regs => 2 + 2 * regs.length
  | .writeAck _ _ _ _ => 5

theorem length_flatMap_byteBits (data : Uint8Array) :
    (data.flatMap byteBits).length = 8 * data.length := by
  rw [length_flatMap]
  simp [byteBits, mul_comm]

theorem length_pairWords (data : Uint8Array) : (pairWords data).length = data.length / 2 := by
  induction data using pairWords.induct with
  | case1 hi lo rest ih =>
    simp only [pairWords, length_cons, ih]
    omega
  | case2 data h =>
    rcases data with _ | ⟨a, _ | ⟨b, rest⟩⟩
    · rfl
    · simp [pairWords]
    · exact absurd rfl (h a b rest)

variable {slave : UInt8}

/-- The four forms of a PDU that parses, each with its response. -/
theorem parsePdu_cases {pdu : Uint8Array} (h : parsePdu slave pdu = some response) :
    (∃ fc code, pdu = [fc, code] ∧ fc &&& 0x80 ≠ 0 ∧ response = .exception slave fc code) ∨
    (∃ fc byteCount data, pdu = fc :: byteCount :: data ∧ (fc = 0x01 ∨ fc = 0x02) ∧
      data.length = byteCount.toNat ∧ response = .readBits slave fc (data.flatMap byteBits)) ∨
    (∃ fc byteCount data, pdu = fc :: byteCount :: data ∧ (fc = 0x03 ∨ fc = 0x04) ∧
      data.length = byteCount.toNat ∧ byteCount.toNat % 2 = 0 ∧
      response = .readRegs slave fc (pairWords data)) ∨
    (∃ fc a b c d count, pdu = [fc, a, b, c, d] ∧
      (fc = 0x05 ∨ fc = 0x06 ∨ fc = 0x0f ∨ fc = 0x10) ∧
      response = .writeAck slave fc (u16Of a b) count) := by
  unfold parsePdu at h
  split at h
  · cases h
  · rename_i fc rest
    split at h
    · rename_i hfc
      split at h
      · cases h
        exact .inl ⟨fc, _, rfl, hfc, rfl⟩
      · cases h
    · split at h
      · rename_i hfc
        split at h
        · split at h
          · rename_i hlen
            cases h
            exact .inr (.inl ⟨fc, _, _, rfl, hfc, hlen, rfl⟩)
          · cases h
        · cases h
      · split at h
        · rename_i hfc
          split at h
          · split at h
            · rename_i hlen
              cases h
              exact .inr (.inr (.inl ⟨fc, _, _, rfl, hfc, hlen.1, hlen.2, rfl⟩))
            · cases h
          · cases h
        · split at h
          · rename_i hfc
            split at h
            · cases h
              exact .inr (.inr (.inr ⟨fc, _, _, _, _, _, rfl, by tauto, rfl⟩))
            · cases h
          · split at h
            · rename_i hfc
              split at h
              · cases h
                exact .inr (.inr (.inr ⟨fc, _, _, _, _, _, rfl, by tauto, rfl⟩))
              · cases h
            · cases h

theorem parsePdu_length {pdu : Uint8Array} (h : parsePdu slave pdu = some response) :
    pdu.length = pduLength response := by
  rcases parsePdu_cases h with ⟨fc, code, rfl, _, rfl⟩ | ⟨fc, n, data, rfl, _, _, rfl⟩ |
    ⟨fc, n, data, rfl, _, hlen, heven, rfl⟩ | ⟨fc, a, b, c, d, count, rfl, _, rfl⟩
  · rfl
  · simp only [pduLength, length_flatMap_byteBits, length_cons]
    omega
  · simp only [pduLength, length_pairWords, length_cons]
    omega
  · rfl

/-- A response of RTU has a slave byte before its PDU and two CRC bytes behind. -/
theorem parseFrame_rtu (h : parseFrame .rtu frame = some response) :
    verifyCrc frame = true ∧
      ∃ slave pdu crc, frame = slave :: (pdu ++ crc) ∧ crc.length = 2 ∧
        parsePdu slave pdu = some response := by
  simp only [parseFrame, parseResponse, Bool.not_true, Bool.false_and, if_true] at h
  split at h
  · cases h
  · rename_i hlen
    split at h
    · cases h
    · rename_i hcrc
      have hcrc : verifyCrc frame = true := by simpa using hcrc
      rw [if_neg (by decide)] at h
      rcases frame with _ | ⟨slave, rest⟩
      · simp at hlen
      · refine ⟨hcrc, slave, rest.take (rest.length - 2), rest.drop (rest.length - 2), ?_, ?_, ?_⟩
        · rw [take_append_drop]
        · simp only [length_cons] at hlen
          rw [length_drop]
          omega
        · have hsub : subarray (slave :: rest) 1 ((slave :: rest).length - 2) =
              rest.take (rest.length - 2) := by
            simp only [length_cons] at hlen
            unfold subarray
            rw [show (slave :: rest).length - 2 = (rest.length - 2) + 1 by
              simp only [length_cons]; omega, take_succ_cons]
            rfl
          rw [hsub] at h
          exact h

/-- Two frames with the same response have the same length. -/
theorem parseFrame_rtu_length (h : parseFrame .rtu frame = some response) :
    frame.length = pduLength response + 3 := by
  obtain ⟨_, slave, pdu, crc, rfl, hcrc, hpdu⟩ := parseFrame_rtu h
  have := parsePdu_length hpdu
  simp only [length_cons, length_append]
  omega

/-! ## Announced lengths -/

/-- No function code has the bit that marks an exception. -/
theorem plain_fc {fc : UInt8} (h : fc ∈ [0x01, 0x02, 0x03, 0x04, 0x05, 0x06, 0x0f, 0x10]) :
    ¬fc &&& 0x80 ≠ 0 := by
  simp only [mem_cons, not_mem_nil, or_false] at h
  rcases h with rfl | rfl | rfl | rfl | rfl | rfl | rfl | rfl <;> decide

/-- The length that a read reply announces is its byte count and the five bytes around it. -/
theorem readReply_announced {fc n : UInt8} {data crc : Uint8Array} (hcrc : crc.length = 2)
    (hlen : data.length = n.toNat) (hone : 1 ≤ n.toNat) (hmax : n.toNat ≤ 250)
    (hfc : fc ∈ [0x01, 0x02, 0x03, 0x04]) (heven : fc = 0x03 ∨ fc = 0x04 → n.toNat % 2 = 0) :
    rtuResponseLength (slave :: (fc :: n :: data ++ crc)) =
      some (slave :: (fc :: n :: data ++ crc)).length := by
  simp only [mem_cons, not_mem_nil, or_false] at hfc
  have hplain : ¬fc &&& 0x80 ≠ 0 := by
    rcases hfc with rfl | rfl | rfl | rfl <;> decide
  have hwrite : ¬(fc = 0x05 ∨ fc = 0x06 ∨ fc = 0x0f ∨ fc = 0x10) := by
    rcases hfc with rfl | rfl | rfl | rfl <;> decide
  have hread : ¬(fc ≠ 0x01 ∧ fc ≠ 0x02 ∧ fc ≠ 0x03 ∧ fc ≠ 0x04) := by tauto
  have hquantity : ¬(n.toNat < 1 ∨ n.toNat > 250) := by omega
  have hodd : ¬((fc = 0x03 ∨ fc = 0x04) ∧ n.toNat % 2 ≠ 0) := fun h => h.2 (heven h.1)
  have hall : (slave :: (fc :: n :: data ++ crc)).length = n.toNat + 5 := by
    simp [hcrc, hlen]
  rw [hall]
  simp only [rtuResponseLength, cons_append, List.getElem?_cons_succ, List.getElem?_cons_zero,
    if_neg hplain, if_neg hwrite, if_neg hread, if_neg hquantity, if_neg hodd]

end bbcom.modbus_transport
