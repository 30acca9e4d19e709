-- The delivery of a reply in pieces: how a frame that the scan finds inside a reply that is
-- not complete yet decides whether the reply gets through.
import Bbcom.ModbusRunner
import Bbcom.ModbusScan

open bbcom.js bbcom.modbus_core bbcom.modbus_transport

namespace bbcom.modbus_runner

open ModbusTransactionRunner List UInt8 Effect PendingTransaction

/-! ## Requests and their replies -/

/-- The RTU wire bytes of a request: what one of the five request builders gives. -/
inductive RequestWire (wire : Uint8Array) : Prop
  | read (slave fc start count : Nat) (h : readRequest .rtu slave fc start count = .ok wire)
  | coil (slave addr : Nat) (on : Bool) (h : writeSingleCoilRequest .rtu slave addr on = .ok wire)
  | register (slave addr : Nat) (value : Option Nat)
      (h : writeSingleRegisterRequest .rtu slave addr value = .ok wire)
  | coils (slave start : Nat) (bits : List Bool)
      (h : writeMultipleCoilsRequest .rtu slave start bits = .ok wire)
  | registers (slave start : Nat) (values : List Nat)
      (h : writeMultipleRegistersRequest .rtu slave start values = .ok wire)

/-- What the matcher reads off a request, and the quantity that a read request asks for. -/
structure RequestForm (wire : Uint8Array) (slave fc a b c d : UInt8) (rest : Uint8Array) :
    Prop where
  wire_eq : wire = slave :: fc :: a :: b :: c :: d :: rest
  crc_room : 2 ≤ rest.length
  bit_quantity : fc = 0x01 ∨ fc = 0x02 → 1 ≤ u16Of c d ∧ u16Of c d ≤ 2000
  word_quantity : fc = 0x03 ∨ fc = 0x04 → 1 ≤ u16Of c d ∧ u16Of c d ≤ 125

theorem u16Of_u16Bytes {n : Nat} (h : n ≤ 0xffff) :
    u16Of (ofNat (n / 0x100)) (ofNat n) = n := by
  simp only [u16Of, toNat_ofNat']
  omega

theorem assertQuantity_inv {name : String} {value max n : Nat}
    (h : assertQuantity name value max = .ok n) : 1 ≤ value ∧ value ≤ max := by
  unfold assertQuantity at h
  split at h
  · assumption
  · cases h

/-- A framed PDU, from its slave byte to the room for its CRC. -/
theorem frameRequest_rtu (slave : Nat) (pdu : Uint8Array) :
    ∃ crc, crc.length = 2 ∧ frameRequest .rtu slave pdu = ofNat slave :: (pdu ++ crc) :=
  ⟨crcBytes (ofNat slave :: pdu), rfl, rfl⟩

variable {wire : Uint8Array}

/-- A write request asks for no quantity that a reply has to fill. -/
theorem writeForm (slave : Nat) (fc a b c d : UInt8) (tail : Uint8Array) {pdu : Uint8Array}
    (hfc : fc = 0x05 ∨ fc = 0x06 ∨ fc = 0x0f ∨ fc = 0x10)
    (hpdu : pdu = fc :: a :: b :: c :: d :: tail) (h : frameRequest .rtu slave pdu = wire) :
    ∃ slave fc a b c d rest, RequestForm wire slave fc a b c d rest := by
  obtain ⟨crc, hcrc, hframe⟩ := frameRequest_rtu slave pdu
  refine ⟨ofNat slave, fc, a, b, c, d, tail ++ crc, ?_, ?_, ?_, ?_⟩
  · rw [← h, hframe, hpdu]
    rfl
  · simp [hcrc]
  · intro hread
    rcases hfc with rfl | rfl | rfl | rfl <;> simp at hread
  · intro hread
    rcases hfc with rfl | rfl | rfl | rfl <;> simp at hread

theorem readForm (slave fc start count : Nat)
    (h : readRequest .rtu slave fc start count = .ok wire) :
    ∃ slave fc a b c d rest, RequestForm wire slave fc a b c d rest := by
  obtain ⟨pdu, hpdu, hwire⟩ := map_eq_ok.mp h
  unfold buildReadRequestPdu at hpdu
  by_cases hread : isReadFc fc
  · simp only [hread, Bool.not_true, Bool.false_eq_true, if_false] at hpdu
    obtain ⟨_, _, hpdu⟩ := bind_eq_ok.1 hpdu
    obtain ⟨_, hquantity, hpdu⟩ := bind_eq_ok.mp hpdu
    obtain ⟨hone, hmax⟩ := assertQuantity_inv hquantity
    cases hpdu
    obtain ⟨crc, hcrc, hframe⟩ := frameRequest_rtu slave
      (ofNat fc :: (u16Bytes start ++ u16Bytes count))
    have hbits : MODBUS_LIMITS.readBits = 2000 := rfl
    have hregs : MODBUS_LIMITS.readRegisters = 125 := rfl
    have hcount : count ≤ 2000 := by
      split at hmax <;> omega
    have hq := @u16Of_u16Bytes count (by omega)
    refine ⟨ofNat slave, ofNat fc, ofNat (start / 0x100), ofNat start,
      ofNat (count / 0x100), ofNat count, crc, ?_, by omega, ?_, ?_⟩
    · rw [← hwire, hframe]
      rfl
    · intro _
      rw [hq]
      exact ⟨hone, hcount⟩
    · intro hfc
      rw [hq]
      refine ⟨hone, ?_⟩
      have hword : isBitFc fc = false := by
        simp only [isReadFc, Bool.or_eq_true, decide_eq_true_eq] at hread
        rcases hread with ((rfl | rfl) | rfl) | rfl <;> revert hfc <;> decide
      rw [hword, if_neg (by decide)] at hmax
      omega
  · simp [hread] at hpdu
    cases hpdu

theorem RequestWire.form (h : RequestWire wire) :
    ∃ slave fc a b c d rest, RequestForm wire slave fc a b c d rest := by
  cases h with
  | read slave fc start count h => exact readForm slave fc start count h
  | coil slave addr on h =>
    obtain ⟨pdu, hpdu, hwire⟩ := map_eq_ok.mp h
    obtain ⟨_, _, hpdu⟩ := bind_eq_ok.1 hpdu
    cases hpdu
    exact writeForm slave 0x05 _ _ _ _ [] (by decide) rfl hwire
  | register slave addr value h =>
    obtain ⟨pdu, hpdu, hwire⟩ := map_eq_ok.mp h
    obtain ⟨_, _, hpdu⟩ := bind_eq_ok.1 hpdu
    obtain ⟨_, _, hpdu⟩ := bind_eq_ok.1 hpdu
    cases hpdu
    exact writeForm slave 0x06 _ _ _ _ [] (by decide) rfl hwire
  | coils slave start bits h =>
    obtain ⟨pdu, hpdu, hwire⟩ := map_eq_ok.mp h
    obtain ⟨_, _, hpdu⟩ := bind_eq_ok.1 hpdu
    obtain ⟨_, _, hpdu⟩ := bind_eq_ok.1 hpdu
    cases hpdu
    exact writeForm slave 0x0f _ _ _ _ _ (by decide) rfl hwire
  | registers slave start values h =>
    obtain ⟨pdu, hpdu, hwire⟩ := map_eq_ok.mp h
    obtain ⟨_, _, hpdu⟩ := bind_eq_ok.1 hpdu
    obtain ⟨_, _, hpdu⟩ := bind_eq_ok.1 hpdu
    obtain ⟨_, _, hpdu⟩ := bind_eq_ok.1 hpdu
    cases hpdu
    exact writeForm slave 0x10 _ _ _ _ _ (by decide) rfl hwire

/-- A reply that matches its request announces its own length: the scan knows it for what it
is as soon as all of it is there. -/
theorem reply_announced {reply : Uint8Array} {response : ModbusResponse}
    (hwire : RequestWire wire) (hparse : parseFrame .rtu reply = some response)
    (hmatch : responseMatcher .rtu wire reply response = true) :
    rtuResponseLength reply = some reply.length := by
  obtain ⟨slave, fc, a, b, c, d, rest, hform⟩ := hwire.form
  obtain ⟨_, slave', pdu, crc, rfl, hcrc, hpdu⟩ := parseFrame_rtu hparse
  have hsub : Uint8Array.subarray wire 1 (wire.length - 2) =
      fc :: a :: b :: c :: d :: rest.take (rest.length - 2) := by
    have hroom := hform.crc_room
    rw [hform.wire_eq]
    unfold Uint8Array.subarray
    rw [show (slave :: fc :: a :: b :: c :: d :: rest).length - 2 = rest.length - 2 + 6 by
      simp only [length_cons]; omega]
    simp
  simp only [responseMatcher, if_true, hsub] at hmatch
  split at hmatch
  · cases hmatch
  split at hmatch
  · cases hmatch
  rcases parsePdu_cases hpdu with ⟨fc', code, rfl, hfc, rfl⟩ | ⟨fc', n, data, rfl, hfc, hlen, rfl⟩ |
    ⟨fc', n, data, rfl, hfc, hlen, heven, rfl⟩ | ⟨fc', a', b', c', d', count, rfl, hfc, rfl⟩
  · simp [rtuResponseLength, hfc, hcrc]
  · simp only [getD_cons_zero, getD_cons_succ, Bool.and_eq_true, decide_eq_true_eq,
      length_flatMap_byteBits] at hmatch
    obtain ⟨rfl, hbits⟩ := hmatch
    obtain ⟨hone, hmax⟩ := hform.bit_quantity hfc
    refine readReply_announced hcrc hlen (by omega) (by omega) ?_ ?_
    · rcases hfc with rfl | rfl <;> decide
    · intro hword
      rcases hfc with rfl | rfl <;> exact absurd hword (by decide)
  · simp only [getD_cons_zero, getD_cons_succ, Bool.and_eq_true, decide_eq_true_eq,
      length_pairWords] at hmatch
    obtain ⟨rfl, hwords⟩ := hmatch
    obtain ⟨hone, hmax⟩ := hform.word_quantity hfc
    refine readReply_announced hcrc hlen (by omega) (by omega) ?_ fun _ => heven
    rcases hfc with rfl | rfl <;> decide
  · have hplain : ¬fc' &&& 0x80 ≠ 0 :=
      plain_fc (by rcases hfc with rfl | rfl | rfl | rfl <;> decide)
    simp only [rtuResponseLength, cons_append, getElem?_cons_succ,
      getElem?_cons_zero, if_neg hplain, if_pos hfc]
    simp [hcrc]

/-- An announced length is that of a short frame. -/
theorem rtuResponseLength_short {buf : Uint8Array} {length : Nat}
    (h : rtuResponseLength buf = some length) : length < MAX_MODBUS_TRANSACTION_RX_BYTES := by
  have hmax : MAX_MODBUS_TRANSACTION_RX_BYTES = 256 := rfl
  unfold rtuResponseLength at h
  split at h
  · cases h
  · split at h
    · cases h
      omega
    · split at h
      · cases h
        omega
      · split at h
        · cases h
        · split at h
          · cases h
          · split at h
            · cases h
            · split at h
              · cases h
              · cases h
                omega

/-! ## One slice -/

theorem retain_suffix (remainder : Uint8Array) : retainIncompleteAdu remainder <:+ remainder :=
  drop_suffix _ _

theorem retain_short {remainder : Uint8Array}
    (h : remainder.length < MAX_MODBUS_TRANSACTION_RX_BYTES) :
    retainIncompleteAdu remainder = remainder := by
  unfold retainIncompleteAdu
  rw [show remainder.length - (MAX_MODBUS_TRANSACTION_RX_BYTES - 1) = 0 by omega, drop_zero]

variable {Ctx : Type}

/-- A call with a chunk of one slice at most makes one turn of the loop, and none without
bytes. -/
theorem receive_chunk {r : ModbusTransactionRunner Ctx} {p : PendingTransaction Ctx}
    {chunk : Uint8Array} (hp : r.pending = some p) (hs : p.started = true)
    (hlen : chunk.length ≤ MODBUS_RX_PROCESS_CHUNK_BYTES) :
    r.receive chunk = if chunk = [] then (r, []) else r.receiveSlice p chunk := by
  unfold receive
  rw [hp]
  dsimp only
  rw [if_pos hs]
  rcases chunk with _ | ⟨byte, rest⟩
  · rfl
  · simp only [length_cons, receiveLoop, hp, hs, if_true]
    rw [take_of_length_le hlen, drop_eq_nil_of_le hlen]
    have hdone : ∀ (fuel : Nat) (r : ModbusTransactionRunner Ctx),
        r.receiveLoop fuel [] = (r, []) := by
      intro fuel r
      cases fuel <;> rfl
    simp [hdone]

/-- What the transaction still waits for after a slice: nothing that is left of a reply whose
front is gone. -/
theorem slice_cases (r : ModbusTransactionRunner Ctx) (p : PendingTransaction Ctx)
    (slice : Uint8Array) (htransport : p.transport = .rtu) :
    (∃ frame response, frame <:+: r.rxBuffer ++ slice ∧
      parseFrame .rtu frame = some response ∧
      r.receiveSlice p slice =
        (⟨[], none⟩, p.clearTimer ++ [.resolve p.id (some response)])) ∨
    r.receiveSlice p slice = (⟨retainIncompleteAdu
      (scanResponse .rtu (r.rxBuffer ++ slice) p.expectedLen).remainder, r.pending⟩, []) := by
  unfold receiveSlice
  rw [htransport]
  dsimp only
  cases hfound : (scanResponse .rtu (r.rxBuffer ++ slice) p.expectedLen).frames.findSome?
    p.accept with
  | none => exact .inr rfl
  | some response =>
    obtain ⟨frame, hframe, haccept⟩ := exists_of_findSome?_eq_some hfound
    refine .inl ⟨frame, response, (scanResponse_frames _ _ _ hframe).1, ?_, rfl⟩
    unfold accept at haccept
    rw [htransport] at haccept
    split at haccept
    · cases haccept
    · rename_i candidate hcandidate
      split at haccept
      · cases haccept
        exact hcandidate
      · cases haccept

/-! ## A whole delivery -/

/-- Chunk after chunk, with all that happens on the way. -/
def receiveAll (r : ModbusTransactionRunner Ctx) :
    List Uint8Array → ModbusTransactionRunner Ctx × List (Effect Ctx)
  | [] => (r, [])
  | chunk :: chunks =>
    let (r, effects) := r.receive chunk
    let (r, later) := receiveAll r chunks
    (r, effects ++ later)

/-- A transaction that waits on RTU for a reply, with the facts about the reply. -/
structure Awaits (p : PendingTransaction Ctx) (reply : Uint8Array) (response : ModbusResponse) :
    Prop where
  started : p.started = true
  rtu : p.transport = .rtu
  parses : parseFrame .rtu reply = some response
  accepted : p.matchesResponse reply response = true
  announced : rtuResponseLength reply = some reply.length

/-- The front of the reply is gone, or the transaction with it. -/
def Lost (p : PendingTransaction Ctx) (seen : Uint8Array) (r : ModbusTransactionRunner Ctx) :
    Prop :=
  r.pending = none ∨ r.pending = some p ∧ ∃ gone, gone ≠ [] ∧ seen = gone ++ r.rxBuffer

section
variable {p : PendingTransaction Ctx} {reply : Uint8Array} {response : ModbusResponse}

theorem Awaits.short (h : Awaits p reply response) :
    reply.length < MAX_MODBUS_TRANSACTION_RX_BYTES := rtuResponseLength_short h.announced

theorem Awaits.whole (h : Awaits p reply response) : rtuFrameAt reply = some reply :=
  rtuFrameAt_whole h.announced (parseFrame_rtu h.parses).1

/-- A buffer that is shorter than the reply does not hold it, and so nothing in it can be
taken for it. -/
theorem Awaits.short_slice (h : Awaits p reply response) (r : ModbusTransactionRunner Ctx)
    (slice : Uint8Array) (hlen : (r.rxBuffer ++ slice).length < reply.length) :
    resolve p.id (some response) ∉ (r.receiveSlice p slice).2 := by
  rcases slice_cases r p slice h.rtu with ⟨frame, other, hframe, hparse, hslice⟩ | hslice
  · rw [hslice]
    intro hmem
    rcases mem_append.mp hmem with hmem | hmem
    · unfold clearTimer at hmem
      split at hmem <;> simp at hmem
    · simp only [mem_singleton, resolve.injEq, Option.some.injEq, true_and] at hmem
      subst hmem
      have hreply := parseFrame_rtu_length h.parses
      have hother := parseFrame_rtu_length hparse
      have := hframe.length_le
      omega
  · rw [hslice]
    exact not_mem_nil

variable {chunk seen : Uint8Array}

section

variable (h : Awaits p reply response)
include h

variable {r : ModbusTransactionRunner Ctx}

/-- Once its front is gone, no chunk brings the reply back. -/
theorem Awaits.lost_step (hlost : Lost p seen r) (hpre : seen ++ chunk <+: reply) :
    Lost p (seen ++ chunk) (r.receive chunk).1 ∧
      resolve p.id (some response) ∉ (r.receive chunk).2 := by
  have hshort := h.short
  have hle := hpre.length_le
  rw [length_append] at hle
  rcases hlost with hnone | ⟨hp, gone, hgone, hseen⟩
  · unfold receive
    rw [hnone]
    exact ⟨.inl rfl, not_mem_nil⟩
  · have hmax : MAX_MODBUS_TRANSACTION_RX_BYTES ≤ MODBUS_RX_PROCESS_CHUNK_BYTES := by decide
    rw [receive_chunk hp h.started (by omega)]
    by_cases hchunk : chunk = []
    · rw [if_pos hchunk, hchunk, append_nil]
      exact ⟨.inr ⟨hp, gone, hgone, hseen⟩, not_mem_nil⟩
    · rw [if_neg hchunk]
      have hpos : 0 < gone.length := length_pos_iff.mpr hgone
      refine ⟨?_, h.short_slice r chunk ?_⟩
      · rcases slice_cases r p chunk h.rtu with ⟨_, _, _, _, hslice⟩ | hslice
        · rw [hslice]
          exact .inl rfl
        · rw [hslice]
          obtain ⟨front, hfront⟩ := (retain_suffix _).trans
            (scanResponse_remainder .rtu (r.rxBuffer ++ chunk) p.expectedLen)
          refine .inr ⟨hp, gone ++ front, by simp [hgone], ?_⟩
          rw [append_assoc, hfront, hseen, append_assoc]
      · rw [hseen] at hle
        simp only [length_append] at hle ⊢
        omega

theorem Awaits.lost_run (chunks : List Uint8Array) (hlost : Lost p seen r)
    (hpre : seen ++ chunks.flatten <+: reply) :
    resolve p.id (some response) ∉ (receiveAll r chunks).2 := by
  induction chunks generalizing r seen with
  | nil => exact not_mem_nil
  | cons chunk chunks ih =>
    rw [flatten_cons, ← append_assoc] at hpre
    obtain ⟨hnext, hnot⟩ := h.lost_step hlost ((prefix_append _ _).trans hpre)
    intro hmem
    rcases mem_append.mp hmem with hmem | hmem
    · exact hnot hmem
    · exact ih hnext hpre hmem

/-- A frame that shows in a part of the reply takes the front of the reply with it. -/
theorem Awaits.early_frame (hframe : ¬FrameFree (seen ++ chunk)) :
    Lost p (seen ++ chunk) (receiveSlice ⟨seen, some p⟩ p chunk).1 := by
  rcases slice_cases ⟨seen, some p⟩ p chunk h.rtu with ⟨_, _, _, _, hslice⟩ | hslice
  · rw [hslice]
    exact .inl rfl
  · rw [hslice]
    obtain ⟨i, hi⟩ := not_forall.mp hframe
    have hroom : i < (seen ++ chunk).length := by
      by_contra hout
      rw [drop_eq_nil_of_le (by omega)] at hi
      exact hi rfl
    have hconsumed := scanRtu_finds (seen ++ chunk) (seen ++ chunk).length 0 0 i
      (Nat.zero_le _) (by omega) hi
    have hrest : (scanResponse .rtu (seen ++ chunk) p.expectedLen).remainder =
        (seen ++ chunk).drop (scanRtu (seen ++ chunk) (seen ++ chunk).length 0 0).2 := rfl
    rw [hrest]
    generalize (scanRtu (seen ++ chunk) (seen ++ chunk).length 0 0).2 = consumed at hconsumed
    obtain ⟨front, hfront⟩ := retain_suffix ((seen ++ chunk).drop consumed)
    refine .inr ⟨rfl, (seen ++ chunk).take consumed ++ front, ?_, ?_⟩
    · intro hnil
      have htake := congrArg length (append_eq_nil_iff.mp hnil).1
      rw [length_take, length_nil] at htake
      omega
    · rw [append_assoc, hfront, take_append_drop]

/-- A part of the reply without a frame is kept whole. -/
theorem Awaits.quiet_slice (hlen : (seen ++ chunk).length < reply.length)
    (hfree : FrameFree (seen ++ chunk)) :
    receiveSlice ⟨seen, some p⟩ p chunk =
      (⟨seen ++ chunk, some p⟩, []) := by
  have hshort := h.short
  unfold receiveSlice
  rw [h.rtu]
  simp only [scanResponse, scanRtu_frameFree hfree, drop_zero, findSome?_nil]
  rw [retain_short (by omega)]

/-- The slice that completes the reply completes the transaction. -/
theorem Awaits.last_slice (hall : seen ++ chunk = reply) :
    resolve p.id (some response) ∈
      (receiveSlice ⟨seen, some p⟩ p chunk).2 := by
  have haccept : p.accept reply = some response := by
    unfold accept
    rw [h.rtu, h.parses]
    exact if_pos h.accepted
  unfold receiveSlice
  rw [h.rtu]
  simp only [hall, scanResponse, scanRtu_whole h.whole, findSome?_cons, haccept]
  exact mem_append_right _ (by simp)

end

/-- The cuts of the reply show no frame: every part of it that has arrived at the end of a
chunk, and is not all of it, is free of frames. -/
def QuietCuts (reply : Uint8Array) (chunks : List Uint8Array) : Prop :=
  ∀ k, (chunks.take k).flatten.length < reply.length → FrameFree (chunks.take k).flatten

/-- A delivery from the middle of the reply on, as long as nothing of it is gone. -/
theorem Awaits.run (h : Awaits p reply response) (chunks : List Uint8Array) (seen : Uint8Array)
    (hall : seen ++ chunks.flatten = reply) (hmore : seen.length < reply.length)
    (hfree : FrameFree seen) :
    resolve p.id (some response) ∈ (receiveAll ⟨seen, some p⟩ chunks).2 ↔
      ∀ k, (seen ++ (chunks.take k).flatten).length < reply.length →
        FrameFree (seen ++ (chunks.take k).flatten) := by
  induction chunks generalizing seen with
  | nil =>
    rw [flatten_nil, append_nil] at hall
    rw [hall] at hmore
    exact absurd hmore (Nat.lt_irrefl _)
  | cons chunk chunks ih =>
    have hmax : MAX_MODBUS_TRANSACTION_RX_BYTES ≤ MODBUS_RX_PROCESS_CHUNK_BYTES := by decide
    have hshort := h.short
    have hlen : seen.length + chunk.length ≤ reply.length := by
      rw [← hall]
      simp only [flatten_cons, length_append]
      omega
    rw [flatten_cons, ← append_assoc] at hall
    have hpre : seen ++ chunk <+: reply := hall ▸ prefix_append _ _
    have hcuts : (∀ k, (seen ++ ((chunk :: chunks).take k).flatten).length < reply.length →
        FrameFree (seen ++ ((chunk :: chunks).take k).flatten)) ↔
        ∀ k, (seen ++ chunk ++ (chunks.take k).flatten).length < reply.length →
          FrameFree (seen ++ chunk ++ (chunks.take k).flatten) := by
      constructor
      · intro hk k
        have := hk (k + 1)
        rwa [take_succ_cons, flatten_cons, ← append_assoc] at this
      · intro hk k
        cases k with
        | zero =>
          intro _
          simpa using hfree
        | succ k =>
          rw [take_succ_cons, flatten_cons, ← append_assoc]
          exact hk k
    rw [hcuts]
    have hreceive := @receive_chunk Ctx ⟨seen, some p⟩ p chunk rfl h.started (by omega)
    unfold receiveAll
    rw [hreceive]
    by_cases hchunk : chunk = []
    · subst hchunk
      simp only [append_nil] at hall ⊢
      simpa using ih seen hall hmore hfree
    · rw [if_neg hchunk]
      by_cases hdone : seen ++ chunk = reply
      · -- the rest of the chunks are empty, and no cut is left
        have hresolved := h.last_slice hdone
        constructor
        · intro _ k hk
          rw [hdone, length_append] at hk
          omega
        · intro _
          exact mem_append_left _ hresolved
      · have hpart : (seen ++ chunk).length < reply.length := by
          refine Nat.lt_of_le_of_ne hpre.length_le fun heq => hdone ?_
          exact hpre.eq_of_length heq
        by_cases hquiet : FrameFree (seen ++ chunk)
        · rw [h.quiet_slice hpart hquiet]
          simpa using ih (seen ++ chunk) hall hpart hquiet
        · constructor
          · intro hmem
            rcases mem_append.mp hmem with hmem | hmem
            · exact absurd hmem (h.short_slice ⟨seen, some p⟩ chunk hpart)
            · have hlost := h.early_frame hquiet
              exact absurd hmem (h.lost_run chunks hlost (hall ▸ prefix_refl _))
          · intro hk
            have := hk 0
            rw [take_zero, flatten_nil, append_nil] at this
            exact absurd (this hpart) hquiet

end

theorem frameFree_short {buf : Uint8Array} (h : buf.length < 5) : FrameFree buf := by
  intro i
  by_contra hframe
  obtain ⟨frame, hframe⟩ := Option.ne_none_iff_exists'.mp hframe
  have hspec := rtuFrameAt_spec hframe
  have hlong := hspec.long
  have hle := hspec.front.length_le
  rw [length_drop] at hle
  omega

/-! ## Which deliveries get through -/

/-- A request for four registers of slave 1 that has been sent. -/
def sentRead : PendingTransaction Unit where
  id := 0
  context := ()
  timer := some 0
  started := true
  expectedLen := none
  transport := .rtu
  request := some [1, 3, 0, 0, 0, 4, 68, 9]

/-- A reply to it whose register values happen to spell an exception reply of slave 2. -/
def nestedReply : Uint8Array := [1, 3, 8, 2, 0x83, 2, 48, 241, 0, 0, 0, 213, 220]

def nestedResponse : ModbusResponse := .readRegs 1 3 [0x283, 0x230, 0xf100, 0]

/-- Cut behind those values, the reply is lost; in one chunk it gets through. -/
theorem a_cut_behind_a_nested_frame_loses_the_reply :
    parseFrame .rtu nestedReply = some nestedResponse ∧
    sentRead.matchesResponse nestedReply nestedResponse = true ∧
    [nestedReply.take 8, nestedReply.drop 8].flatten = nestedReply ∧
    resolve 0 (some nestedResponse) ∈ (receiveAll ⟨[], some sentRead⟩ [nestedReply]).2 ∧
    resolve 0 (some nestedResponse) ∉
      (receiveAll ⟨[], some sentRead⟩ [nestedReply.take 8, nestedReply.drop 8]).2 := by
  decide +kernel

/-- A matching reply completes its transaction in one chunk, and in several exactly when no
part of it that has arrived at a cut holds a whole frame with a valid CRC. -/
theorem a_cut_reply_gets_through_exactly_when_its_cuts_are_quiet (r : ModbusTransactionRunner Ctx)
    (p : PendingTransaction Ctx) (wire reply : Uint8Array) (response : ModbusResponse)
    (chunks : List Uint8Array) (hbuffer : r.rxBuffer = []) (hpending : r.pending = some p)
    (hstarted : p.started = true) (hrtu : p.transport = .rtu) (hrequest : p.request = some wire)
    (hwire : RequestWire wire) (hparse : parseFrame .rtu reply = some response)
    (hmatch : p.matchesResponse reply response = true) (hchunks : chunks.flatten = reply) :
    resolve p.id (some response) ∈ (receiveAll r [reply]).2 ∧
      (resolve p.id (some response) ∈ (receiveAll r chunks).2 ↔
        QuietCuts reply chunks) := by
  have hawaits : Awaits p reply response := by
    refine ⟨hstarted, hrtu, hparse, hmatch, reply_announced hwire hparse ?_⟩
    unfold matchesResponse at hmatch
    rw [hrequest, hrtu] at hmatch
    exact hmatch
  have hr : r = ⟨[], some p⟩ := by
    cases r
    simp_all
  have hempty : FrameFree [] := frameFree_short (by decide)
  have hlong : 0 < reply.length := by
    have := rtuResponseLength_le hawaits.announced
    omega
  rw [hr]
  constructor
  · refine (hawaits.run [reply] [] (by simp) hlong hempty).mpr ?_
    intro k hk
    cases k with
    | zero => exact hempty
    | succ k => simp at hk
  · exact hawaits.run chunks [] (by simpa using hchunks) hlong hempty

/-- A cut inside the first bytes does no harm, whatever follows. -/
theorem an_early_cut_is_quiet :
    resolve 0 (some nestedResponse) ∈
      (receiveAll ⟨[], some sentRead⟩ [nestedReply.take 4, nestedReply.drop 4]).2 := by
  refine (a_cut_reply_gets_through_exactly_when_its_cuts_are_quiet ⟨[], some sentRead⟩ sentRead
    [1, 3, 0, 0, 0, 4, 68, 9] nestedReply nestedResponse [nestedReply.take 4, nestedReply.drop 4]
    rfl rfl rfl rfl rfl (.read 1 3 0 4 (by decide +kernel)) (by decide +kernel)
    (by decide +kernel) (by decide +kernel)).2.mpr ?_
  intro k hk
  rcases k with _ | _ | k
  · exact frameFree_short (by decide)
  · exact frameFree_short (by decide)
  · rw [take_of_length_le (by simp)] at hk
    exact absurd hk (by decide)

end bbcom.modbus_runner
