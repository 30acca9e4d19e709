-- What a record says of the bytes, which no later step of the parser changes, and the packet of
-- messages, one behind the other, that the parser takes apart.
import Bbcom.SmpTable

open bbcom.js bbcom.base64

namespace bbcom.smp

open List SmpRecord McumgrSmpParser

/-! ## What stays of a record -/

/-- Whether a diagnostic comes to a record after its making. -/
def SmpDiagnostic.isLater (diagnostic : SmpDiagnostic) : Bool :=
  diagnostic.code ∈ ["smp.transaction.unmatched-request", "smp.transaction.orphan-response",
    "smp.packet.padding"]

/-- The record without its id and without what correlation and padding may still change. -/
def SmpRecord.core (record : SmpRecord) : SmpRecord :=
  { record with
    id := 0
    status := .ok
    diagnostics := record.diagnostics.filter fun diagnostic => !diagnostic.isLater
    requestId := none
    responseId := none
    rttMs := none }

theorem core_later (record : SmpRecord) (diagnostic : SmpDiagnostic)
    (h : diagnostic.isLater = true) (status : SmpStatus) :
    core { record with
      diagnostics := record.diagnostics ++ [diagnostic], status } = record.core := by
  unfold core
  simp [filter_append, h]

namespace McumgrSmpParser

/-- The records in the order of their making. -/
def cores (p : McumgrSmpParser) : List SmpRecord := p.records.map core

variable {runtime : Runtime} {p q : McumgrSmpParser}

/-- The two directions and the configuration are as they were. -/
structure SameStates (p q : McumgrSmpParser) : Prop where
  config : q.config = p.config
  TX : q.TX = p.TX
  RX : q.RX = p.RX

theorem SameStates.refl (p : McumgrSmpParser) : SameStates p p := ⟨rfl, rfl, rfl⟩

variable {r : McumgrSmpParser} {record : SmpRecord}

theorem SameStates.trans (h : SameStates p q) (h' : SameStates q r) : SameStates p r :=
  ⟨h'.config.trans h.config, h'.TX.trans h.TX, h'.RX.trans h.RX⟩

theorem SameStates.state (h : SameStates p q) (d : Direction) : q.state d = p.state d := by
  cases d with
  | TX => exact h.TX
  | RX => exact h.RX

/-- The records are also as they were, but for what correlation may change in them. -/
structure SameRecords (p q : McumgrSmpParser) : Prop extends SameStates p q where
  cores : q.cores = p.cores

theorem SameRecords.refl (p : McumgrSmpParser) : SameRecords p p := ⟨.refl p, rfl⟩

theorem SameRecords.trans (h : SameRecords p q) (h' : SameRecords q r) : SameRecords p r :=
  ⟨h.toSameStates.trans h'.toSameStates, h'.cores.trans h.cores⟩

theorem change_states (p : McumgrSmpParser) (ref : Nat) (u : SmpRecord → SmpRecord) :
    SameStates p (p.change ref u) := ⟨rfl, rfl, rfl⟩

theorem change_records {u : SmpRecord → SmpRecord} (hu : ∀ record, (u record).core = record.core)
    (p : McumgrSmpParser) (ref : Nat) : SameRecords p (p.change ref u) := by
  refine ⟨change_states p ref u, ?_⟩
  unfold cores change
  rw [@map_modify_of _ _ core u id hu, modify_id]

theorem leave_records (p : McumgrSmpParser) (ref : Nat) (departure : Departure)
    (message : String) : SameRecords p (p.leave ref departure message) := by
  have hmark := @change_records (markRequestUnmatched message)
    (fun record => core_later record _ rfl _) p ref
  exact ⟨⟨rfl, rfl, rfl⟩, hmark.cores⟩

theorem expire_records (p : McumgrSmpParser) (now : Int) :
    SameRecords p (p.expirePendingRequests now) := by
  unfold expirePendingRequests
  simp only
  induction p.pendingRequests.filter fun pending => decide (pending.expiresAt ≤ now) with
  | nil => exact ⟨⟨rfl, rfl, rfl⟩, rfl⟩
  | cons pending expired ih =>
    rw [foldr_cons]
    exact ih.trans (leave_records _ _ _ _)

theorem evict_records (fuel : Nat) (p : McumgrSmpParser) : SameRecords p (evict fuel p) := by
  induction fuel generalizing p with
  | zero => exact .refl p
  | succ fuel ih =>
    unfold evict
    split_ifs
    · split
      · exact .refl p
      · rename_i evicted rest _
        have hleave := leave_records { p with pendingRequests := rest } evicted.record .evicted
          "Request correlation table limit reached"
        have hrest := hleave.trans (ih _)
        exact ⟨⟨hrest.config, hrest.TX, hrest.RX⟩, hrest.cores⟩
    · exact .refl p

theorem correlate_records (p : McumgrSmpParser) (ref : Nat) (record : SmpRecord) :
    SameRecords p (p.correlate ref record) := by
  have hexpire := expire_records p record.timestamp
  unfold correlate
  cases record.header with
  | none => exact .refl p
  | some header =>
    simp only
    split
    · have hpending := @change_records
        (fun record => if record.status = .ok then { record with status := .pending } else record)
        (fun record => by split_ifs <;> rfl) (p.expirePendingRequests record.timestamp) ref
      have hchanged := hexpire.trans hpending
      refine SameRecords.trans ?_ (evict_records _ _)
      exact ⟨⟨hchanged.config, hchanged.TX, hchanged.RX⟩, hchanged.cores⟩
    · split_ifs
      · exact hexpire
      · split
        · exact hexpire.trans (change_records (u := orphanResponse)
            (fun record => core_later record _ rfl _) _ ref)
        · split
          · exact hexpire
          · refine SameRecords.trans ?_ (change_records ?_ _ ref)
            · refine SameRecords.trans ?_ (change_records ?_ _ _)
              · exact ⟨⟨hexpire.config, hexpire.TX, hexpire.RX⟩, hexpire.cores⟩
              · exact fun _ => rfl
            · exact fun _ => rfl

/-! ## A new record -/

theorem map_getElem_range' {α : Type} (front back : List α) :
    (range' front.length back.length).map (fun i => (front ++ back)[i]?) = back.map some := by
  apply ext_getElem
  · simp
  · intro i hi hback
    simp only [getElem_map, getElem_range', Nat.one_mul]
    rw [getElem?_append_right (by omega), Nat.add_sub_cancel_left]
    simp at hback
    exact getElem?_eq_getElem hback

/-- The parser `q` is `p` with one record more. -/
structure AddsRecord (p q : McumgrSmpParser) (record : SmpRecord) : Prop
    extends SameStates p q where
  cores : q.cores = p.cores ++ [record.core]

theorem AddsRecord.trans (h : AddsRecord p q record) (h' : SameRecords q r) :
    AddsRecord p r record :=
  ⟨h.toSameStates.trans h'.toSameStates, h'.cores.trans h.cores⟩

theorem create_adds (p : McumgrSmpParser) (record : SmpRecord) :
    AddsRecord p (p.create record).1 record ∧ (p.create record).2 = p.records.length := by
  refine ⟨⟨⟨rfl, rfl, rfl⟩, ?_⟩, rfl⟩
  unfold cores create
  rw [map_append]
  rfl

theorem decodeMessage_adds (p : McumgrSmpParser) (message : Uint8Array)
    (context : TransportContext) (packetOffset : Nat) :
    AddsRecord p (p.decodeMessage runtime message context packetOffset).1
        (p.messageRecord runtime message context packetOffset) ∧
      (p.decodeMessage runtime message context packetOffset).2 = p.records.length := by
  obtain ⟨record, hrecord⟩ : ∃ record, record =
      ({ p.messageRecord runtime message context packetOffset with
        id := p.nextRecordNumber } : SmpRecord) := ⟨_, rfl⟩
  have hcore : record.core = (p.messageRecord runtime message context packetOffset).core := by
    rw [hrecord]
    rfl
  obtain ⟨⟨hsame, hcores⟩, href⟩ := create_adds p record
  rw [hcore] at hcores
  unfold decodeMessage
  simp only [← hrecord]
  split_ifs
  · have hcorrelate := correlate_records (p.create record).1 (p.create record).2 record
    exact ⟨AddsRecord.trans ⟨hsame, hcores⟩ hcorrelate, href⟩
  · exact ⟨⟨hsame, hcores⟩, href⟩

/-! ## The records of a call -/

/-- The parser `q` is `p` with these records more, at the places `refs`. -/
structure Makes (p q : McumgrSmpParser) (refs : List Nat) (records : List SmpRecord) : Prop where
  config : q.config = p.config
  cores : q.cores = p.cores ++ records
  refs : refs = range' p.records.length records.length

theorem cores_length (p : McumgrSmpParser) : p.cores.length = p.records.length := by
  unfold cores
  rw [length_map]

theorem Makes.trans {refs refs' : List Nat} {records records' : List SmpRecord}
    (h : Makes p q refs records) (h' : Makes q r refs' records') :
    Makes p r (refs ++ refs') (records ++ records') where
  config := h'.config.trans h.config
  cores := by rw [h'.cores, h.cores, append_assoc]
  refs := by
    have hlength : q.records.length = p.records.length + records.length := by
      rw [← cores_length, ← cores_length, h.cores, length_append]
    rw [h.refs, h'.refs, hlength, range'_append_1, length_append]

theorem SameRecords.makes (h : SameRecords p q) : Makes p q [] [] :=
  ⟨h.config, by rw [h.cores, append_nil], rfl⟩

theorem AddsRecord.makes (h : AddsRecord p q record) : Makes p q [p.records.length] [record.core] :=
  ⟨h.config, h.cores, rfl⟩

/-- The records at these places. -/
def recordsAt (p : McumgrSmpParser) (refs : List Nat) : List SmpRecord :=
  refs.filterMap fun ref => p.records[ref]?

theorem Makes.recordsAt {refs : List Nat} {records : List SmpRecord}
    (h : Makes p q refs records) : (q.recordsAt refs).map core = records := by
  have hcores : ∀ ref : Nat, (q.records[ref]?).map core = q.cores[ref]? := by
    intro ref
    unfold McumgrSmpParser.cores
    rw [getElem?_map]
  have hmap := map_getElem_range' p.cores records
  rw [← h.cores, cores_length, ← h.refs] at hmap
  unfold McumgrSmpParser.recordsAt
  rw [map_filterMap]
  simp only [hcores]
  have hjoined := congrArg (filterMap id) hmap
  rwa [filterMap_map, filterMap_map, Function.id_comp, Function.id_comp, filterMap_some] at hjoined

/-! ## The messages of a packet -/

/-- The bytes of one message, as its header tells its length. -/
def IsMessage (message : Uint8Array) : Prop :=
  SMP_HEADER_BYTES ≤ message.length ∧ message.length = SMP_HEADER_BYTES + readU16 message 2

/-- Up to the next multiple of four. -/
def alignUp (offset : Nat) : Nat := (offset + 3) / 4 * 4

/-- The bytes from `offset` of a packet on are these messages, with their places: between two of
them, and behind the last, there may stand bytes up to the next multiple of four. -/
inductive PacketFrom : Nat → Uint8Array → List (Nat × Uint8Array) → Prop
  | last {offset : Nat} {message padding : Uint8Array} (hmessage : IsMessage message)
      (hpadding : offset + message.length + padding.length ≤ alignUp (offset + message.length)) :
      PacketFrom offset (message ++ padding) [(offset, message)]
  | more {offset : Nat} {message padding rest : Uint8Array} {messages : List (Nat × Uint8Array)}
      (hmessage : IsMessage message)
      (hpadding : offset + message.length + padding.length = alignUp (offset + message.length))
      (hrest : PacketFrom (alignUp (offset + message.length)) rest messages) :
      PacketFrom offset (message ++ padding ++ rest) ((offset, message) :: messages)

variable {offset : Nat}

theorem readU16_append {a b : Uint8Array} (h : offset + 2 ≤ a.length) :
    readU16 (a ++ b) offset = readU16 a offset := by
  unfold readU16
  rw [getD_append _ _ _ _ (by omega), getD_append _ _ _ _ (by omega)]

theorem readU16_drop (a : Uint8Array) (start offset : Nat) :
    readU16 (a.drop start) offset = readU16 a (start + offset) := by
  simp only [readU16, getD_eq_getElem?_getD, getElem?_drop, Nat.add_assoc]

/-- The records of the messages, one for each. -/
def messageCores (runtime : Runtime) (p : McumgrSmpParser) (context : TransportContext)
    (messages : List (Nat × Uint8Array)) : List SmpRecord :=
  messages.map fun m => (p.messageRecord runtime m.2 context m.1).core

/-- One message is taken off the front of what is left of a packet. -/
theorem decodeFrom_message {packet message more : Uint8Array} (hmessage : IsMessage message)
    (hrest : packet.drop offset = message ++ more) (context : TransportContext)
    (p : McumgrSmpParser) (hfits : packet.length ≤ p.config.maxPacketBytes) (fuel : Nat) :
    ∃ q, AddsRecord p q (p.messageRecord runtime message context offset) ∧
      decodeFrom runtime packet context (fuel + 1) offset p =
        let decoded := decodeFrom runtime packet context fuel
          (min packet.length (alignUp (offset + message.length))) q
        (decoded.1, p.records.length :: decoded.2) := by
  obtain ⟨hheader, hlength⟩ := hmessage
  have hsize := congrArg List.length hrest
  rw [length_drop, length_append] at hsize
  have hheld : SMP_HEADER_BYTES = 8 := rfl
  have hdeclared : SMP_HEADER_BYTES + readU16 packet (offset + 2) = message.length := by
    rw [← readU16_drop, hrest, readU16_append (by omega), ← hlength]
  have hcopy : packet.subarray offset (offset + message.length) = message := by
    unfold Uint8Array.subarray
    rw [drop_take, hrest, Nat.add_sub_cancel_left, take_left]
  obtain ⟨hadds, href⟩ := @decodeMessage_adds runtime p message context offset
  have hwhole : ¬(p.config.maxPacketBytes < message.length ∨
      packet.length < offset + message.length) := by omega
  simp only [decodeFrom, hdeclared, hcopy]
  rw [if_neg (by omega), if_neg (by omega), if_neg hwhole, href]
  split_ifs
  · exact ⟨_, hadds.trans (change_records (u := paddingWarning _ _)
      (fun record => core_later record _ rfl _) _ _), rfl⟩
  · exact ⟨_, hadds, rfl⟩

theorem AddsRecord.length (h : AddsRecord p q record) :
    q.records.length = p.records.length + 1 := by
  have hlength := congrArg List.length h.cores
  unfold McumgrSmpParser.cores at hlength
  simpa using hlength

/-- What is left of a packet is taken apart into its messages. -/
theorem decodeFrom_messages {packet rest : Uint8Array} {messages : List (Nat × Uint8Array)}
    (hpacket : PacketFrom offset rest messages) (hrest : packet.drop offset = rest)
    (context : TransportContext) (p : McumgrSmpParser)
    (hfits : packet.length ≤ p.config.maxPacketBytes) (fuel : Nat) (hfuel : rest.length ≤ fuel) :
    let decoded := decodeFrom runtime packet context fuel offset p
    SameStates p decoded.1 ∧
      decoded.1.cores = p.cores ++ messageCores runtime p context messages ∧
      decoded.2 = List.range' p.records.length messages.length := by
  induction hpacket generalizing p fuel with
  | @last offset message padding hmessage hpadding =>
    obtain ⟨fuel, rfl⟩ : ∃ more, fuel = more + 1 := by
      have hheader := hmessage.1
      rw [length_append] at hfuel
      exact ⟨fuel - 1, by unfold SMP_HEADER_BYTES at hheader; omega⟩
    obtain ⟨q, hadds, hstep⟩ := @decodeFrom_message runtime _ _ _ _ hmessage hrest context p hfits
      fuel
    have hsize := congrArg List.length hrest
    rw [length_drop, length_append] at hsize
    have hheader := hmessage.1
    have hend : min packet.length (alignUp (offset + message.length)) = packet.length := by
      unfold SMP_HEADER_BYTES at hheader
      omega
    have hstops : decodeFrom runtime packet context fuel packet.length q = (q, []) := by
      cases fuel with
      | zero => rfl
      | succ fuel => simp only [decodeFrom, le_refl, if_true]
    rw [hend] at hstep
    simp only [hstops] at hstep
    intro decoded
    rw [show decoded = (q, [p.records.length]) from hstep]
    exact ⟨hadds.toSameStates, hadds.cores, rfl⟩
  | @more offset message padding rest messages hmessage hpadding _ ih =>
    obtain ⟨fuel, rfl⟩ : ∃ more, fuel = more + 1 := by
      have hheader := hmessage.1
      rw [length_append, length_append] at hfuel
      exact ⟨fuel - 1, by unfold SMP_HEADER_BYTES at hheader; omega⟩
    rw [append_assoc] at hrest
    obtain ⟨q, hadds, hstep⟩ := @decodeFrom_message runtime _ _ _ _ hmessage hrest context p hfits
      fuel
    have hheader := hmessage.1
    unfold SMP_HEADER_BYTES at hheader
    have hsize := congrArg List.length hrest
    rw [length_drop, length_append, length_append] at hsize
    have hnext : min packet.length (alignUp (offset + message.length)) =
        alignUp (offset + message.length) := by omega
    have hdrop : packet.drop (alignUp (offset + message.length)) = rest := by
      rw [← hpadding, ← List.drop_drop, ← List.drop_drop, hrest, drop_left, drop_left]
    rw [length_append, length_append] at hfuel
    obtain ⟨hlater, hcores, hrefs⟩ := ih hdrop q (by rw [hadds.config]; exact hfits) fuel (by omega)
    rw [hnext] at hstep
    have hsame : messageCores runtime q context messages =
        messageCores runtime p context messages := by
      unfold messageCores messageRecord
      rw [hadds.config]
    intro decoded
    rw [show decoded = _ from hstep]
    refine ⟨hadds.toSameStates.trans hlater, ?_, ?_⟩
    · rw [hcores, hadds.cores, hsame, append_assoc]
      rfl
    · simp only [hrefs, hadds.length]
      rfl

end McumgrSmpParser

end bbcom.smp
