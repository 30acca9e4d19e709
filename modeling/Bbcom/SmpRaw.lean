-- The raw UART of the SMP parser. What stands at the front of the buffer, a message or a byte of
-- noise, never changes once eight bytes are there, so that the cuts of the stream into calls do not
-- matter but for how much of the noise goes into one record.
import Bbcom.SmpConsole

open bbcom.js bbcom.base64 bbcom.framing

namespace bbcom.smp

open List Held Nat

/-! ## The stream -/

/-- What stands in the stream. -/
inductive RawEvent
  | message (bytes : Uint8Array)
  | noise (byte : UInt8)
  deriving DecidableEq

namespace McumgrSmpParser

def rawMessageLength (bytes : Uint8Array) : Nat := SMP_HEADER_BYTES + readU16 bytes 2

variable {bytes rest : Uint8Array} {maxPacketBytes : Nat} {records : List SmpRecord}

/-- A header is plausible by its first four bytes. -/
theorem isPlausibleRawHeader_append (h : SMP_HEADER_BYTES ≤ bytes.length) (more : Uint8Array)
    (maxPacketBytes : Nat) :
    isPlausibleRawHeader (bytes ++ more) maxPacketBytes =
      isPlausibleRawHeader bytes maxPacketBytes := by
  have hheld : SMP_HEADER_BYTES = 8 := rfl
  have hfirst : (bytes ++ more).getD 0 0 = bytes.getD 0 0 := getD_append _ _ _ _ (by omega)
  have hlong : ¬(bytes ++ more).length < SMP_HEADER_BYTES := by
    rw [length_append]
    omega
  unfold isPlausibleRawHeader
  rw [readU16_append (by omega), hfirst, if_neg hlong, if_neg (not_lt.2 h)]

theorem isPlausibleRawHeader_fits (h : isPlausibleRawHeader bytes maxPacketBytes = true) :
    SMP_HEADER_BYTES + readU16 bytes 2 ≤ maxPacketBytes := by
  unfold isPlausibleRawHeader at h
  split at h
  · cases h
  · simp only at h
    split at h
    · cases h
    · exact of_decide_eq_true (Bool.and_eq_true_iff.1 h).2

/-- A message, or a byte of noise, when eight bytes are held. -/
def rawExtractor (maxPacketBytes : Nat) : Extractor UInt8 RawEvent where
  next held :=
    if held.length < SMP_HEADER_BYTES then none
    else if isPlausibleRawHeader held maxPacketBytes then
      if held.length < rawMessageLength held then none
      else some (.message (held.take (rawMessageLength held)), rawMessageLength held)
    else some (.noise (held.getD 0 0), 1)
  takes_some := by
    intro held e n h
    split_ifs at h
    · cases h
      exact lt_of_lt_of_le (by decide) (le_add_right SMP_HEADER_BYTES _)
    · cases h
      exact one_pos
  takes_held := by
    intro held e n h
    have hheld : SMP_HEADER_BYTES = 8 := rfl
    split_ifs at h
    · cases h
      omega
    · cases h
      omega
  stable := by
    intro held e n more h
    have hheld : SMP_HEADER_BYTES = 8 := rfl
    split_ifs at h with hshort hplausible hpartial
    · cases h
      have hsame : rawMessageLength (held ++ more) = rawMessageLength held := by
        unfold rawMessageLength
        rw [readU16_append (by omega)]
      rw [isPlausibleRawHeader_append (by omega), hsame, length_append, if_neg (by omega),
        if_pos hplausible, if_neg (by omega), take_append_of_le_length (by omega)]
    · cases h
      rw [isPlausibleRawHeader_append (by omega), length_append, if_neg (by omega),
        if_neg hplausible, getD_append _ _ _ _ (by omega)]

/-! ## Noise -/

/-- The bytes of a stretch of noise. -/
def noiseEvents : Nat → Uint8Array → List (Taken RawEvent)
  | _, [] => []
  | offset, byte :: bytes => ⟨offset, .noise byte, 1⟩ :: noiseEvents (offset + 1) bytes

/-- No message can begin at this place. -/
def NoHeader (bytes : Uint8Array) (maxPacketBytes index : Nat) : Prop :=
  SMP_HEADER_BYTES + index ≤ bytes.length ∧
    isPlausibleRawHeader (bytes.drop index) maxPacketBytes = false

/-- The bytes that a call discards are those in front of the first header, or all but seven. -/
theorem rawNoise_spec (hfirst : NoHeader bytes maxPacketBytes 0) :
    0 < rawNoise bytes maxPacketBytes ∧ rawNoise bytes maxPacketBytes ≤ bytes.length ∧
      ∀ index < rawNoise bytes maxPacketBytes, NoHeader bytes maxPacketBytes index := by
  have hheld : SMP_HEADER_BYTES = 8 := rfl
  have hlength := hfirst.1
  unfold rawNoise findPlausibleRawHeader
  split
  · rename_i next hnext
    obtain ⟨-, hin, hbefore⟩ := find?_range'_eq_some.1 hnext
    rw [mem_range'_1] at hin
    refine ⟨by omega, by omega, ?_⟩
    intro index hindex
    rcases Nat.eq_zero_or_pos index with rfl | hpos
    · exact hfirst
    · exact ⟨by omega, by simpa using hbefore index hpos hindex⟩
  · rename_i hnone
    rw [find?_range'_eq_none] at hnone
    refine ⟨by omega, by omega, ?_⟩
    intro index hindex
    rcases Nat.eq_zero_or_pos index with rfl | hpos
    · exact hfirst
    · exact ⟨by omega, by simpa using hnone index hpos (by omega)⟩

theorem rawExtractor_noise (h : NoHeader bytes maxPacketBytes 0) :
    (rawExtractor maxPacketBytes).next bytes = some (.noise (bytes.getD 0 0), 1) := by
  obtain ⟨hlength, hheader⟩ := h
  rw [drop_zero] at hheader
  unfold rawExtractor
  simp only
  rw [if_neg (by omega), hheader]
  rfl

/-- The noise is taken byte by byte. -/
theorem drain_noise (count : Nat) {h : Held UInt8}
    (hnoise : ∀ index < count, NoHeader h.items maxPacketBytes index) :
    drain (rawExtractor maxPacketBytes) h =
      (noiseEvents h.offset (h.items.take count) ++
          (drain (rawExtractor maxPacketBytes) (h.skip count)).1,
        (drain (rawExtractor maxPacketBytes) (h.skip count)).2) := by
  induction count generalizing h with
  | zero => rfl
  | succ count ih =>
    have hfirst := hnoise 0 (succ_pos count)
    obtain ⟨byte, items, hitems⟩ : ∃ byte items, h.items = byte :: items := by
      apply exists_cons_of_length_pos
      exact lt_of_lt_of_le (by decide) hfirst.1
    have hrest : ∀ index < count, NoHeader (h.skip 1).items maxPacketBytes index := by
      intro index hindex
      obtain ⟨hlength, hheader⟩ := hnoise (index + 1) (by omega)
      refine ⟨?_, ?_⟩
      · simp only [skip, length_drop]
        omega
      · simp only [skip, drop_drop]
        rwa [add_comm 1 index]
    have hskip : (h.skip 1).skip count = h.skip (count + 1) := by
      simp only [skip, drop_drop, add_assoc, add_comm 1 count]
    rw [drain_some (rawExtractor_noise hfirst), ih hrest, hskip]
    simp only [skip, hitems, getD_cons_zero, drop_succ_cons, drop_zero,
      take_succ_cons, noiseEvents, cons_append]

/-! ## Records -/

/-- The record of a message but for its time. -/
def SmpRecord.untimed (record : SmpRecord) : SmpRecord :=
  { record with timestamp := 0, captureSeq := none }

/-- The record of a message at a place of the stream, but for its time. -/
def rawMessage (runtime : Runtime) (p : McumgrSmpParser) (d : Direction) (offset : Nat)
    (message : Uint8Array) : SmpRecord :=
  (p.messageRecord runtime message
    ⟨d, 0, none, offset, some message, .notApplicable, []⟩ 0).core

/-- The records tell what stands in the stream: each message has its own, a stretch of noise one
or more. -/
inductive Renders (runtime : Runtime) (p : McumgrSmpParser) (d : Direction) :
    List (Taken RawEvent) → List SmpRecord → Prop
  | nil : Renders runtime p d [] []
  | message {offset : Nat} {bytes : Uint8Array} {record : SmpRecord}
      {events : List (Taken RawEvent)} {records : List SmpRecord}
      (hrecord : SmpRecord.untimed record = rawMessage runtime p d offset bytes)
      (hrest : Renders runtime p d events records) :
      Renders runtime p d (⟨offset, .message bytes, bytes.length⟩ :: events) (record :: records)
  | noise {record : SmpRecord} {events : List (Taken RawEvent)} {records : List SmpRecord}
      (hheader : record.header = none) (hrest : Renders runtime p d events records) :
      Renders runtime p d (noiseEvents record.offset record.data ++ events) (record :: records)

/-- The records cover the stream from `offset` on, one behind the other, up to the rest. -/
inductive Covers : Nat → Uint8Array → List SmpRecord → Uint8Array → Prop
  | done {offset : Nat} {rest : Uint8Array} : Covers offset rest [] rest
  | record {record : SmpRecord} {stream rest : Uint8Array} {records : List SmpRecord}
      (hsome : record.data ≠ []) (hend : record.endOffset = record.offset + record.data.length)
      (hrest : Covers record.endOffset stream records rest) :
      Covers record.offset (record.data ++ stream) (record :: records) rest

variable {records' : List SmpRecord}

theorem Renders.append {runtime : Runtime} {p : McumgrSmpParser} {d : Direction}
    {events events' : List (Taken RawEvent)} (h : Renders runtime p d events records)
    (h' : Renders runtime p d events' records') :
    Renders runtime p d (events ++ events') (records ++ records') := by
  induction h with
  | nil => exact h'
  | message hrecord _ ih => exact .message hrecord ih
  | noise hheader _ ih =>
    rw [append_assoc]
    exact .noise hheader ih

theorem Covers.append {offset middle : Nat} {stream more last : Uint8Array}
    (h : Covers offset stream records rest) (h' : Covers middle (rest ++ more) records' last)
    (hmiddle : middle + rest.length = offset + stream.length) :
    Covers offset (stream ++ more) (records ++ records') last := by
  induction h with
  | done =>
    obtain rfl : middle = _ := add_right_cancel hmiddle
    exact h'
  | record hsome hend _ ih =>
    rw [append_assoc]
    refine .record hsome hend (ih h' ?_)
    rw [hmiddle, hend, length_append, add_assoc]

/-- A record covers the front of what is held. -/
theorem Covers.front {record : SmpRecord} {offset count : Nat} {items : Uint8Array}
    (hdata : record.data = items.take count) (hoffset : record.offset = offset)
    (hend : record.endOffset = offset + record.data.length) (hcount : count ≤ items.length)
    (hpos : 0 < count) (hrest : Covers (offset + count) (items.drop count) records rest) :
    Covers offset items (record :: records) rest := by
  have hlength : record.data.length = count := by rw [hdata, length_take_of_le hcount]
  rw [← hoffset] at hend ⊢
  rw [← take_append_drop count items, ← hdata]
  refine .record (ne_nil_of_length_pos (by omega)) hend ?_
  rwa [hend, hlength, hoffset]

/-! ## The loop -/

variable {runtime : Runtime} {p₀ p q : McumgrSmpParser} {d : Direction} {h : Held UInt8}

/-- What the direction holds of the stream. -/
structure Retains (d : Direction) (h : Held UInt8) (p : McumgrSmpParser) : Prop where
  rawBuffer : (p.state d).rawBuffer = h.items
  rawOffset : h.items ≠ [] → (p.state d).rawOffset = h.offset
  inputOffset : (p.state d).inputOffset = h.offset + h.items.length

theorem consumeRawBytes_buffer (s : DirectionState) (count : Nat) :
    (consumeRawBytes s count).rawBuffer = s.rawBuffer.drop count ∧
      (consumeRawBytes s count).rawOffset = s.rawOffset + count ∧
      (consumeRawBytes s count).inputOffset = s.inputOffset := by
  unfold consumeRawBytes
  simp only
  split_ifs
  · exact ⟨rfl, rfl, rfl⟩
  · split
    · exact ⟨rfl, rfl, rfl⟩
    · exact ⟨rfl, rfl, rfl⟩

theorem Retains.same (hp : Retains d h p) (hsame : SameStates p q) : Retains d h q where
  rawBuffer := by rw [hsame.state, hp.rawBuffer]
  rawOffset hsome := by rw [hsame.state, hp.rawOffset hsome]
  inputOffset := by rw [hsame.state, hp.inputOffset]

theorem Retains.consume (hp : Retains d h p) {count : Nat} (hcount : count ≤ h.items.length)
    (hsome : 0 < count) :
    Retains d (h.skip count) (p.setState d (consumeRawBytes (p.state d) count)) := by
  obtain ⟨hbuffer, hoffset, hinput⟩ := consumeRawBytes_buffer (p.state d) count
  have hheld : h.items ≠ [] := ne_nil_of_length_pos (by omega)
  refine ⟨?_, ?_, ?_⟩
  · rw [setState_same, hbuffer, hp.rawBuffer]
    rfl
  · intro _
    rw [setState_same, hoffset, hp.rawOffset hheld]
    rfl
  · rw [setState_same, hinput, hp.inputOffset]
    simp only [skip, length_drop]
    omega

theorem setState_makes (p : McumgrSmpParser) (d : Direction) (s : DirectionState) :
    Makes p (p.setState d s) [] [] :=
  ⟨setState_config p d s, by cases d <;> exact (append_nil _).symm, rfl⟩

theorem rawMessage_config (hconfig : p.config = q.config) (offset : Nat) (message : Uint8Array) :
    rawMessage runtime p d offset message = rawMessage runtime q d offset message := by
  unfold rawMessage messageRecord
  rw [hconfig]

theorem untimed_message (hconfig : p.config = q.config) (timestamp : Int) (captureSeq : Option Nat)
    {offset place : Nat} (hplace : offset = place) (message : Uint8Array) :
    SmpRecord.untimed (p.messageRecord runtime message
      ⟨d, timestamp, captureSeq, offset, some message, .notApplicable, []⟩ 0).core =
      rawMessage runtime q d place message := by
  rw [← rawMessage_config hconfig, hplace]
  rfl

/-- An error makes its record, of the bytes that it is about. -/
theorem transportErrorRecord_makes (p : McumgrSmpParser) (d : Direction) (timestamp : Int)
    (captureSeq : Option Nat) (offset : Nat) (data : Uint8Array) (code message : String)
    (severity : Severity) :
    let made := p.transportErrorRecord d timestamp captureSeq offset data code message severity
    SameStates p made.1 ∧ ∃ record : SmpRecord, record.header = none ∧ record.data = data ∧
      record.offset = offset ∧ record.endOffset = offset + data.length ∧
      Makes p made.1 [made.2] [record] :=
  ⟨(create_adds p _).1.toSameStates, _, rfl, rfl, rfl, rfl, (create_adds p _).1.makes⟩

/-- A message makes its record. -/
theorem decodeTransportPacket_message {message : Uint8Array} (hmessage : IsMessage message)
    (hfits : message.length ≤ p.config.maxPacketBytes) (context : TransportContext) :
    let decoded := p.decodeTransportPacket runtime message context
    SameStates p decoded.1 ∧
      Makes p decoded.1 decoded.2 [(p.messageRecord runtime message context 0).core] := by
  have hpacket : PacketFrom 0 message [(0, message)] := by
    have hlast := @PacketFrom.last 0 message [] hmessage (by simp only [alignUp, length_nil]; omega)
    rwa [append_nil] at hlast
  obtain ⟨hsame, hcores, hrefs⟩ := @decodeFrom_messages runtime 0 message message _ hpacket rfl
    context p hfits message.length le_rfl
  exact ⟨hsame, hsame.config, hcores, hrefs⟩

open SameRecords

/-- The loop renders what the stream has in store. -/
theorem rawLoop_renders (fuel : Nat) (hp : Retains d h p) (hconfig : p.config = p₀.config)
    (hfuel : h.items.length ≤ fuel) :
    let looped := rawLoop runtime d fuel p
    let drained := drain (rawExtractor p₀.config.maxPacketBytes) h
    Retains d drained.2 looped.1 ∧ ∃ records, Makes p looped.1 looped.2 records ∧
      Renders runtime p₀ d drained.1 records ∧
      Covers h.offset h.items records drained.2.items := by
  have hheld : SMP_HEADER_BYTES = 8 := rfl
  induction fuel generalizing h p with
  | zero =>
    have hnil : h.items = [] := length_eq_zero_iff.1 (le_zero.1 hfuel)
    have hwaits : (rawExtractor p₀.config.maxPacketBytes).next h.items = none := by
      rw [hnil]
      exact next_nil _
    rw [drain_none hwaits]
    exact ⟨hp, [], (refl p).makes, .nil, .done⟩
  | succ fuel ih =>
    unfold rawLoop
    simp only [hp.rawBuffer, hconfig]
    by_cases hshort : h.items.length < SMP_HEADER_BYTES
    · have hwaits : (rawExtractor p₀.config.maxPacketBytes).next h.items = none := by
        unfold rawExtractor
        exact if_pos hshort
      rw [if_pos hshort, drain_none hwaits]
      exact ⟨hp, [], (refl p).makes, .nil, .done⟩
    · have hsome : h.items ≠ [] := ne_nil_of_length_pos (by omega)
      rw [if_neg hshort]
      by_cases hplausible : isPlausibleRawHeader h.items p₀.config.maxPacketBytes = true
      · rw [if_neg (by simpa using hplausible)]
        by_cases hpartial : h.items.length < SMP_HEADER_BYTES + readU16 h.items 2
        · have hwaits : (rawExtractor p₀.config.maxPacketBytes).next h.items = none := by
            unfold rawExtractor rawMessageLength
            simp only
            rw [if_neg hshort, if_pos hplausible, if_pos hpartial]
          rw [if_pos hpartial, drain_none hwaits]
          exact ⟨hp, [], (refl p).makes, .nil, .done⟩
        · obtain ⟨count, hcount⟩ : ∃ count, count = SMP_HEADER_BYTES + readU16 h.items 2 := ⟨_, rfl⟩
          have htakes : (rawExtractor p₀.config.maxPacketBytes).next h.items =
              some (.message (h.items.take count), count) := by
            unfold rawExtractor rawMessageLength
            simp only
            rw [if_neg hshort, if_pos hplausible, if_neg hpartial, hcount]
          rw [if_neg hpartial, drain_some htakes, ← hcount]
          rw [← hcount] at hpartial
          have hlength : (h.items.take count).length = count :=
            length_take_of_le (not_lt.1 hpartial)
          have hmessage : IsMessage (h.items.take count) := by
            refine ⟨by omega, ?_⟩
            have hread := @readU16_append 2 (h.items.take count) (h.items.drop count) (by omega)
            rw [take_append_drop] at hread
            rw [hlength, ← hread, hcount]
          have hfits : (h.items.take count).length ≤ p₀.config.maxPacketBytes := by
            rw [hlength, hcount]
            exact isPlausibleRawHeader_fits hplausible
          have hleft := hp.consume (not_lt.1 hpartial) (show 0 < count by omega)
          have hstate := setState_makes p d (consumeRawBytes (p.state d) count)
          rw [← hconfig, ← hstate.config] at hfits
          obtain ⟨hsame, hmakes⟩ := @decodeTransportPacket_message runtime _ _ hmessage hfits
            ⟨d, (p.state d).rawTimestamp, (p.state d).rawCaptureSeq, (p.state d).rawOffset,
              some (h.items.take count), .notApplicable, []⟩
          have hnext := hstate.trans hmakes
          rw [nil_append, nil_append] at hnext
          obtain ⟨hretains, records, hmade, hrenders, hcovers⟩ := ih (hleft.same hsame)
            (hnext.config.trans hconfig) (by simp only [skip, length_drop]; omega)
          refine ⟨hretains, _, hnext.trans hmade, ?_, ?_⟩
          · have hrecord := @untimed_message runtime _ _ d (hstate.config.trans hconfig)
              (p.state d).rawTimestamp (p.state d).rawCaptureSeq _ _ (hp.rawOffset hsome)
              (h.items.take count)
            have hrender := Renders.message hrecord hrenders
            rw [hlength] at hrender
            exact hrender
          · exact Covers.front rfl (hp.rawOffset hsome)
              (by rw [← hp.rawOffset hsome]; rfl) (not_lt.1 hpartial) (by omega) hcovers
      · have hfirst : NoHeader h.items p₀.config.maxPacketBytes 0 :=
          ⟨by omega, by rw [drop_zero]; exact Bool.eq_false_iff.2 hplausible⟩
        obtain ⟨hpos, hcount, hnoise⟩ := rawNoise_spec hfirst
        rw [if_pos (by simpa using hplausible), drain_noise _ hnoise]
        obtain ⟨hsame, record, hheader, hdata, hoffset, hend, hmakes⟩ :=
          transportErrorRecord_makes p d (p.state d).rawTimestamp (p.state d).rawCaptureSeq
            (p.state d).rawOffset (h.items.take (rawNoise h.items p₀.config.maxPacketBytes))
            "smp.raw.resync" s!"Raw UART discarded {rawNoise h.items p₀.config.maxPacketBytes} byte(s) while searching for an SMP header" .warning
        have hleft := (hp.same hsame).consume hcount hpos
        rw [hsame.state] at hleft
        have hnext := hmakes.trans (setState_makes _ d (consumeRawBytes (p.state d)
          (rawNoise h.items p₀.config.maxPacketBytes)))
        obtain ⟨hretains, records, hmade, hrenders, hcovers⟩ := ih hleft
          (hnext.config.trans hconfig) (by simp only [skip, length_drop]; omega)
        refine ⟨hretains, record :: records, hnext.trans hmade, ?_, ?_⟩
        · have hrender := Renders.noise hheader hrenders
          rw [hoffset, hdata, hp.rawOffset hsome] at hrender
          exact hrender
        · rw [hp.rawOffset hsome] at hoffset hend
          exact Covers.front hdata hoffset (by rw [hend, hdata]) hcount hpos hcovers

/-! ## Calls -/

/-- The bytes of a call come behind those that are held. -/
theorem feedRaw_renders {chunk : SmpTrafficChunk} (hconfig : p.config = p₀.config)
    (hbuffer : (p.state chunk.direction).rawBuffer = h.items)
    (hoffset : h.items ≠ [] → (p.state chunk.direction).rawOffset = h.offset)
    (hinput : (p.state chunk.direction).inputOffset =
      h.offset + (h.items.length + chunk.data.length)) {chunkOffset : Nat}
    (hchunk : chunkOffset = h.offset + h.items.length) :
    let fed := p.feedRaw runtime chunk chunkOffset
    let taken := framing.feed (rawExtractor p₀.config.maxPacketBytes) h chunk.data
    Retains chunk.direction taken.2 fed.1 ∧ ∃ records, Makes p fed.1 fed.2 records ∧
      Renders runtime p₀ chunk.direction taken.1 records ∧
      Covers h.offset (h.items ++ chunk.data) records taken.2.items := by
  obtain ⟨state, hstate⟩ : ∃ state : DirectionState, state = (let state := p.state chunk.direction
      let state := if state.rawBuffer.length = 0 then
          { state with
            rawOffset := chunkOffset
            rawTimestamp := chunk.timestamp
            rawCaptureSeq := chunk.captureSeq }
        else state
      { state with
        rawSegments := state.rawSegments ++
          [⟨chunkOffset + chunk.data.length, chunk.timestamp, chunk.captureSeq⟩]
        rawLastTimestamp := chunk.timestamp
        rawBuffer := state.rawBuffer ++ chunk.data }) := ⟨_, rfl⟩
  have hfeed : p.feedRaw runtime chunk chunkOffset = rawLoop runtime chunk.direction
      state.rawBuffer.length (p.setState chunk.direction state) := by
    rw [hstate]
    rfl
  have hall : state.rawBuffer = h.items ++ chunk.data := by
    rw [hstate, ← hbuffer]
    simp only
    split_ifs <;> rfl
  have hplace : state.rawOffset = h.offset := by
    rw [hstate]
    simp only [hbuffer]
    split_ifs with hnone
    · rwa [hnone, add_zero] at hchunk
    · exact hoffset (ne_nil_of_length_pos (pos_of_ne_zero hnone))
  have hlength : state.inputOffset = h.offset + (h.items ++ chunk.data).length := by
    rw [hstate, length_append, ← hinput]
    simp only
    split_ifs <;> rfl
  have hbegun : Retains chunk.direction (h.push chunk.data) (p.setState chunk.direction state) := by
    refine ⟨?_, ?_, ?_⟩
    · rw [setState_same, hall]
      rfl
    · intro _
      rw [setState_same, hplace]
      rfl
    · rw [setState_same, hlength]
      rfl
  have hmakes := setState_makes p chunk.direction state
  obtain ⟨hretains, records, hmade, hrest⟩ := @rawLoop_renders runtime p₀ _ _ _
    state.rawBuffer.length hbegun (hmakes.config.trans hconfig) (by rw [hall]; exact le_rfl)
  rw [hfeed]
  exact ⟨hretains, records, hmakes.trans hmade, hrest⟩

/-- A call of the raw UART goes on in the stream. -/
theorem Retains.feed {chunk : SmpTrafficChunk} (hp : Retains chunk.direction h p)
    (hsettled : Settled (rawExtractor p₀.config.maxPacketBytes) h)
    (htransport : p₀.config.transport = .rawUart) (hconfig : p.config = p₀.config)
    (hwaits : ∀ d, StateUnexpired p.config chunk.timestamp (p.state d)) :
    let fed := p.feed runtime chunk
    let taken := framing.feed (rawExtractor p₀.config.maxPacketBytes) h chunk.data
    Retains chunk.direction taken.2 fed.1 ∧ ∃ records, Makes p fed.1 fed.2 records ∧
      Renders runtime p₀ chunk.direction taken.1 records ∧
      Covers h.offset (h.items ++ chunk.data) records taken.2.items := by
  have hexpire := expire_records p chunk.timestamp
  have hawaits := hp.same hexpire.toSameStates
  unfold McumgrSmpParser.feed
  rw [flushExpired_states hwaits]
  split_ifs with hempty
  · rw [length_eq_zero_iff.1 hempty, feed_nil hsettled, append_nil]
    exact ⟨hawaits, [], hexpire.makes, .nil, .done⟩
  · obtain ⟨p', hp'⟩ : ∃ p', p' = p.expirePendingRequests chunk.timestamp := ⟨_, rfl⟩
    rw [← hp'] at hawaits hexpire ⊢
    simp only [setState_config, hexpire.config, hconfig, htransport, nil_append]
    have hmakes := hexpire.makes.trans (setState_makes p' chunk.direction
      { p'.state chunk.direction with
        inputOffset := (p'.state chunk.direction).inputOffset + chunk.data.length })
    obtain ⟨hretains, records, hmade, hrest⟩ := @feedRaw_renders runtime p₀
      (p'.setState chunk.direction { p'.state chunk.direction with
        inputOffset := (p'.state chunk.direction).inputOffset + chunk.data.length }) h chunk
      (hmakes.config.trans hconfig) (by rw [setState_same]; exact hawaits.rawBuffer)
      (fun hsome => by rw [setState_same]; exact hawaits.rawOffset hsome)
      (by rw [setState_same, hawaits.inputOffset, add_assoc]) _ hawaits.inputOffset
    exact ⟨hretains, records, hmakes.trans hmade, hrest⟩

/-- Any calls go on in the stream. -/
theorem Retains.feedAll (hp : Retains d h p)
    (hsettled : Settled (rawExtractor p₀.config.maxPacketBytes) h)
    (htransport : p₀.config.transport = .rawUart) (hconfig : p.config = p₀.config)
    (chunks : List SmpTrafficChunk) (hdirection : ∀ chunk ∈ chunks, chunk.direction = d)
    (htime : NoTimeout runtime p chunks) :
    let fed := feedAll runtime p chunks
    let taken := framing.feedAll (rawExtractor p₀.config.maxPacketBytes) h (chunks.map (·.data))
    Retains d taken.2 fed.1 ∧ ∃ records, Makes p fed.1 fed.2 records ∧
      Renders runtime p₀ d taken.1 records ∧
      Covers h.offset (h.items ++ (chunks.map (·.data)).flatten) records taken.2.items := by
  induction chunks generalizing h p with
  | nil =>
    refine ⟨hp, [], (refl p).makes, .nil, ?_⟩
    rw [map_nil, flatten_nil, append_nil]
    exact .done
  | cons chunk chunks ih =>
    obtain ⟨hwaits, hlater⟩ := htime
    obtain rfl := hdirection chunk mem_cons_self
    obtain ⟨hretains, records, hmakes, hrenders, hcovers⟩ :=
      @Retains.feed runtime p₀ _ _ _ hp hsettled htransport hconfig hwaits
    obtain ⟨hlast, records', hmade, hrest, hcovered⟩ := ih hretains (feed_settled _ _ _)
      (hmakes.config.trans hconfig)
      (fun other hother => hdirection other (mem_cons_of_mem _ hother)) hlater
    have hplace : (framing.feed (rawExtractor p₀.config.maxPacketBytes) h chunk.data).2.offset +
        (framing.feed (rawExtractor p₀.config.maxPacketBytes) h chunk.data).2.items.length =
          h.offset + (h.items ++ chunk.data).length := by
      obtain ⟨hskip, hsize⟩ :=
        drain_conserves (rawExtractor p₀.config.maxPacketBytes) (h.push chunk.data)
      unfold framing.feed
      rw [hskip]
      simp only [skip, push, length_drop] at hsize ⊢
      omega
    refine ⟨hlast, records ++ records', hmakes.trans hmade, hrenders.append hrest, ?_⟩
    rw [map_cons, flatten_cons, ← append_assoc]
    exact hcovers.append hcovered hplace

/-! ## What the records tell -/

/-- The messages among the events, as their records tell them. -/
def messagesAmong (runtime : Runtime) (p : McumgrSmpParser) (d : Direction)
    (events : List (Taken RawEvent)) : List SmpRecord :=
  events.filterMap fun taken => match taken.event with
    | .message bytes => some (rawMessage runtime p d taken.offset bytes)
    | .noise _ => none

theorem messagesAmong_noise (offset : Nat) (bytes : Uint8Array) (events : List (Taken RawEvent)) :
    messagesAmong runtime p d (noiseEvents offset bytes ++ events) =
      messagesAmong runtime p d events := by
  induction bytes generalizing offset with
  | nil => rfl
  | cons byte bytes ih => exact ih (offset + 1)

/-- The records of messages, in all but their id, their time and what becomes of the
transaction. -/
def messageRecords (records : List SmpRecord) : List SmpRecord :=
  (records.filter (·.header.isSome)).map fun record => SmpRecord.untimed record.core

theorem Renders.messages {events : List (Taken RawEvent)} (h : Renders runtime p d events records) :
    (records.filter (·.header.isSome)).map SmpRecord.untimed =
      messagesAmong runtime p d events := by
  induction h with
  | nil => rfl
  | @message offset bytes record events records hrecord _ ih =>
    have hheader : record.header.isSome = true := by
      have hsame := congrArg SmpRecord.header hrecord
      rw [show record.header = _ from hsame]
      rfl
    rw [filter_cons, if_pos hheader, map_cons, ih, hrecord]
    rfl
  | @noise record events records hheader _ ih =>
    rw [filter_cons, if_neg (by simp [hheader]), ih, messagesAmong_noise]

theorem messageRecords_core (records : List SmpRecord) :
    messageRecords records =
      ((records.map SmpRecord.core).filter (·.header.isSome)).map SmpRecord.untimed := by
  unfold messageRecords
  rw [filter_map, map_map]
  rfl

theorem covers_core {offset : Nat} {stream : Uint8Array}
    (h : Covers offset stream (records.map SmpRecord.core) rest) :
    Covers offset stream records rest := by
  induction records generalizing offset stream with
  | nil =>
    cases h
    exact .done
  | cons record records ih =>
    obtain ⟨cores, hcores⟩ : ∃ cores, cores = (record :: records).map SmpRecord.core := ⟨_, rfl⟩
    rw [← hcores] at h
    cases h with
    | done => cases hcores
    | record hsome hend hrest =>
      obtain ⟨rfl, rfl⟩ := cons.inj hcores
      exact @Covers.record record _ _ _ hsome hend (ih hrest)

/-- Two partitions of one stream into calls give the same messages and hold the same bytes back.
The records of a partition cover the stream without a gap and up to the bytes held back. -/
theorem raw_cuts_and_tiles {p : McumgrSmpParser} {d : Direction}
    (htransport : p.config.transport = .rawUart) (hempty : (p.state d).rawBuffer = [])
    (as bs : List SmpTrafficChunk) (hdirection : ∀ chunk ∈ as ++ bs, chunk.direction = d)
    (hsame : (as.map (·.data)).flatten = (bs.map (·.data)).flatten)
    (ha : NoTimeout runtime p as) (hb : NoTimeout runtime p bs) :
    let fedA := feedAll runtime p as
    let fedB := feedAll runtime p bs
    messageRecords (fedA.1.recordsAt fedA.2) = messageRecords (fedB.1.recordsAt fedB.2) ∧
      (fedA.1.state d).rawBuffer = (fedB.1.state d).rawBuffer ∧
      Covers (p.state d).inputOffset (as.map (·.data)).flatten (fedA.1.recordsAt fedA.2)
        (fedA.1.state d).rawBuffer ∧
      Covers (p.state d).inputOffset (as.map (·.data)).flatten (fedB.1.recordsAt fedB.2)
        (fedB.1.state d).rawBuffer := by
  have hnothing : Retains d ⟨(p.state d).inputOffset, []⟩ p :=
    ⟨hempty, fun hsome => absurd rfl hsome, rfl⟩
  have hsettled : Settled (rawExtractor p.config.maxPacketBytes)
      ⟨(p.state d).inputOffset, []⟩ := next_nil _
  have hall := feedAll_congr _ _ hsettled (as.map (·.data)) (bs.map (·.data)) hsame
  obtain ⟨hheldA, recordsA, hmadeA, hrendersA, hcoversA⟩ := @Retains.feedAll runtime p _ _ _
    hnothing hsettled htransport rfl as
    (fun chunk hchunk => hdirection chunk (mem_append_left _ hchunk)) ha
  obtain ⟨hheldB, recordsB, hmadeB, hrendersB, hcoversB⟩ := @Retains.feedAll runtime p _ _ _
    hnothing hsettled htransport rfl bs
    (fun chunk hchunk => hdirection chunk (mem_append_right _ hchunk)) hb
  rw [nil_append] at hcoversA hcoversB
  rw [← hall] at hheldB hrendersB hcoversB
  intro fedA fedB
  refine ⟨?_, ?_, ?_, ?_⟩
  · rw [messageRecords_core, messageRecords_core, hmadeA.recordsAt, hmadeB.recordsAt,
      hrendersA.messages, hrendersB.messages]
  · rw [hheldA.rawBuffer, hheldB.rawBuffer]
  · rw [hheldA.rawBuffer]
    apply covers_core
    rw [hmadeA.recordsAt]
    exact hcoversA
  · rw [hheldB.rawBuffer, hsame]
    apply covers_core
    rw [hmadeB.recordsAt]
    exact hcoversB

def rawConfig : McumgrSmpParserConfig := ⟨.rawUart, 256, 1000, header_fits, waits_a_second⟩

/-- Noise and a read request, in one call, and cut in the noise and in the request. -/
theorem raw_cuts_of_a_request :
    let whole : List SmpTrafficChunk :=
      [receivedAt5 none ([0xFF, 0xFF, 0xFF] ++ [0, 0, 0, 0, 0, 0, 1, 0] ++ [0])]
    let cut : List SmpTrafficChunk := [receivedAt5 (some 1) [0xFF, 0xFF],
      receivedAt5 (some 2) [0xFF, 0, 0, 0], receivedAt5 (some 3) [0, 0, 0, 1, 0, 0]]
    let fedA := feedAll noPayload (new rawConfig) whole
    let fedB := feedAll noPayload (new rawConfig) cut
    (fedA.1.recordsAt fedA.2).map (fun record => (record.offset, record.endOffset)) =
        [(0, 3), (3, 11)] ∧
      messageRecords (fedA.1.recordsAt fedA.2) = messageRecords (fedB.1.recordsAt fedB.2) := by
  intro whole cut
  refine ⟨by decide +kernel, ?_⟩
  exact (@raw_cuts_and_tiles noPayload (new rawConfig) .RX rfl rfl whole cut (by decide)
    (by decide +kernel) (by decide +kernel) (by decide +kernel)).1

/-- Twenty bytes of noise in one call make one record, and in two calls two records, whose sizes
tell where the calls were cut. -/
theorem raw_noise_is_cut :
    let whole := feedAll noPayload (new rawConfig) [receivedAt5 none (replicate 20 0xFF)]
    let cut := feedAll noPayload (new rawConfig)
      [receivedAt5 none (replicate 10 0xFF), receivedAt5 none (replicate 10 0xFF)]
    (whole.1.recordsAt whole.2).map (fun record => (record.offset, record.endOffset)) =
        [(0, 13)] ∧
      (cut.1.recordsAt cut.2).map (fun record => (record.offset, record.endOffset)) =
        [(0, 3), (3, 13)] := by
  decide +kernel

end McumgrSmpParser

end bbcom.smp
