-- How a transport packet of SMP is taken apart into messages: whatever its headers say, each byte
-- goes to one record at most, and what is left over is reported.
import Bbcom.SmpContent

open bbcom.js

namespace bbcom.smp

open List Uint8Array

namespace McumgrSmpParser

variable {runtime : Runtime} {packet : Uint8Array} {context : TransportContext}

/-! ## What the records of a packet are -/

/-- The records tell the packet from `start` on: its messages, each at the next multiple of four
behind the one before, and what is left over. -/
inductive Tiles (packet : Uint8Array) (maxPacketBytes base : Nat) : Nat → List SmpRecord → Prop
  | done {start : Nat} (hend : packet.length ≤ start) : Tiles packet maxPacketBytes base start []
  | rest {start : Nat} {record : SmpRecord} (hstart : start < packet.length)
      (hoffset : record.offset = base + start) (hend : record.endOffset = base + packet.length)
      (hdata : record.data = packet.drop start) (hheader : record.header = none)
      (hreported : ∃ diagnostic ∈ record.diagnostics, diagnostic.severity = .error ∧
        diagnostic.code = if packet.length - start < SMP_HEADER_BYTES then
          "smp.packet.trailing-bytes" else "smp.packet.length")
      (hbroken : SMP_HEADER_BYTES ≤ packet.length - start →
        maxPacketBytes < SMP_HEADER_BYTES + readU16 packet (start + 2) ∨
          packet.length < start + (SMP_HEADER_BYTES + readU16 packet (start + 2))) :
      Tiles packet maxPacketBytes base start [record]
  | message {start : Nat} {record : SmpRecord} {records : List SmpRecord}
      (hmessage : IsMessage record.data) (hfits : start + record.data.length ≤ packet.length)
      (hlimit : record.data.length ≤ maxPacketBytes)
      (hdata : record.data = packet.subarray start (start + record.data.length))
      (hoffset : record.offset = base + start)
      (hend : record.endOffset = base + (start + record.data.length))
      (hheader : record.header.isSome)
      (hrest : Tiles packet maxPacketBytes base
        (min packet.length (alignUp (start + record.data.length))) records) :
      Tiles packet maxPacketBytes base start (record :: records)

theorem le_alignUp (offset : Nat) : offset ≤ alignUp offset := by
  unfold alignUp
  omega

theorem four_dvd_alignUp (offset : Nat) : 4 ∣ alignUp offset := Dvd.intro_left _ rfl

/-- Where the next message starts, or the packet is at its end. -/
theorem next_start (offset : Nat) : 4 ∣ min packet.length (alignUp offset) ∨
    packet.length ≤ min packet.length (alignUp offset) := by
  rcases Nat.le_total packet.length (alignUp offset) with hpast | hinside
  · exact .inr (le_min le_rfl hpast)
  · rw [min_eq_right hinside]
    exact .inl (four_dvd_alignUp offset)

section

variable {maxPacketBytes base start : Nat} {records : List SmpRecord}

section

variable (h : Tiles packet maxPacketBytes base start records)
include h

/-- What correlation changes in the records says nothing about the packet. -/
theorem Tiles.of_core :
    ∀ {others : List SmpRecord}, others.map SmpRecord.core = records →
      Tiles packet maxPacketBytes base start others := by
  induction h with
  | done hend =>
    intro others hothers
    obtain rfl := map_eq_nil_iff.1 hothers
    exact .done hend
  | rest hstart hoffset hend hdata hheader hreported hbroken =>
    intro others hothers
    obtain ⟨other, rfl, rfl⟩ := map_eq_singleton_iff.1 hothers
    obtain ⟨diagnostic, hmem, hsays⟩ := hreported
    exact .rest hstart hoffset hend hdata hheader
      ⟨diagnostic, (mem_filter.1 hmem).1, hsays⟩ hbroken
  | message hmessage hfits hlimit hdata hoffset hend hheader _ ih =>
    intro others hothers
    obtain ⟨other, rest, rfl, rfl, hrest⟩ := map_eq_cons_iff.1 hothers
    exact .message hmessage hfits hlimit hdata hoffset hend hheader (ih hrest)

/-- Every record starts at `start` or behind it, at a multiple of four. -/
theorem Tiles.starts :
    (4 ∣ start ∨ packet.length ≤ start) → ∀ record ∈ records, ∃ place,
      record.offset = base + place ∧ start ≤ place ∧ 4 ∣ place ∧
        record.endOffset = record.offset + record.data.length ∧
        record.data = packet.subarray place (place + record.data.length) ∧
        place + record.data.length ≤ packet.length := by
  induction h with
  | done _ => exact fun _ record hrecord => absurd hrecord not_mem_nil
  | @rest start record hstart hoffset hend hdata _ _ _ =>
    intro haligned other hother
    rw [mem_singleton.1 hother]
    have hlength : record.data.length = packet.length - start := by rw [hdata, length_drop]
    have hwhole : start + record.data.length = packet.length := by omega
    refine ⟨start, hoffset, le_rfl, haligned.resolve_right (by omega), ?_, ?_, hwhole.le⟩
    · rw [hend, hoffset, Nat.add_assoc, hwhole]
    · rw [hwhole, hdata, subarray, take_length]
  | @message start record records hmessage hfits hlimit hdata hoffset hend hheader _ ih =>
    intro haligned other hother
    have hheld := hmessage.1
    unfold SMP_HEADER_BYTES at hheld
    rcases mem_cons.1 hother with rfl | hlater
    · refine ⟨start, hoffset, le_rfl, haligned.resolve_right (by omega), ?_, hdata, hfits⟩
      rw [hend, hoffset, Nat.add_assoc]
    · have hle := le_alignUp (start + record.data.length)
      obtain ⟨place, hplace, hafter, hrest⟩ := ih (next_start _) other hlater
      exact ⟨place, hplace, by omega, hrest⟩

theorem Tiles.in_order :
    (4 ∣ start ∨ packet.length ≤ start) →
      records.Pairwise fun record later => record.endOffset ≤ later.offset := by
  induction h with
  | done _ => exact fun _ => .nil
  | rest => exact fun _ => pairwise_singleton _ _
  | @message start record records hmessage hfits hlimit hdata hoffset hend hheader hrest ih =>
    intro _
    have hle := le_alignUp (start + record.data.length)
    have hnext := @next_start packet (start + record.data.length)
    refine pairwise_cons.2 ⟨fun later hlater => ?_, ih hnext⟩
    obtain ⟨place, hplace, hafter, _⟩ := hrest.starts hnext later hlater
    rw [hend, hplace]
    omega

/-- A byte of the packet is in a record, or between a message and the next multiple of four. -/
theorem Tiles.covers :
    ∀ place, start ≤ place → place < packet.length →
      ∃ record ∈ records, record.offset ≤ base + place ∧
        (base + place < record.endOffset ∨
          record.header.isSome ∧ base + place < base + alignUp (record.endOffset - base)) := by
  induction h with
  | done hend => exact fun place hstart hplace => absurd (hend.trans hstart) (not_le.2 hplace)
  | rest _ hoffset hend _ _ _ _ =>
    intro place hstart hplace
    exact ⟨_, mem_singleton_self _, by omega, .inl (by omega)⟩
  | @message start record records _ _ _ _ hoffset hend hheader _ ih =>
    intro place hstart hplace
    by_cases hinside : place < start + record.data.length
    · exact ⟨record, mem_cons_self, by omega, .inl (by omega)⟩
    by_cases hpadding : place < alignUp (start + record.data.length)
    · refine ⟨record, mem_cons_self, by omega, .inr ⟨hheader, ?_⟩⟩
      rw [hend, Nat.add_sub_cancel_left]
      omega
    · obtain ⟨later, hlater, hcovers⟩ := ih place (by omega) hplace
      exact ⟨later, mem_cons_of_mem _ hlater, hcovers⟩

end

end

/-! ## The loop -/

theorem error_tiles (p : McumgrSmpParser) {start : Nat} {code message : String}
    (hstart : start < packet.length)
    (hcode : code = if packet.length - start < SMP_HEADER_BYTES then "smp.packet.trailing-bytes"
      else "smp.packet.length") (hbroken : SMP_HEADER_BYTES ≤ packet.length - start →
      p.config.maxPacketBytes < SMP_HEADER_BYTES + readU16 packet (start + 2) ∨
        packet.length < start + (SMP_HEADER_BYTES + readU16 packet (start + 2))) :
    let made := p.transportErrorRecord context.direction context.timestamp context.captureSeq
      (context.offset + start) (packet.drop start) code message .error
    ∃ records, Makes p made.1 [made.2] records ∧
      Tiles packet p.config.maxPacketBytes context.offset start records := by
  intro made
  refine ⟨_, (create_adds p _).1.makes, ?_⟩
  have hkept : (⟨code, .error, message, none, none⟩ : SmpDiagnostic).isLater = false := by
    rw [hcode]
    unfold SmpDiagnostic.isLater
    split <;> rfl
  refine .rest hstart rfl ?_ rfl rfl ⟨⟨code, .error, message, none, none⟩, ?_, rfl, hcode⟩ hbroken
  · change context.offset + start + (packet.drop start).length = context.offset + packet.length
    rw [length_drop]
    omega
  · exact mem_filter.2 ⟨mem_singleton_self _, by rw [hkept]; rfl⟩

/-- The message at `start` has a record, and what follows it goes on. -/
theorem message_tiles {p q : McumgrSmpParser} {start messageLength : Nat}
    (hlength : messageLength = SMP_HEADER_BYTES + readU16 packet (start + 2))
    (hlimit : messageLength ≤ p.config.maxPacketBytes)
    (hfits : start + messageLength ≤ packet.length)
    {records : List SmpRecord} (hconfig : q.config = p.config)
    (hrest : Tiles packet q.config.maxPacketBytes context.offset
      (min packet.length (alignUp (start + messageLength))) records) :
    Tiles packet p.config.maxPacketBytes context.offset start
      ((p.messageRecord runtime (packet.subarray start (start + messageLength))
          context start).core ::
        records) := by
  have hdata : (packet.subarray start (start + messageLength)).length = messageLength := by
    rw [length_subarray _ _ _ hfits]
    omega
  have hcore : (p.messageRecord runtime (packet.subarray start (start + messageLength)) context
      start).core.data = packet.subarray start (start + messageLength) := rfl
  refine .message ?_ ?_ ?_ ?_ rfl ?_ rfl ?_
  · rw [hcore]
    refine ⟨by omega, ?_⟩
    have hsplit : readU16 packet (start + 2) =
        readU16 (packet.subarray start (start + messageLength)) 2 := by
      unfold SMP_HEADER_BYTES at hlength
      rw [subarray, readU16_drop]
      conv_lhs => rw [← take_append_drop (start + messageLength) packet]
      exact readU16_append (by rw [length_take]; omega)
    rw [hdata, ← hsplit]
    exact hlength
  · rw [hcore, hdata]
    exact hfits
  · rw [hcore, hdata]
    exact hlimit
  · rw [hcore, hdata]
  · rw [hcore, hdata]
    change context.offset + start + (packet.subarray start (start + messageLength)).length = _
    rw [hdata, Nat.add_assoc]
  · rw [hcore, hdata, ← hconfig]
    exact hrest

/-- The loop tells the packet, and the fuel never runs out. -/
theorem decodeFrom_tiles (packet : Uint8Array) (context : TransportContext) (fuel start : Nat)
    (p : McumgrSmpParser) (hfuel : packet.length ≤ start + fuel) :
    ∃ records, Makes p (decodeFrom runtime packet context fuel start p).1
        (decodeFrom runtime packet context fuel start p).2 records ∧
      Tiles packet p.config.maxPacketBytes context.offset start records ∧
      ∀ more, decodeFrom runtime packet context (fuel + more) start p =
        decodeFrom runtime packet context fuel start p := by
  induction fuel generalizing start p with
  | zero =>
    have hend : packet.length ≤ start := hfuel
    refine ⟨[], (SameRecords.refl p).makes, .done hend, fun more => ?_⟩
    cases more with
    | zero => rfl
    | succ more => simp only [decodeFrom, hend, if_true]
  | succ fuel ih =>
    have hmore : ∀ more, fuel + 1 + more = (fuel + more) + 1 := fun more => by omega
    simp only [hmore]
    unfold decodeFrom
    split
    · rename_i hend
      exact ⟨[], (SameRecords.refl p).makes, .done hend, fun _ => rfl⟩
    rename_i hstart
    split
    · rename_i hshort
      obtain ⟨records, hmakes, htiles⟩ := @error_tiles packet context p start _ _
        (not_le.1 hstart) (by rw [if_pos hshort]) (by omega)
      exact ⟨records, hmakes, htiles, fun _ => rfl⟩
    rename_i hlong
    dsimp only
    split
    · rename_i hbroken
      obtain ⟨records, hmakes, htiles⟩ := @error_tiles packet context p start _ _
        (not_le.1 hstart) (by rw [if_neg hlong]) (fun _ => hbroken)
      exact ⟨records, hmakes, htiles, fun _ => rfl⟩
    rename_i hwhole
    rw [not_or, not_lt, not_lt] at hwhole
    obtain ⟨messageLength, hlength⟩ : ∃ messageLength,
      messageLength = SMP_HEADER_BYTES + readU16 packet (start + 2) := ⟨_, rfl⟩
    rw [← hlength] at hwhole
    simp only [← hlength]
    obtain ⟨message, hmessage⟩ : ∃ message,
      message = packet.subarray start (start + messageLength) := ⟨_, rfl⟩
    obtain ⟨hadds, href⟩ := @decodeMessage_adds runtime p message context start
    -- the padding behind the message may still warn in its record
    have hwarned : ∀ warns : Bool, ∀ length, AddsRecord p
        (if warns then (p.decodeMessage runtime message context start).1.change p.records.length
            (paddingWarning (start + messageLength) length)
          else (p.decodeMessage runtime message context start).1)
        (p.messageRecord runtime message context start) := by
      intro warns length
      cases warns with
      | true =>
        exact hadds.trans (change_records (u := paddingWarning _ _)
          (fun record => core_later record _ rfl _) _ _)
      | false => exact hadds
    simp only [← hmessage, href]
    obtain ⟨q, hq⟩ : ∃ q, q = (if ((packet.subarray (start + messageLength)
          (min packet.length ((start + messageLength + 3) / 4 * 4))).any (· ≠ 0)) = true then
        (p.decodeMessage runtime message context start).1.change p.records.length
          (paddingWarning (start + messageLength) (packet.subarray (start + messageLength)
            (min packet.length ((start + messageLength + 3) / 4 * 4))).length)
        else (p.decodeMessage runtime message context start).1) := ⟨_, rfl⟩
    have hone : AddsRecord p q (p.messageRecord runtime message context start) := hq ▸ hwarned _ _
    rw [← hq]
    have hheld : SMP_HEADER_BYTES = 8 := rfl
    have hnext := le_alignUp (start + messageLength)
    obtain ⟨records, hmakes, htiles, hsame⟩ :=
      ih (min packet.length (alignUp (start + messageLength))) q (by omega)
    refine ⟨_, hone.makes.trans hmakes, ?_, fun more => ?_⟩
    · rw [hmessage]
      exact message_tiles hlength hwhole.1 hwhole.2 hone.config htiles
    · have hlater := hsame more
      unfold alignUp at hlater
      rw [hlater]

/-- The loop of `decodeTransportPacket` comes to its end on every packet. Its records tell the
packet from the front: the messages are exact slices at the multiples of four behind one another,
what is left over is reported, no two records have a byte in common, and each byte is in a record
or is padding behind a message. -/
theorem packet_tiles (runtime : Runtime) (p : McumgrSmpParser) (packet : Uint8Array)
    (context : TransportContext) :
    let decoded := p.decodeTransportPacket runtime packet context
    let records := decoded.1.recordsAt decoded.2
    (∀ more, decodeFrom runtime packet context (packet.length + more) 0 p = decoded) ∧
    Tiles packet p.config.maxPacketBytes context.offset 0 records ∧
    (∀ record ∈ records, ∃ place, record.offset = context.offset + place ∧ 4 ∣ place ∧
      record.endOffset = record.offset + record.data.length ∧
      record.data = packet.subarray place (place + record.data.length) ∧
      place + record.data.length ≤ packet.length) ∧
    records.Pairwise (fun record later => record.endOffset ≤ later.offset) ∧
    ∀ place < packet.length, ∃ record ∈ records, record.offset ≤ context.offset + place ∧
      (context.offset + place < record.endOffset ∨ record.header.isSome ∧
        context.offset + place < context.offset + alignUp (record.endOffset - context.offset)) := by
  intro decoded records
  obtain ⟨cores, hmakes, htiles, hsame⟩ := @decodeFrom_tiles runtime packet context
    packet.length 0 p (by omega)
  have htold : Tiles packet p.config.maxPacketBytes context.offset 0 records :=
    htiles.of_core hmakes.recordsAt
  refine ⟨hsame, htold, fun record hrecord => ?_, htold.in_order (.inl (dvd_zero 4)), ?_⟩
  · obtain ⟨place, hoffset, _, hrest⟩ := htold.starts (.inl (dvd_zero 4)) record hrecord
    exact ⟨place, hoffset, hrest⟩
  · exact fun place hplace => htold.covers place (Nat.zero_le _) hplace

end McumgrSmpParser

end bbcom.smp
