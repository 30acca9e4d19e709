-- What a console line does, seen through a map of the parser: the numbers of the capture get
-- other labels, and the fields of a direction may be replaced, all but its packet. No branch
-- behind a line reads more, so the map commutes with each function on the way.
import Bbcom.SmpTable

open bbcom.js bbcom.base64

namespace bbcom.smp

open ConsoleAssembly Option

/-! ## The map -/

def SmpRecord.relabel (g : Option Nat → Option Nat) (record : SmpRecord) : SmpRecord :=
  { record with captureSeq := g record.captureSeq }

def ConsoleAssembly.relabel (g : Option Nat → Option Nat) (assembly : ConsoleAssembly) :
    ConsoleAssembly :=
  { assembly with captureSeq := g assembly.captureSeq }

def TransportContext.relabel (g : Option Nat → Option Nat) (context : TransportContext) :
    TransportContext :=
  { context with captureSeq := g context.captureSeq }

/-- The map of the states leaves each packet, but for the label of its number. -/
structure Blind (g : Option Nat → Option Nat) (f : Direction → DirectionState → DirectionState) :
    Prop where
  console : ∀ d s, (f d s).console = s.console.map (relabel g)
  setConsole : ∀ d s c,
    f d { s with console := c } = { f d s with console := c.map (relabel g) }

namespace McumgrSmpParser

def ConsoleLine.relabel (g : Option Nat → Option Nat) (l : ConsoleLine) : ConsoleLine :=
  { l with captureSeq := g l.captureSeq }

/-- The parser through the map. -/
def seen (g : Option Nat → Option Nat) (f : Direction → DirectionState → DirectionState)
    (p : McumgrSmpParser) : McumgrSmpParser :=
  { p with TX := f .TX p.TX, RX := f .RX p.RX, records := p.records.map (SmpRecord.relabel g) }

variable {runtime : Runtime} {g : Option Nat → Option Nat}
variable {f : Direction → DirectionState → DirectionState}
variable (p : McumgrSmpParser)

@[simp] theorem seen_config : (p.seen g f).config = p.config := rfl

@[simp] theorem seen_nextRecordNumber : (p.seen g f).nextRecordNumber = p.nextRecordNumber := rfl

@[simp] theorem seen_pendingRequests : (p.seen g f).pendingRequests = p.pendingRequests := rfl

@[simp] theorem seen_admitted : (p.seen g f).admitted = p.admitted := rfl

@[simp] theorem seen_departed : (p.seen g f).departed = p.departed := rfl

@[simp] theorem seen_state (d : Direction) : (p.seen g f).state d = f d (p.state d) := by
  cases d <;> rfl

@[simp] theorem seen_record (ref : Nat) :
    (p.seen g f).records[ref]? = (p.records[ref]?).map (SmpRecord.relabel g) :=
  List.getElem?_map ..

/-! ## Records -/

theorem seen_setConsole (hf : Blind g f) (d : Direction) (c : Option ConsoleAssembly) :
    (p.seen g f).setConsole d (c.map (relabel g)) = (p.setConsole d c).seen g f := by
  have hset := hf.setConsole d (p.state d) c
  cases d with
  | TX =>
    simp only [setConsole, setState, state, seen] at hset ⊢
    rw [hset]
  | RX =>
    simp only [setConsole, setState, state, seen] at hset ⊢
    rw [hset]

theorem seen_create (record : SmpRecord) :
    (p.seen g f).create (record.relabel g) =
      ((p.create record).1.seen g f, (p.create record).2) := by
  simp [create, seen, SmpRecord.relabel]

theorem seen_change {u : SmpRecord → SmpRecord}
    (hu : ∀ record, (u record).relabel g = u (record.relabel g)) (ref : Nat) :
    (p.seen g f).change ref u = (p.change ref u).seen g f := by
  simp only [change, seen, map_modify_of hu]

theorem seen_transportErrorRecord (d : Direction) (timestamp : Int) (captureSeq : Option Nat)
    (offset : Nat) (data : Uint8Array) (code message : String) (severity : Severity) :
    (p.seen g f).transportErrorRecord d timestamp (g captureSeq) offset data code message severity =
      let made := p.transportErrorRecord d timestamp captureSeq offset data code message severity
      (made.1.seen g f, made.2) := by
  unfold transportErrorRecord
  simp only
  rw [← seen_create]
  rfl

/-! ## Requests and responses -/

theorem seen_leave (ref : Nat) (departure : Departure) (message : String) :
    (p.seen g f).leave ref departure message = (p.leave ref departure message).seen g f := by
  have hmark := @seen_change g f p (markRequestUnmatched message) (fun _ => rfl) ref
  simp only [leave, hmark]
  rfl

theorem seen_expirePendingRequests (now : Int) :
    (p.seen g f).expirePendingRequests now = (p.expirePendingRequests now).seen g f := by
  unfold expirePendingRequests
  simp only [seen_pendingRequests]
  induction p.pendingRequests.filter fun pending => decide (pending.expiresAt ≤ now) with
  | nil => rfl
  | cons pending expired ih => rw [List.foldr_cons, List.foldr_cons, ih, seen_leave]

theorem seen_evict (fuel : Nat) (p : McumgrSmpParser) :
    evict fuel (p.seen g f) = (evict fuel p).seen g f := by
  induction fuel generalizing p with
  | zero => rfl
  | succ fuel ih =>
    unfold evict
    rw [seen_pendingRequests]
    by_cases hfull : DEFAULT_SMP_MAX_PENDING_REQUESTS < p.pendingRequests.length
    · rw [if_pos hfull, if_pos hfull]
      cases p.pendingRequests with
      | nil => rfl
      | cons evicted rest =>
        simp only
        rw [← ih, ← seen_leave]
        rfl
    · rw [if_neg hfull, if_neg hfull]

theorem seen_answers (record : SmpRecord) (header : SmpHeader) :
    (p.seen g f).answers (record.relabel g) header = p.answers record header := by
  funext pending
  simp only [answers, seen_record]
  cases p.records[pending.record]? <;> rfl

theorem seen_correlate (ref : Nat) (record : SmpRecord) :
    (p.seen g f).correlate ref (record.relabel g) = (p.correlate ref record).seen g f := by
  have hheader : (record.relabel g).header = record.header := rfl
  have htimestamp : (record.relabel g).timestamp = record.timestamp := rfl
  unfold correlate
  rw [hheader]
  cases record.header with
  | none => rfl
  | some header =>
    simp only [htimestamp, seen_expirePendingRequests]
    cases expectedResponseOp header.op with
    | some expectedOp =>
      simp only
      rw [← seen_evict]
      have hpending := @seen_change g f (p.expirePendingRequests record.timestamp)
        (fun record => if record.status = .ok then { record with status := .pending } else record)
        (fun record => by unfold SmpRecord.relabel; by_cases h : record.status = .ok <;> simp [h])
        ref
      rw [hpending]
      rfl
    | none =>
      simp only
      split_ifs
      · rfl
      · simp only [seen_answers, seen_pendingRequests, seen_record]
        cases hfound : (p.expirePendingRequests record.timestamp).pendingRequests.find?
            ((p.expirePendingRequests record.timestamp).answers record header) with
        | none => exact seen_change (u := orphanResponse) _ (fun _ => rfl) ref
        | some pending =>
          simp only
          cases (p.expirePendingRequests record.timestamp).records[pending.record]? with
          | none => rfl
          | some request =>
            simp only [map_some]
            rw [← seen_change (u := fun answer => { answer with
                requestId := some request.id
                rttMs := some (max 0 (record.timestamp - request.timestamp)) }) _ (fun _ => rfl)]
            rw [← seen_change (u := fun asked => { asked with
                responseId := some record.id
                rttMs := some (max 0 (record.timestamp - request.timestamp))
                status := statusFor asked.diagnostics false }) _ (fun _ => rfl)]
            rfl

/-! ## Messages -/

theorem seen_decodeMessage (message : Uint8Array) (context : TransportContext)
    (packetOffset : Nat) :
    (p.seen g f).decodeMessage runtime message (context.relabel g) packetOffset =
      let decoded := p.decodeMessage runtime message context packetOffset
      (decoded.1.seen g f, decoded.2) := by
  have hrecord : ({ (p.seen g f).messageRecord runtime message (context.relabel g) packetOffset with
      id := p.nextRecordNumber } : SmpRecord) =
        ({ p.messageRecord runtime message context packetOffset with
          id := p.nextRecordNumber } : SmpRecord).relabel g := rfl
  have hcrc : (context.relabel g).crcStatus = context.crcStatus := rfl
  have hdiagnostics : (context.relabel g).diagnostics = context.diagnostics := rfl
  unfold decodeMessage
  simp only [seen_nextRecordNumber, hrecord, hcrc, hdiagnostics, seen_create]
  split_ifs
  · rw [seen_correlate]
  · rfl

theorem seen_decodeFrom (packet : Uint8Array) (context : TransportContext)
    (fuel packetOffset : Nat) (p : McumgrSmpParser) :
    decodeFrom runtime packet (context.relabel g) fuel packetOffset (p.seen g f) =
      let decoded := decodeFrom runtime packet context fuel packetOffset p
      (decoded.1.seen g f, decoded.2) := by
  induction fuel generalizing packetOffset p with
  | zero => rfl
  | succ fuel ih =>
    have herror : ∀ (p : McumgrSmpParser) offset data code message severity,
        (p.seen g f).transportErrorRecord (context.relabel g).direction
          (context.relabel g).timestamp
          (context.relabel g).captureSeq offset data code message severity =
            let made := p.transportErrorRecord context.direction context.timestamp
              context.captureSeq offset data code message severity
            (made.1.seen g f, made.2) := fun p => seen_transportErrorRecord p _ _ _
    have hoffset : (context.relabel g).offset = context.offset := rfl
    simp only [decodeFrom, seen_config, hoffset, herror]
    by_cases hend : packet.length ≤ packetOffset
    · rw [if_pos hend, if_pos hend]
    · rw [if_neg hend, if_neg hend]
      by_cases hshort : packet.length - packetOffset < SMP_HEADER_BYTES
      · rw [if_pos hshort, if_pos hshort]
      · rw [if_neg hshort, if_neg hshort]
        by_cases hlong : p.config.maxPacketBytes <
            SMP_HEADER_BYTES + readU16 packet (packetOffset + 2) ∨
              packet.length < packetOffset + (SMP_HEADER_BYTES + readU16 packet (packetOffset + 2))
        · rw [if_pos hlong, if_pos hlong]
        · rw [if_neg hlong, if_neg hlong]
          simp only [seen_decodeMessage]
          split_ifs
          · simp only [seen_change (u := paddingWarning _ _) _ (fun _ => rfl), ih]
          · simp only [ih]

theorem seen_decodeTransportPacket (packet : Uint8Array) (context : TransportContext) :
    (p.seen g f).decodeTransportPacket runtime packet (context.relabel g) =
      let decoded := p.decodeTransportPacket runtime packet context
      (decoded.1.seen g f, decoded.2) :=
  seen_decodeFrom packet context packet.length 0 p

/-! ## A line -/

theorem seen_lineError (d : Direction) (l : ConsoleLine) (markerIndex : Nat)
    (code message : String) :
    (p.seen g f).lineError d (l.relabel g) markerIndex code message =
      let made := p.lineError d l markerIndex code message
      (made.1.seen g f, made.2) :=
  seen_transportErrorRecord p ..

theorem seen_restart (hf : Blind g f) (d : Direction) (kind : MarkerKind) :
    (p.seen g f).restart d kind =
      let restarted := p.restart d kind
      (restarted.1.seen g f, restarted.2) := by
  unfold restart
  rw [seen_state, hf.console]
  cases (p.state d).console with
  | none => rfl
  | some console =>
    simp only [map_some]
    have herror := @seen_transportErrorRecord g f p d console.timestamp console.captureSeq
      console.offset console.wireParts.flatten "smp.console.restarted"
      "A new Serial Console packet started before the previous packet completed" .error
    have hnone := fun q => @seen_setConsole g f q hf d none
    simp only [map_none] at hnone
    split_ifs
    · simp only [relabel, herror, hnone]
    · rfl

theorem seen_finishConsole (hf : Blind g f) (d : Direction) :
    (p.seen g f).finishConsole runtime d =
      let finished := p.finishConsole runtime d
      (finished.1.seen g f, finished.2) := by
  unfold finishConsole
  rw [seen_state, hf.console]
  cases (p.state d).console with
  | none => rfl
  | some assembly =>
    simp only [map_some]
    have hbody : (assembly.relabel g).body = assembly.body := rfl
    have hexpected : (assembly.relabel g).expectedBytes = assembly.expectedBytes := rfl
    rw [hbody, hexpected]
    have hnone := @seen_setConsole g f p hf d none
    simp only [map_none] at hnone
    by_cases hshort : assembly.body.length < assembly.expectedBytes
    · rw [if_pos hshort, if_pos hshort]
    · rw [if_neg hshort, if_neg hshort, hnone]
      exact seen_decodeTransportPacket (p.setConsole d none) _
        ⟨d, assembly.timestamp, assembly.captureSeq, assembly.offset,
          some assembly.wireParts.flatten, _, _⟩

theorem seen_consumeFragment (hf : Blind g f) (d : Direction) (l : ConsoleLine) (kind : MarkerKind)
    (index : Nat) :
    (p.seen g f).consumeFragment runtime d (l.relabel g) kind index =
      let consumed := p.consumeFragment runtime d l kind index
      (consumed.1.seen g f, consumed.2) := by
  have hnone := fun q => @seen_setConsole g f q hf d none
  simp only [map_none] at hnone
  have hline : (l.relabel g).line = l.line := rfl
  unfold consumeFragment
  simp only [seen_restart p hf, hline]
  set q := (p.restart d kind).1 with hq
  cases base64ToBytes ((asciiDecode (l.line.drop (index + 2))).filter fun c => !isSpace c) with
  | none => simp only [seen_lineError, hnone]
  | some fragment =>
    cases kind with
    | initial =>
      simp only [seen_lineError, seen_config]
      by_cases hshort : fragment.length < 2
      · rw [if_pos hshort, if_pos hshort]
      · rw [if_neg hshort, if_neg hshort]
        by_cases hwrong : readU16 fragment 0 < SMP_HEADER_BYTES + 2 ∨
            q.config.maxPacketBytes + 2 < readU16 fragment 0
        · rw [if_pos hwrong, if_pos hwrong]
        · rw [if_neg hwrong, if_neg hwrong]
          have hset := seen_setConsole q hf d (some ⟨readU16 fragment 0, fragment.drop 2,
            [l.wireLine], l.timestamp, l.captureSeq, l.offset + index, l.now⟩)
          simp only [map_some, relabel] at hset
          simp only [ConsoleLine.relabel, hset, seen_finishConsole _ hf]
    | continuation =>
      simp only [seen_state, hf.console, seen_lineError]
      cases (q.state d).console with
      | none => rfl
      | some console =>
        have hset := seen_setConsole q hf d (some { console with
          body := console.body ++ fragment
          wireParts := console.wireParts ++ [l.wireLine]
          lastTimestamp := l.now })
        simp only [map_some, relabel] at hset
        simp only [map_some, relabel, ConsoleLine.relabel, hset, seen_finishConsole _ hf]

/-- A line does through the map what it does without. -/
theorem seen_consumeConsoleLine (hf : Blind g f) (d : Direction) (budget : Nat) (l : ConsoleLine)
    (p : McumgrSmpParser) :
    consumeConsoleLine runtime d budget (l.relabel g) (p.seen g f) =
      let consumed := consumeConsoleLine runtime d budget l p
      (consumed.1.seen g f, consumed.2) := by
  have hline : (l.relabel g).line = l.line := rfl
  induction budget generalizing l p with
  | zero =>
    unfold consumeConsoleLine
    rw [hline]
    split
    · rfl
    · simp only [seen_consumeFragment p hf]
  | succ budget ih =>
    unfold consumeConsoleLine
    rw [hline]
    split
    · rfl
    · simp only [seen_consumeFragment p hf]
      split
      · rfl
      · split_ifs
        · have hnext := fun q next => ih { l with
            line := l.line.drop next
            wireLine := l.wireLine.drop next
            offset := l.offset + next } q rfl
          simp only [ConsoleLine.relabel] at hnext ⊢
          simp only [hnext]
        · rfl

end McumgrSmpParser

end bbcom.smp
