-- All that a call of the SMP parser does, it does in a few kinds of steps. What each of them
-- keeps, a call keeps.
import Bbcom.SmpParser

open bbcom.js bbcom.base64

namespace bbcom.smp

/-- From one state of the parser to another. -/
inductive Steps (runtime : Runtime) (p : McumgrSmpParser) : McumgrSmpParser → Prop
  | none : Steps runtime p p
  | state {q : McumgrSmpParser} (h : Steps runtime p q) (d : Direction) (s : DirectionState) :
      Steps runtime p (q.setState d s)
  | error {q : McumgrSmpParser} (h : Steps runtime p q) (d : Direction) (timestamp : Int)
      (captureSeq : Option Nat) (offset : Nat) (data : Uint8Array) (code message : String)
      (severity : Severity) :
      Steps runtime p (q.transportErrorRecord d timestamp captureSeq offset data code message
        severity).1
  | message {q : McumgrSmpParser} (h : Steps runtime p q) (message : Uint8Array)
      (context : TransportContext) (packetOffset : Nat) :
      Steps runtime p (q.decodeMessage runtime message context packetOffset).1
  | padding {q : McumgrSmpParser} (h : Steps runtime p q) (ref packetOffset length : Nat) :
      Steps runtime p (q.change ref (McumgrSmpParser.paddingWarning packetOffset length))
  | expire {q : McumgrSmpParser} (h : Steps runtime p q) (now : Int) :
      Steps runtime p (q.expirePendingRequests now)

section

variable {runtime : Runtime} {p q r : McumgrSmpParser}

theorem Steps.trans (h : Steps runtime p q) (h' : Steps runtime q r) : Steps runtime p r := by
  induction h' with
  | none => exact h
  | state _ d s ih => exact ih.state d s
  | error _ d timestamp captureSeq offset data code message severity ih =>
    exact ih.error d timestamp captureSeq offset data code message severity
  | message _ message context packetOffset ih => exact ih.message message context packetOffset
  | padding _ ref packetOffset length ih => exact ih.padding ref packetOffset length
  | expire _ now ih => exact ih.expire now

namespace McumgrSmpParser

open Steps

theorem decodeFrom_steps (packet : Uint8Array) (context : TransportContext)
    (fuel packetOffset : Nat) (p : McumgrSmpParser) :
    Steps runtime p (decodeFrom runtime packet context fuel packetOffset p).1 := by
  induction fuel generalizing packetOffset p with
  | zero => exact .none
  | succ fuel ih =>
    simp only [decodeFrom]
    split_ifs
    · exact .none
    · exact none.error _ _ _ _ _ _ _ _
    · exact none.error _ _ _ _ _ _ _ _
    · exact (padding (none.message _ _ _) _ _ _).trans (ih _ _)
    · exact (none.message _ _ _).trans (ih _ _)

theorem decodeTransportPacket_steps (p : McumgrSmpParser) (packet : Uint8Array)
    (context : TransportContext) :
    Steps runtime p (p.decodeTransportPacket runtime packet context).1 :=
  decodeFrom_steps packet context packet.length 0 p

theorem rawLoop_steps (d : Direction) (fuel : Nat) (p : McumgrSmpParser) :
    Steps runtime p (rawLoop runtime d fuel p).1 := by
  induction fuel generalizing p with
  | zero => exact .none
  | succ fuel ih =>
    simp only [rawLoop]
    split_ifs
    · exact .none
    · exact (Steps.state (Steps.none.error _ _ _ _ _ _ _ _) _ _).trans (ih _)
    · exact .none
    · exact ((Steps.none.state _ _).trans (decodeTransportPacket_steps _ _ _)).trans (ih _)

theorem feedRaw_steps (p : McumgrSmpParser) (chunk : SmpTrafficChunk) (chunkOffset : Nat) :
    Steps runtime p (p.feedRaw runtime chunk chunkOffset).1 :=
  (none.state _ _).trans (rawLoop_steps _ _ _)

variable (runtime) in
theorem restart_steps (p : McumgrSmpParser) (d : Direction) (kind : MarkerKind) :
    Steps runtime p (p.restart d kind).1 := by
  unfold restart
  split
  · exact .none
  · split_ifs
    · exact Steps.state (Steps.none.error _ _ _ _ _ _ _ _) _ _
    · exact .none

theorem finishConsole_steps (p : McumgrSmpParser) (d : Direction) :
    Steps runtime p (p.finishConsole runtime d).1 := by
  unfold finishConsole
  split
  · exact .none
  · split_ifs
    · exact .none
    all_goals exact (none.state _ _).trans (decodeTransportPacket_steps _ _ _)

theorem lineError_steps (p : McumgrSmpParser) (d : Direction) (l : ConsoleLine) (index : Nat)
    (code message : String) : Steps runtime p (p.lineError d l index code message).1 :=
  none.error _ _ _ _ _ _ _ _

theorem consumeFragment_steps (p : McumgrSmpParser) (d : Direction) (l : ConsoleLine)
    (kind : MarkerKind) (index : Nat) :
    Steps runtime p (p.consumeFragment runtime d l kind index).1 := by
  have hrestart := restart_steps runtime p d kind
  unfold consumeFragment
  simp only
  split
  · exact (hrestart.trans (lineError_steps _ _ _ _ _ _)).state _ _
  · split
    · split_ifs
      · exact hrestart.trans (lineError_steps _ _ _ _ _ _)
      · exact hrestart.trans (lineError_steps _ _ _ _ _ _)
      · exact (hrestart.state _ _).trans (finishConsole_steps _ _)
    · split
      · exact hrestart.trans (lineError_steps _ _ _ _ _ _)
      · exact (hrestart.state _ _).trans (finishConsole_steps _ _)

theorem consumeConsoleLine_steps (d : Direction) (budget : Nat) (l : ConsoleLine)
    (p : McumgrSmpParser) : Steps runtime p (consumeConsoleLine runtime d budget l p).1 := by
  induction budget generalizing l p with
  | zero =>
    unfold consumeConsoleLine
    split
    · exact .none
    · exact consumeFragment_steps _ _ _ _ _
  | succ budget ih =>
    unfold consumeConsoleLine
    split
    · exact .none
    · simp only
      split
      · exact consumeFragment_steps _ _ _ _ _
      · split_ifs
        · exact (consumeFragment_steps _ _ _ _ _).trans (ih _ _)
        · exact consumeFragment_steps _ _ _ _ _

theorem consoleLoop_steps (chunk : SmpTrafficChunk) (fuel : Nat) (p : McumgrSmpParser) :
    Steps runtime p (consoleLoop runtime chunk fuel p).1 := by
  induction fuel generalizing p with
  | zero => exact .none
  | succ fuel ih =>
    simp only [consoleLoop]
    split
    · exact .none
    · exact ((none.state _ _).trans (consumeConsoleLine_steps _ _ _ _)).trans (ih _)

theorem limitLine_steps (p : McumgrSmpParser) (chunk : SmpTrafficChunk) (chunkOffset : Nat) :
    Steps runtime p (p.limitLine chunk chunkOffset).1 := by
  unfold limitLine
  simp only
  split_ifs
  · exact (none.state _ _).error _ _ _ _ _ _ _ _
  · exact none.state _ _
  · exact .none

theorem feedConsole_steps (p : McumgrSmpParser) (chunk : SmpTrafficChunk) (chunkOffset : Nat) :
    Steps runtime p (p.feedConsole runtime chunk chunkOffset).1 :=
  ((none.state _ _).trans (consoleLoop_steps _ _ _)).trans (limitLine_steps _ _ _)

theorem flushConsole_steps (p : McumgrSmpParser) (d : Direction) (now : Int) :
    Steps runtime p (p.flushConsole d now).1 := by
  unfold flushConsole
  simp only
  split
  · exact .none
  · split_ifs
    · exact Steps.state (Steps.none.error _ _ _ _ _ _ _ _) _ _
    · exact Steps.state (Steps.none.error _ _ _ _ _ _ _ _) _ _
    · exact .none

theorem flushRaw_steps (p : McumgrSmpParser) (d : Direction) (now : Int) :
    Steps runtime p (p.flushRaw d now).1 := by
  unfold flushRaw
  simp only
  split_ifs
  · exact Steps.state (Steps.none.error _ _ _ _ _ _ _ _) _ _
  · exact .none

variable (runtime) in
theorem flushExpired_steps (p : McumgrSmpParser) (now : Int) :
    Steps runtime p (p.flushExpired now).1 :=
  ((((flushConsole_steps p _ now).trans (flushRaw_steps _ _ now)).trans
    (flushConsole_steps _ _ now)).trans (flushRaw_steps _ _ now)).expire now

variable (runtime) in
/-- A call of `feed` does nothing but such steps. -/
theorem feed_steps (p : McumgrSmpParser) (chunk : SmpTrafficChunk) :
    Steps runtime p (p.feed runtime chunk).1 := by
  unfold feed
  split_ifs
  · exact flushExpired_steps runtime p chunk.timestamp
  · have hflush : Steps runtime p ((p.flushExpired chunk.timestamp).1.setState chunk.direction
        { (p.flushExpired chunk.timestamp).1.state chunk.direction with
          inputOffset := ((p.flushExpired chunk.timestamp).1.state chunk.direction).inputOffset +
            chunk.data.length }) :=
      (flushExpired_steps runtime p chunk.timestamp).state _ _
    simp only
    split
    · exact hflush.trans (feedConsole_steps _ _ _)
    · exact hflush.trans (feedRaw_steps _ _ _)

variable (runtime) in
theorem diagnostic_steps (p : McumgrSmpParser) (d : Direction) (timestamp : Int)
    (captureSeq : Option Nat) (code message : String) (severity : Option Severity)
    (data : Option Uint8Array) :
    Steps runtime p (p.diagnostic d timestamp captureSeq code message severity data).1 :=
  none.error _ _ _ _ _ _ _ _

end McumgrSmpParser

end

end bbcom.smp
