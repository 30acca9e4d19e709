-- The parser of MCUmgr SMP traffic (`mcumgr-smp-parser.ts`). The records are objects that the
-- parser may still change when it has returned them, so a record goes by its place in `records`.
import Bbcom.SmpRecords

open bbcom.js bbcom.base64

namespace bbcom.smp

/-! ## The state -/

structure McumgrSmpParserConfig where
  transport : SmpParserTransport
  maxPacketBytes : Nat
  reassemblyTimeoutMs : Nat
  maxPacketBytes_min : SMP_HEADER_BYTES ≤ maxPacketBytes
  reassemblyTimeoutMs_min : 1 ≤ reassemblyTimeoutMs

theorem header_fits : SMP_HEADER_BYTES ≤ 256 := by decide

theorem waits_a_second : 1 ≤ 1000 := by decide

structure SmpTrafficChunk where
  direction : Direction
  data : Uint8Array
  timestamp : Int
  captureSeq : Option Nat

structure ConsoleAssembly where
  expectedBytes : Nat
  body : Uint8Array
  wireParts : List Uint8Array
  timestamp : Int
  captureSeq : Option Nat
  offset : Nat
  lastTimestamp : Int
  deriving DecidableEq

structure RawSegment where
  endOffset : Nat
  timestamp : Int
  captureSeq : Option Nat
  deriving DecidableEq

structure DirectionState where
  inputOffset : Nat
  lineBuffer : Uint8Array
  lineBufferOffset : Nat
  lineTimestamp : Int
  lineCaptureSeq : Option Nat
  lineLastTimestamp : Int
  console : Option ConsoleAssembly
  rawBuffer : Uint8Array
  rawOffset : Nat
  rawTimestamp : Int
  rawCaptureSeq : Option Nat
  rawLastTimestamp : Int
  rawSegments : List RawSegment
  deriving DecidableEq

def createDirectionState : DirectionState :=
  ⟨0, [], 0, 0, none, 0, none, [], 0, 0, none, 0, []⟩

structure PendingRequest where
  record : Nat
  expectedOp : Nat
  expiresAt : Int
  deriving DecidableEq

/-- How a request leaves the table. -/
inductive Departure
  | answered (response : Nat)
  | evicted
  | expired
  deriving DecidableEq

/-- `admitted` and `departed` only record which requests have come into the table and how they
have left it. -/
structure McumgrSmpParser where
  config : McumgrSmpParserConfig
  TX : DirectionState
  RX : DirectionState
  pendingRequests : List PendingRequest
  nextRecordNumber : Nat
  records : List SmpRecord
  admitted : List Nat
  departed : List (Nat × Departure)

structure TransportContext where
  direction : Direction
  timestamp : Int
  captureSeq : Option Nat
  offset : Nat
  transportData : Option Uint8Array
  crcStatus : CrcStatus
  diagnostics : List SmpDiagnostic

def DEFAULT_SMP_MAX_PENDING_REQUESTS : Nat := 256
def DEFAULT_SMP_REQUEST_TIMEOUT_MS : Int := 30000

namespace McumgrSmpParser

def new (config : McumgrSmpParserConfig) : McumgrSmpParser :=
  ⟨config, createDirectionState, createDirectionState, [], 1, [], [], []⟩

variable (runtime : Runtime) (p : McumgrSmpParser)

def state : Direction → DirectionState
  | .TX => p.TX
  | .RX => p.RX

def setState (d : Direction) (state : DirectionState) : McumgrSmpParser :=
  match d with
  | .TX => { p with TX := state }
  | .RX => { p with RX := state }

/-! ## Records -/

/-- A new object. -/
def create (record : SmpRecord) : McumgrSmpParser × Nat :=
  ({ p with
      records := p.records ++ [{ record with id := p.nextRecordNumber }]
      nextRecordNumber := p.nextRecordNumber + 1 }, p.records.length)

/-- A change of an object. -/
def change (ref : Nat) (f : SmpRecord → SmpRecord) : McumgrSmpParser :=
  { p with records := p.records.modify ref f }

def transportErrorRecord (direction : Direction) (timestamp : Int) (captureSeq : Option Nat)
    (offset : Nat) (data : Uint8Array) (code message : String) (severity : Severity) :
    McumgrSmpParser × Nat :=
  let diagnostics := [⟨code, severity, message, none, none⟩]
  p.create {
    id := 0
    direction
    timestamp
    captureSeq
    data
    length := data.length
    offset
    endOffset := offset + data.length
    status := statusFor diagnostics false
    summary := message
    diagnostics
    transport := p.config.transport
    crcStatus := if p.config.transport = .rawUart then .notApplicable else .unknown
    transportData := some data
    header := none
    cbor := none
    requestId := none
    responseId := none
    rttMs := none
    ranges := ⟨some ⟨0, data.length⟩, none, none⟩ }

/-! ## Requests and responses -/

def markRequestUnmatched (message : String) (record : SmpRecord) : SmpRecord :=
  let diagnostics := record.diagnostics ++
    [⟨"smp.transaction.unmatched-request", .warning, message, none, none⟩]
  { record with diagnostics, status := statusFor diagnostics false }

/-- A request leaves the table without an answer. -/
def leave (ref : Nat) (departure : Departure) (message : String) : McumgrSmpParser :=
  { p.change ref (markRequestUnmatched message) with
    departed := p.departed ++ [(ref, departure)] }

/-- The loop goes from the last request to the first. -/
def expirePendingRequests (now : Int) : McumgrSmpParser :=
  let expired := p.pendingRequests.filter fun pending => pending.expiresAt ≤ now
  let p := { p with
    pendingRequests := p.pendingRequests.filter fun pending => now < pending.expiresAt }
  expired.foldr (fun pending p => p.leave pending.record .expired
    "SMP request timed out before a matching response") p

/-- The loop that evicts the oldest requests. -/
def evict : Nat → McumgrSmpParser → McumgrSmpParser
  | 0, p => p
  | fuel + 1, p =>
    if DEFAULT_SMP_MAX_PENDING_REQUESTS < p.pendingRequests.length then
      match p.pendingRequests with
      | [] => p
      | evicted :: rest =>
        evict fuel (leave { p with pendingRequests := rest } evicted.record .evicted
          "Request correlation table limit reached")
    else p

/-- Whether a pending request is the one that a response answers. -/
def answers (record : SmpRecord) (header : SmpHeader) (pending : PendingRequest) : Bool :=
  match p.records[pending.record]? with
  | none => false
  | some request =>
    request.direction ≠ record.direction ∧ pending.expectedOp = header.op ∧
      request.header.map (·.sequence) = some header.sequence ∧
      request.header.map (·.group) = some header.group ∧
      request.header.map (·.command) = some header.command

def orphanResponse (record : SmpRecord) : SmpRecord :=
  let diagnostics := record.diagnostics ++ [⟨"smp.transaction.orphan-response", .warning,
    "No matching outstanding SMP request was found", none, none⟩]
  { record with
    diagnostics, status := statusFor diagnostics (record.status = .pending) }

/-- `correlate` of the record at `ref`. -/
def correlate (ref : Nat) (record : SmpRecord) : McumgrSmpParser :=
  match record.header with
  | none => p
  | some header =>
    let p := p.expirePendingRequests record.timestamp
    match expectedResponseOp header.op with
    | some expectedOp =>
      let p := p.change ref fun record =>
        if record.status = .ok then { record with status := .pending } else record
      let p := { p with
        pendingRequests := p.pendingRequests ++ [PendingRequest.mk ref expectedOp
          (record.timestamp + DEFAULT_SMP_REQUEST_TIMEOUT_MS)]
        admitted := p.admitted ++ [ref] }
      p.evict p.pendingRequests.length
    | none =>
      if header.requestResponse ≠ .response then p
      else
        match p.pendingRequests.find? (p.answers record header) with
        | none => p.change ref orphanResponse
        | some pending =>
          match p.records[pending.record]? with
          | none => p
          | some request =>
            let rttMs := max 0 (record.timestamp - request.timestamp)
            let p := { p with
              pendingRequests := p.pendingRequests.erase pending
              departed := p.departed ++ [(pending.record, Departure.answered ref)] }
            let p := p.change pending.record fun request =>
              { request with
                responseId := some record.id
                rttMs := some rttMs
                status := statusFor request.diagnostics false }
            p.change ref fun record =>
              { record with requestId := some request.id, rttMs := some rttMs }

/-! ## Messages -/

def messageRecord (message : Uint8Array) (context : TransportContext) (packetOffset : Nat) :
    SmpRecord :=
  let header := readHeader message
  let payload := message.drop SMP_HEADER_BYTES
  let decoded := if payload.length = 0 then none else some (runtime.decodeBoundedSmpCbor payload)
  let cbor := match decoded with
    | some (.ok value) => some value
    | _ => none
  let cborDiagnostics := match decoded with
    | some (.error reason) =>
      [⟨"smp.cbor.invalid", if 64 ≤ header.group then .warning else .error,
        s!"CBOR decode failed: {reason}", some SMP_HEADER_BYTES, some payload.length⟩]
    | _ => []
  let remoteError := describeRemoteError runtime cbor
  let remoteDiagnostics := match remoteError with
    | some text =>
      [⟨"smp.remote-error", .error, text, some SMP_HEADER_BYTES, some payload.length⟩]
    | none => []
  let diagnostics := context.diagnostics ++
    headerDiagnostics (message.getD 0 0).toNat header ++ cborDiagnostics ++ remoteDiagnostics
  let direction := context.direction.text
  let operation := header.opName
  let group := header.groupName
  let command := header.commandName
  let sequence := header.sequence
  let remote := match remoteError with
    | some text => s!" · {text}"
    | none => ""
  { id := 0
    direction := context.direction
    timestamp := context.timestamp
    captureSeq := context.captureSeq
    data := message
    length := message.length
    offset := context.offset + packetOffset
    endOffset := context.offset + packetOffset + message.length
    status := statusFor diagnostics false
    summary := s!"{direction} {operation} · {group}/{command} · seq {sequence}{remote}"
    diagnostics
    transport := p.config.transport
    crcStatus := context.crcStatus
    transportData := context.transportData
    header := some header
    cbor
    requestId := none
    responseId := none
    rttMs := none
    ranges := ⟨context.transportData.map fun data => ⟨0, data.length⟩,
      some ⟨0, SMP_HEADER_BYTES⟩, some ⟨SMP_HEADER_BYTES, payload.length⟩⟩ }

def decodeMessage (message : Uint8Array) (context : TransportContext) (packetOffset : Nat) :
    McumgrSmpParser × Nat :=
  let record := { p.messageRecord runtime message context packetOffset with
    id := p.nextRecordNumber }
  let (p, ref) := p.create record
  if context.crcStatus ≠ .invalid ∧ !context.diagnostics.any (·.severity = .error) then
    (p.correlate ref record, ref)
  else (p, ref)

def paddingWarning (packetOffset length : Nat) (record : SmpRecord) : SmpRecord :=
  let diagnostics := record.diagnostics ++ [⟨"smp.packet.padding", .warning,
    "SMP multi-message alignment padding is non-zero", some packetOffset, some length⟩]
  { record with diagnostics, status := statusFor diagnostics (record.status = .pending) }

/-- The loop of `decodeTransportPacket`; a message has a header at least, so that it runs no more
often than the packet has bytes. -/
def decodeFrom (packet : Uint8Array) (context : TransportContext) :
    Nat → Nat → McumgrSmpParser → McumgrSmpParser × List Nat
  | 0, _, p => (p, [])
  | fuel + 1, packetOffset, p =>
    if packet.length ≤ packetOffset then (p, [])
    else if packet.length - packetOffset < SMP_HEADER_BYTES then
      let count := packet.length - packetOffset
      let (p, ref) := p.transportErrorRecord context.direction context.timestamp
        context.captureSeq (context.offset + packetOffset) (packet.drop packetOffset)
        "smp.packet.trailing-bytes"
        s!"SMP packet ends with {count} byte(s), shorter than a header" .error
      (p, [ref])
    else
      let messageLength := SMP_HEADER_BYTES + readU16 packet (packetOffset + 2)
      if p.config.maxPacketBytes < messageLength ∨
          packet.length < packetOffset + messageLength then
        let (p, ref) := p.transportErrorRecord context.direction context.timestamp
          context.captureSeq (context.offset + packetOffset) (packet.drop packetOffset)
          "smp.packet.length"
          s!"SMP message length {messageLength} exceeds the available or configured packet length"
          .error
        (p, [ref])
      else
        let message := packet.subarray packetOffset (packetOffset + messageLength)
        let (p, ref) := p.decodeMessage runtime message context packetOffset
        let packetOffset := packetOffset + messageLength
        let aligned := min packet.length ((packetOffset + 3) / 4 * 4)
        let padding := packet.subarray packetOffset aligned
        let p := if padding.any (· ≠ 0) then
            p.change ref (paddingWarning packetOffset padding.length)
          else p
        let (p, refs) := decodeFrom packet context fuel aligned p
        (p, ref :: refs)

def decodeTransportPacket (packet : Uint8Array) (context : TransportContext) :
    McumgrSmpParser × List Nat :=
  decodeFrom runtime packet context packet.length 0 p

/-! ## Raw UART -/

def consumeRawBytes (state : DirectionState) (count : Nat) : DirectionState :=
  let state := { state with
    rawBuffer := state.rawBuffer.drop count
    rawOffset := state.rawOffset + count }
  if state.rawBuffer.length = 0 then
    { state with rawCaptureSeq := none, rawLastTimestamp := 0, rawSegments := [] }
  else
    let rawSegments := state.rawSegments.dropWhile (·.endOffset ≤ state.rawOffset)
    match rawSegments.head? with
    | none => { state with rawSegments }
    | some segment =>
      { state with
        rawSegments
        rawTimestamp := segment.timestamp
        rawCaptureSeq := segment.captureSeq
        rawLastTimestamp := (rawSegments.getLast?.map (·.timestamp)).getD segment.timestamp }

def isPlausibleRawHeader (bytes : Uint8Array) (maxPacketBytes : Nat) : Bool :=
  if bytes.length < SMP_HEADER_BYTES then false
  else
    let byte0 := (bytes.getD 0 0).toNat
    if byte0 / 32 ≠ 0 ∨ 3 < byte0 % 8 then false
    else
      let messageLength := SMP_HEADER_BYTES + readU16 bytes 2
      decide (SMP_HEADER_BYTES ≤ messageLength) && decide (messageLength ≤ maxPacketBytes)

def findPlausibleRawHeader (bytes : Uint8Array) (maxPacketBytes start : Nat) : Option Nat :=
  (List.range' start (bytes.length + 1 - SMP_HEADER_BYTES - start)).find? fun index =>
    isPlausibleRawHeader (bytes.drop index) maxPacketBytes

/-- How many bytes in front of the buffer are noise. -/
def rawNoise (bytes : Uint8Array) (maxPacketBytes : Nat) : Nat :=
  match findPlausibleRawHeader bytes maxPacketBytes 1 with
  | some next => next
  | none => max 1 (bytes.length - 7)

/-- The loop of `feedRaw`, which takes a byte at least at each turn. -/
def rawLoop (direction : Direction) : Nat → McumgrSmpParser → McumgrSmpParser × List Nat
  | 0, p => (p, [])
  | fuel + 1, p =>
    let state := p.state direction
    if state.rawBuffer.length < SMP_HEADER_BYTES then (p, [])
    else if !isPlausibleRawHeader state.rawBuffer p.config.maxPacketBytes then
      let discard := rawNoise state.rawBuffer p.config.maxPacketBytes
      let (p, ref) := p.transportErrorRecord direction state.rawTimestamp state.rawCaptureSeq
        state.rawOffset (state.rawBuffer.take discard) "smp.raw.resync"
        s!"Raw UART discarded {discard} byte(s) while searching for an SMP header" .warning
      let (p, refs) := rawLoop direction fuel
        (p.setState direction (consumeRawBytes state discard))
      (p, ref :: refs)
    else
      let messageLength := SMP_HEADER_BYTES + readU16 state.rawBuffer 2
      if state.rawBuffer.length < messageLength then (p, [])
      else
        let message := state.rawBuffer.take messageLength
        let context : TransportContext :=
          ⟨direction, state.rawTimestamp, state.rawCaptureSeq, state.rawOffset, some message,
            .notApplicable, []⟩
        let p := p.setState direction (consumeRawBytes state messageLength)
        let (p, decoded) := p.decodeTransportPacket runtime message context
        let (p, refs) := rawLoop direction fuel p
        (p, decoded ++ refs)

def feedRaw (chunk : SmpTrafficChunk) (chunkOffset : Nat) : McumgrSmpParser × List Nat :=
  let state := p.state chunk.direction
  let state := if state.rawBuffer.length = 0 then
      { state with
        rawOffset := chunkOffset
        rawTimestamp := chunk.timestamp
        rawCaptureSeq := chunk.captureSeq }
    else state
  let state := { state with
    rawSegments := state.rawSegments ++
      [⟨chunkOffset + chunk.data.length, chunk.timestamp, chunk.captureSeq⟩]
    rawLastTimestamp := chunk.timestamp
    rawBuffer := state.rawBuffer ++ chunk.data }
  rawLoop runtime chunk.direction state.rawBuffer.length (p.setState chunk.direction state)

/-! ## Serial console -/

inductive MarkerKind
  | initial
  | continuation
  deriving DecidableEq

def SMP_CONSOLE_INITIAL_MARKER : Uint8Array := [0x06, 0x09]
def SMP_CONSOLE_CONTINUATION_MARKER : Uint8Array := [0x04, 0x14]

/-- `findConsoleMarker`, from the index of the first byte that it is given. -/
def findConsoleMarkerFrom (index : Nat) : Uint8Array → Option (MarkerKind × Nat)
  | first :: second :: rest =>
    if [first, second] = SMP_CONSOLE_INITIAL_MARKER then some (.initial, index)
    else if [first, second] = SMP_CONSOLE_CONTINUATION_MARKER then some (.continuation, index)
    else findConsoleMarkerFrom (index + 1) (second :: rest)
  | _ => none

def findConsoleMarker (line : Uint8Array) : Option (MarkerKind × Nat) :=
  findConsoleMarkerFrom 0 line

def findConsoleInitialMarkerFrom (index : Nat) : Uint8Array → Option Nat
  | first :: second :: rest =>
    if [first, second] = SMP_CONSOLE_INITIAL_MARKER then some index
    else findConsoleInitialMarkerFrom (index + 1) (second :: rest)
  | _ => none

def findConsoleInitialMarker (line : Uint8Array) (start : Nat) : Option Nat :=
  findConsoleInitialMarkerFrom start (line.drop start)

def findLastMarkerPrefix (bytes : Uint8Array) : Uint8Array :=
  match bytes.getLast? with
  | some last => if last = 0x06 ∨ last = 0x04 then [last] else []
  | none => []

def hasPotentialConsoleMarker (bytes : Uint8Array) : Bool :=
  (findConsoleMarker bytes).isSome || decide (0 < (findLastMarkerPrefix bytes).length)

/-- A line of the console on its way through the parser. -/
structure ConsoleLine where
  line : Uint8Array
  wireLine : Uint8Array
  offset : Nat
  timestamp : Int
  captureSeq : Option Nat
  now : Int

def setConsole (d : Direction) (console : Option ConsoleAssembly) : McumgrSmpParser :=
  p.setState d { p.state d with console }

/-- The record of an error in a line, from its marker on. -/
def lineError (d : Direction) (l : ConsoleLine) (markerIndex : Nat) (code message : String) :
    McumgrSmpParser × Nat :=
  p.transportErrorRecord d l.timestamp l.captureSeq (l.offset + markerIndex) l.wireLine code
    message .error

/-- A new packet breaks off the one before it. -/
def restart (d : Direction) (kind : MarkerKind) : McumgrSmpParser × List Nat :=
  match (p.state d).console with
  | none => (p, [])
  | some console =>
    if kind = .initial then
      let (p, ref) := p.transportErrorRecord d console.timestamp console.captureSeq console.offset
        console.wireParts.flatten "smp.console.restarted"
        "A new Serial Console packet started before the previous packet completed" .error
      (p.setConsole d none, [ref])
    else (p, [])

/-- The end of `consumeConsoleLine`: a packet whose bytes are all there is decoded. -/
def finishConsole (d : Direction) : McumgrSmpParser × List Nat :=
  match (p.state d).console with
  | none => (p, [])
  | some assembly =>
    if assembly.body.length < assembly.expectedBytes then (p, [])
    else
      let extraBytes := assembly.body.length - assembly.expectedBytes
      let framed := assembly.body.take assembly.expectedBytes
      let packet := framed.take (framed.length - 2)
      let expectedCrc := readU16 framed (framed.length - 2)
      let actualCrc := crc16Xmodem packet
      let expected := hex16 expectedCrc
      let calculated := hex16 actualCrc
      let diagnostics : List SmpDiagnostic :=
        (if 0 < extraBytes then
          [⟨"smp.console.trailing-bytes", .error,
            s!"Serial Console packet contains {extraBytes} trailing decoded byte(s)", none, none⟩]
        else []) ++
        (if actualCrc ≠ expectedCrc then
          [⟨"smp.console.crc", .error,
            s!"CRC16-XMODEM mismatch (expected 0x{expected}, calculated 0x{calculated})",
            none, none⟩]
        else [])
      (p.setConsole d none).decodeTransportPacket runtime packet
        ⟨d, assembly.timestamp, assembly.captureSeq, assembly.offset,
          some assembly.wireParts.flatten, if actualCrc = expectedCrc then .valid else .invalid,
          diagnostics⟩

/-- `consumeConsoleLine` behind a marker, up to where it goes on to `recoverNextConsoleInitial`,
as the last value says. -/
def consumeFragment (d : Direction) (l : ConsoleLine) (kind : MarkerKind) (index : Nat) :
    McumgrSmpParser × List Nat × Bool :=
  let (p, restarted) := p.restart d kind
  let encoded := (asciiDecode (l.line.drop (index + 2))).filter fun c => !isSpace c
  match base64ToBytes encoded with
  | none =>
    let (p, ref) := p.lineError d l index "smp.console.base64"
      "Serial Console fragment contains invalid Base64"
    (p.setConsole d none, restarted ++ [ref], true)
  | some fragment =>
    match kind with
    | .initial =>
      if fragment.length < 2 then
        let (p, ref) := p.lineError d l index "smp.console.length-missing"
          "Serial Console initial fragment does not contain the packet length"
        (p, restarted ++ [ref], true)
      else
        let expectedBytes := readU16 fragment 0
        if expectedBytes < SMP_HEADER_BYTES + 2 ∨
            p.config.maxPacketBytes + 2 < expectedBytes then
          let (p, ref) := p.lineError d l index "smp.console.length-invalid"
            s!"Serial Console packet length {expectedBytes} is outside the configured limit"
          (p, restarted ++ [ref], true)
        else
          let p := p.setConsole d (some
            ⟨expectedBytes, fragment.drop 2, [l.wireLine], l.timestamp, l.captureSeq,
              l.offset + index, l.now⟩)
          let (p, refs) := p.finishConsole runtime d
          (p, restarted ++ refs, false)
    | .continuation =>
      match (p.state d).console with
      | none =>
        let (p, ref) := p.lineError d l index "smp.console.orphan-continuation"
          "Serial Console continuation fragment has no initial fragment"
        (p, restarted ++ [ref], true)
      | some console =>
        let p := p.setConsole d (some { console with
          body := console.body ++ fragment
          wireParts := console.wireParts ++ [l.wireLine]
          lastTimestamp := l.now })
        let (p, refs) := p.finishConsole runtime d
        (p, restarted ++ refs, false)

/-- `consumeConsoleLine`, where `budget` is what `recoveryDepth` leaves of 32. -/
def consumeConsoleLine (d : Direction) :
    Nat → ConsoleLine → McumgrSmpParser → McumgrSmpParser × List Nat
  | budget, l, p =>
    match findConsoleMarker l.line with
    | none => (p, [])
    | some (kind, index) =>
      let (p, refs, recovers) := p.consumeFragment runtime d l kind index
      match budget with
      | 0 => (p, refs)
      | budget + 1 =>
        match findConsoleInitialMarker l.line (index + 2) with
        | none => (p, refs)
        | some next =>
          if recovers then
            let (p, recovered) := consumeConsoleLine d budget
              { l with
                line := l.line.drop next
                wireLine := l.wireLine.drop next
                offset := l.offset + next } p
            (p, refs ++ recovered)
          else (p, refs)

/-- The loop of `feedConsole`, which takes a line at each turn. -/
def consoleLoop (chunk : SmpTrafficChunk) :
    Nat → McumgrSmpParser → McumgrSmpParser × List Nat
  | 0, p => (p, [])
  | fuel + 1, p =>
    let state := p.state chunk.direction
    match state.lineBuffer.idxOf? 0x0A with
    | none => (p, [])
    | some newline =>
      let line := state.lineBuffer.take newline
      let l : ConsoleLine := {
        line := if line.getLast? = some 0x0D then line.dropLast else line
        wireLine := state.lineBuffer.take (newline + 1)
        offset := state.lineBufferOffset
        timestamp := state.lineTimestamp
        captureSeq := state.lineCaptureSeq
        now := chunk.timestamp }
      let p := p.setState chunk.direction { state with
        lineBuffer := state.lineBuffer.drop (newline + 1)
        lineBufferOffset := state.lineBufferOffset + newline + 1
        lineTimestamp := chunk.timestamp
        lineCaptureSeq := chunk.captureSeq }
      let (p, consumed) := consumeConsoleLine runtime chunk.direction 32 l p
      let (p, refs) := consoleLoop chunk fuel p
      (p, consumed ++ refs)

def lineOffsetForChunk (chunkOffset chunkLength discarded : Nat) : Nat :=
  chunkOffset + chunkLength - discarded

def maxBufferedLine (config : McumgrSmpParserConfig) : Nat := max 8192 (config.maxPacketBytes * 2)

/-- The end of `feedConsole`: a line that is too long is given up. -/
def limitLine (chunk : SmpTrafficChunk) (chunkOffset : Nat) : McumgrSmpParser × List Nat :=
  let state := p.state chunk.direction
  if maxBufferedLine p.config < state.lineBuffer.length then
    let marker := findLastMarkerPrefix state.lineBuffer
    let discarded := state.lineBuffer.take (state.lineBuffer.length - marker.length)
    let p := p.setState chunk.direction { state with
      lineBuffer := marker
      lineBufferOffset := state.inputOffset - marker.length }
    if 0 < discarded.length then
      let (p, ref) := p.transportErrorRecord chunk.direction state.lineTimestamp
        state.lineCaptureSeq (lineOffsetForChunk chunkOffset chunk.data.length discarded.length)
        discarded "smp.console.line-overflow"
        "Serial Console line exceeded the parser limit" .error
      (p, [ref])
    else (p, [])
  else (p, [])

def feedConsole (chunk : SmpTrafficChunk) (chunkOffset : Nat) : McumgrSmpParser × List Nat :=
  let state := p.state chunk.direction
  let state := if state.lineBuffer.length = 0 then
      { state with
        lineBufferOffset := chunkOffset
        lineTimestamp := chunk.timestamp
        lineCaptureSeq := chunk.captureSeq }
    else state
  let state := { state with
    lineLastTimestamp := chunk.timestamp
    lineBuffer := state.lineBuffer ++ chunk.data }
  let (p, refs) := consoleLoop runtime chunk state.lineBuffer.length
    (p.setState chunk.direction state)
  let (p, overflow) := p.limitLine chunk chunkOffset
  (p, refs ++ overflow)

/-! ## Expiry -/

/-- When the console packet or line of a direction has last grown. -/
def consoleLastTimestamp (state : DirectionState) : Option Int :=
  if hasPotentialConsoleMarker state.lineBuffer then some state.lineLastTimestamp
  else state.console.map (·.lastTimestamp)

def flushConsole (d : Direction) (now : Int) : McumgrSmpParser × List Nat :=
  let state := p.state d
  let partialLine := hasPotentialConsoleMarker state.lineBuffer
  match consoleLastTimestamp state with
  | none => (p, [])
  | some last =>
    if p.config.reassemblyTimeoutMs ≤ now - last then
      let wire := match state.console with
        | some console =>
          (if partialLine then console.wireParts ++ [state.lineBuffer]
            else console.wireParts).flatten
        | none => state.lineBuffer
      let (p, ref) := p.transportErrorRecord d
        ((state.console.map (·.timestamp)).getD state.lineTimestamp)
        ((state.console.bind (·.captureSeq)).or state.lineCaptureSeq)
        ((state.console.map (·.offset)).getD state.lineBufferOffset)
        wire "smp.console.timeout" "Serial Console packet reassembly timed out" .error
      let state := { state with console := none }
      (p.setState d (if partialLine then
          { state with lineBuffer := [], lineCaptureSeq := none, lineLastTimestamp := 0 }
        else state), [ref])
    else (p, [])

def flushRaw (d : Direction) (now : Int) : McumgrSmpParser × List Nat :=
  let state := p.state d
  if 0 < state.rawBuffer.length ∧ p.config.reassemblyTimeoutMs ≤ now - state.rawLastTimestamp then
    let (p, ref) := p.transportErrorRecord d state.rawTimestamp state.rawCaptureSeq
      state.rawOffset state.rawBuffer "smp.raw.timeout" "Raw UART packet reassembly timed out"
      .error
    (p.setState d { state with
      rawBuffer := [], rawCaptureSeq := none, rawLastTimestamp := 0, rawSegments := [] }, [ref])
  else (p, [])

def flushExpired (now : Int) : McumgrSmpParser × List Nat :=
  let (p, a) := p.flushConsole .TX now
  let (p, b) := p.flushRaw .TX now
  let (p, c) := p.flushConsole .RX now
  let (p, d) := p.flushRaw .RX now
  (p.expirePendingRequests now, a ++ b ++ c ++ d)

def earlierTimestamp (current : Option Int) (candidate : Int) : Option Int :=
  match current with
  | none => some candidate
  | some current => if candidate < current then some candidate else some current

def nextExpiryTimestamp : Option Int :=
  let ofState (next : Option Int) (state : DirectionState) : Option Int :=
    let next := match consoleLastTimestamp state with
      | some last => earlierTimestamp next (last + p.config.reassemblyTimeoutMs)
      | none => next
    if 0 < state.rawBuffer.length then
      earlierTimestamp next (state.rawLastTimestamp + p.config.reassemblyTimeoutMs)
    else next
  p.pendingRequests.foldl (fun next pending => earlierTimestamp next pending.expiresAt)
    (ofState (ofState none p.TX) p.RX)

/-! ## Calls -/

def feed (chunk : SmpTrafficChunk) : McumgrSmpParser × List Nat :=
  if chunk.data.length = 0 then p.flushExpired chunk.timestamp
  else
    let (p, expired) := p.flushExpired chunk.timestamp
    let state := p.state chunk.direction
    let chunkOffset := state.inputOffset
    let p := p.setState chunk.direction
      { state with inputOffset := chunkOffset + chunk.data.length }
    let (p, decoded) := match p.config.transport with
      | .serialConsole => p.feedConsole runtime chunk chunkOffset
      | .rawUart => p.feedRaw runtime chunk chunkOffset
    (p, expired ++ decoded)

def reset : McumgrSmpParser := .new p.config

/-- The public `diagnostic`, whose severity is a warning unless another one is given. -/
def diagnostic (direction : Direction) (timestamp : Int) (captureSeq : Option Nat)
    (code message : String) (severity : Option Severity) (data : Option Uint8Array) :
    McumgrSmpParser × Nat :=
  p.transportErrorRecord direction timestamp captureSeq (p.state direction).inputOffset
    (data.getD []) code message (severity.getD .warning)

end McumgrSmpParser

end bbcom.smp
