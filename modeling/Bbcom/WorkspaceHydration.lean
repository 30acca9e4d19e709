-- The page readers of the workspace service (`service.rs`): frames from a sequence number on,
-- AI messages and waveform samples from an offset on.
import Bbcom.Lib.Paging
import Bbcom.WorkspaceService

open bbcom.js bbcom.json bbcom.contracts

namespace bbcom.workspace

def MAX_HYDRATE_PAGE_FRAMES : Nat := 2048
def MAX_HYDRATE_PAGE_BYTES : Nat := 4 * 1024 * 1024
def MAX_HYDRATE_PAGE_AI_MESSAGES : Nat := 256
def MAX_HYDRATE_PAGE_WAVEFORM_SAMPLES : Nat := 4096

/-- `usize::saturating_add`. -/
def saturatingAdd (a b : Nat) : Nat := min (a + b) (2 ^ 64 - 1)

theorem saturatingAdd_le {a b limit : Nat} (hlimit : limit < 2 ^ 64 - 1) :
    saturatingAdd a b ≤ limit ↔ a + b ≤ limit := by
  unfold saturatingAdd
  omega

/-- The check in front of each page. -/
def ensurePageLimit (field : String) (limit requestedLimit : Nat) : Result Unit :=
  refuseIf (requestedLimit = 0 ∨ requestedLimit > limit) (.limitExceeded field limit requestedLimit)

/-! ## Frames -/

structure WorkspaceFrame where
  seq : Nat
  id : String
  direction : Direction
  timestampMs : Nat
  data : Uint8Array
  txStatus : Option String
  requestedBytes : Option Nat
  omittedBytes : Option Nat
  deriving DecidableEq

structure WorkspaceFramePage where
  sessionId : String
  frames : List WorkspaceFrame
  nextSeq : Option Nat
  deriving DecidableEq

def FrameRow.frame (row : FrameRow) : WorkspaceFrame where
  seq := row.seq
  id := row.id
  direction := row.direction
  timestampMs := row.timestampMs
  data := row.data
  txStatus := row.txStatus
  requestedBytes := row.requestedBytes
  omittedBytes := row.omittedBytes

/-- `ORDER BY seq`. -/
def Database.orderedFrames (db : Database) (sessionId : String) : List FrameRow :=
  (db.sessionFrames sessionId).mergeSort fun a b => decide (a.seq ≤ b.seq)

/-- The first frame of a page stands on it whatever its size. -/
def framePageFull (requestedLimit : Nat) (frames : List WorkspaceFrame) (pageBytes : Nat)
    (row : FrameRow) : Bool :=
  frames.length = requestedLimit ||
    (!frames.isEmpty && decide (saturatingAdd pageBytes row.data.length > MAX_HYDRATE_PAGE_BYTES))

def hydrateFrames (db : Database) (sessionId : String) (fromSeq requestedLimit : Nat) :
    Result WorkspaceFramePage := do
  validateIdentifier sessionId "sessionId"
  ensureSessionExists db sessionId
  ensurePageLimit "pageFrames" MAX_HYDRATE_PAGE_FRAMES requestedLimit
  let fromSeq ← i64OfNat fromSeq "fromSeq"
  let rows := ((db.orderedFrames sessionId).filter (fromSeq ≤ ·.seq)).take (requestedLimit + 1)
  let (frames, next) ← paging.fill (framePageFull requestedLimit) (·.data.length)
    (fun row => .ok row.frame) [] 0 rows
  pure { sessionId, frames, nextSeq := next.map FrameRow.seq }

/-! ## AI messages -/

structure WorkspaceAiMessagePage where
  messages : List WorkspaceAiMessage
  nextOffset : Option Nat

def AiMessageRow.message (row : AiMessageRow) : WorkspaceAiMessage where
  id := row.id
  role := row.role
  content := row.content
  timestampMs := UInt64.ofNat row.timestampMs

/-- `ORDER BY position`. -/
def Database.orderedAiMessages (db : Database) (sessionId : String) : List AiMessageRow :=
  (db.sessionAiMessages sessionId).mergeSort fun a b => decide (a.position ≤ b.position)

def aiPageFull (requestedLimit : Nat) (messages : List WorkspaceAiMessage) (pageBytes : Nat)
    (row : AiMessageRow) : Bool :=
  messages.length = requestedLimit ||
    decide (saturatingAdd pageBytes (byteLength row.content) > MAX_HYDRATE_PAGE_BYTES)

def hydrateAiMessages (db : Database) (sessionId : String) (offset requestedLimit : Nat) :
    Result WorkspaceAiMessagePage := do
  validateIdentifier sessionId "sessionId"
  ensureSessionExists db sessionId
  ensurePageLimit "pageAiMessages" MAX_HYDRATE_PAGE_AI_MESSAGES requestedLimit
  let limit ← i64OfNat (requestedLimit + 1) "limit"
  let offset ← i64OfNat offset "offset"
  let rows := ((db.orderedAiMessages sessionId).drop offset).take limit
  let (messages, next) ← paging.fill (aiPageFull requestedLimit) (byteLength ·.content)
    (fun row => .ok row.message) [] 0 rows
  pure { messages, nextOffset := next.map fun _ => saturatingAdd offset messages.length }

/-! ## Waveform -/

structure WorkspaceWaveformPage where
  channels : List (WorkspaceWaveformChannel Json)
  samples : List (WorkspaceWaveformSample F64)
  nextOffset : Option Nat

def waveformChannelIndex (value : UInt8) : Result UInt8 :=
  if value > 7 then .error (.corrupt "waveform_channel") else .ok value

/-- `fromStr` is `serde_json::from_str`. -/
def parseDocumentJson (fromStr : List Char → Option Json) (value : List Char) : Result Json :=
  match fromStr value with
  | none => .error (.corrupt "document_json")
  | some parsed =>
    if hasForbiddenKeys parsed then .error (.corrupt "forbidden_document_field") else .ok parsed

def queryWaveformChannels (fromStr : List Char → Option Json) (db : Database)
    (sessionId : String) : Result (List (WorkspaceWaveformChannel Json)) :=
  let rows := (db.waveformChannels.filter (·.sessionId = sessionId)).mergeSort
    fun a b => decide (a.channelIndex ≤ b.channelIndex)
  rows.mapM fun row => do
    let channelIndex ← waveformChannelIndex row.channelIndex
    let config ← parseDocumentJson fromStr row.configJson
    pure { channelIndex, config }

/-- `ORDER BY seq, channel_index`. -/
def sampleOrder (a b : WaveformSampleRow) : Bool :=
  decide (a.seq < b.seq) || (a.seq = b.seq && decide (a.channelIndex ≤ b.channelIndex))

/-- The rows of the newest sequence numbers, in their order. -/
def Database.newestSamples (db : Database) (sessionId : String) : List WaveformSampleRow :=
  let newest := retention.newest MAX_WAVEFORM_SAMPLE_GROUPS
    ((db.sessionSamples sessionId).map WaveformSampleRow.seq)
  ((db.sessionSamples sessionId).filter (newest.contains ·.seq)).mergeSort sampleOrder

def WaveformSampleRow.sample (row : WaveformSampleRow) : WorkspaceWaveformSample F64 where
  channelIndex := row.channelIndex
  seq := UInt64.ofNat row.seq
  timestampMs := UInt64.ofNat row.timestampMs
  value := row.value

def readSample (row : WaveformSampleRow) : Result (WorkspaceWaveformSample F64) := do
  refuseIf (row.value.isFinite = false) (.corrupt "waveform_value")
  let _ ← waveformChannelIndex row.channelIndex
  pure row.sample

def hydrateWaveform (fromStr : List Char → Option Json) (db : Database) (sessionId : String)
    (offset requestedLimit : Nat) : Result WorkspaceWaveformPage := do
  validateIdentifier sessionId "sessionId"
  ensureSessionExists db sessionId
  ensurePageLimit "pageWaveformSamples" MAX_HYDRATE_PAGE_WAVEFORM_SAMPLES requestedLimit
  let channels ← queryWaveformChannels fromStr db sessionId
  let limit ← i64OfNat (requestedLimit + 1) "limit"
  let offset ← i64OfNat offset "offset"
  let rows := ((db.newestSamples sessionId).drop offset).take limit
  let (samples, next) ← paging.fill
    (fun (samples : List (WorkspaceWaveformSample F64)) _ (_ : WaveformSampleRow) =>
      decide (samples.length = requestedLimit)) (fun _ => 0) readSample [] 0 rows
  pure
    { channels, samples, nextOffset := next.map fun _ => saturatingAdd offset samples.length }

end bbcom.workspace
