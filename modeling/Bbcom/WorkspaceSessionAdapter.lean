-- The session adapter (`workspace-session-adapter.ts` and the files beside it): what the
-- renderer makes of the stored rows of a session, and which rows it refuses.
import Bbcom.CaptureApplication

open bbcom.js bbcom.serial bbcom.base64 bbcom.ordered_map
open bbcom.contracts (MAX_WORKSPACE_FRAMES MAX_WORKSPACE_FRAME_BYTES MAX_WORKSPACE_CAPTURE_BYTES
  MAX_WORKSPACE_AI_MESSAGES MAX_WORKSPACE_AI_MESSAGE_BYTES MAX_WORKSPACE_AI_BYTES)
open bbcom.capture (validateWorkspaceIdentifier validNonNegativeInteger)

namespace bbcom.session_adapter

/-! ## The checks -/

inductive WorkspaceAdapterError
  | validation (field : String)
  | limit (field : String) (limit actual : Nat)
  /-- What a port has rejected with. -/
  | port
  deriving DecidableEq

abbrev Adapted := Except WorkspaceAdapterError

def validUnless (refused : Prop) [Decidable refused] (field : String) : Adapted Unit :=
  if refused then .error (.validation field) else .ok ()

def orInvalid {α : Type} (value : Option α) (field : String) : Adapted α :=
  match value with
  | some value => .ok value
  | none => .error (.validation field)

def assertLimit (field : String) (limit actual : Nat) : Adapted Unit :=
  if actual > limit then .error (.limit field limit actual) else .ok ()

/-- `otherKeys` are the keys of an object that its contract does not name. -/
def assertExactKeys (otherKeys : List String) (field : String) : Adapted Unit :=
  validUnless (otherKeys ≠ []) field

def assertUniqueIds (ids : List String) (field : String) : Adapted Unit :=
  validUnless (¬ids.Nodup) field

def nonNegativeInteger (value : JsNumber) (field : String) : Adapted Nat :=
  orInvalid (validNonNegativeInteger value) field

def optionalNonNegativeInteger (value : Option JsNumber) (field : String) :
    Adapted (Option Nat) :=
  match value with
  | none => .ok none
  | some value => (nonNegativeInteger value field).map some

def boundedInteger (value : JsNumber) (min max : Nat) (field : String) : Adapted Nat :=
  orInvalid (integerBetween value min max) field

def workspaceIdentifier (value field : String) : Adapted String :=
  orInvalid (validateWorkspaceIdentifier value) field

/-! ## Frames -/

/-- A frame as an answer carries it. `data` is `none` where it is not an array. -/
structure WorkspaceHydratedFrame where
  seq : JsNumber
  id : String
  direction : String
  timestampMs : JsNumber
  data : Option (List JsNumber) := some []
  dataB64 : Option String := none
  txStatus : Option String := none
  requestedBytes : Option JsNumber := none
  omittedBytes : Option JsNumber := none
  otherKeys : List String := []
  deriving DecidableEq

def byteOf (value : JsNumber) : Option UInt8 := (integerBetween value 0 255).map UInt8.ofNat

def decodeHydratedFrameData (frame : WorkspaceHydratedFrame) : Adapted Uint8Array :=
  match frame.dataB64 with
  | some dataB64 => do
    validUnless (frame.data.any fun data => 0 < data.length) "frame.data"
    orInvalid (base64ToBytes dataB64.toList) "frame.dataB64"
  | none => do
    let data ← orInvalid frame.data "frame.data"
    orInvalid (data.mapM byteOf) "frame.data"

def hydrateDirection (direction : String) : Adapted serial.Direction :=
  match direction with
  | "TX" => .ok .TX
  | "RX" => .ok .RX
  | _ => .error (.validation "frame.direction")

def hydrateTxStatus (txStatus : Option String) : Adapted (Option TxStatus) :=
  match txStatus with
  | none => .ok none
  | some "complete" => .ok (some .complete)
  | some "partial-unknown" => .ok (some .partialUnknown)
  | some _ => .error (.validation "frame.txStatus")

def hydrateWorkspaceFrame (frame : WorkspaceHydratedFrame) : Adapted DataFrame := do
  assertExactKeys frame.otherKeys "frame"
  let captureSeq ← nonNegativeInteger frame.seq "frame.seq"
  let id ← workspaceIdentifier frame.id "frame.id"
  let direction ← hydrateDirection frame.direction
  let _ ← nonNegativeInteger frame.timestampMs "frame.timestampMs"
  let data ← decodeHydratedFrameData frame
  assertLimit "frameBytes" MAX_WORKSPACE_FRAME_BYTES data.length
  let txStatus ← hydrateTxStatus frame.txStatus
  let requestedBytes ← optionalNonNegativeInteger frame.requestedBytes "frame.requestedBytes"
  let _ ← optionalNonNegativeInteger frame.omittedBytes "frame.omittedBytes"
  validUnless (requestedBytes.any (· < data.length)) "frame.requestedBytes"
  validUnless (direction = .RX ∧ (txStatus.isSome ∨ requestedBytes.isSome)) "frame.txMetadata"
  pure
    { id
      direction
      timestamp := frame.timestampMs
      data
      captureSeq := some captureSeq
      origin := none
      contentVersion := none
      omittedBytes := frame.omittedBytes
      txStatus
      requestedBytes := frame.requestedBytes }

/-- The frames of a session, behind the one with the sequence number `previous`. -/
def hydrateFrames (previous : Int) : List WorkspaceHydratedFrame → Adapted (List DataFrame)
  | [] => .ok []
  | frame :: rest => do
    let sequence ← nonNegativeInteger frame.seq "frame.seq"
    validUnless (sequence ≤ previous) "frame.seq"
    let hydrated ← hydrateWorkspaceFrame frame
    let rest ← hydrateFrames sequence rest
    pure (hydrated :: rest)

/-! ## AI messages -/

structure WorkspaceAiMessage where
  id : String
  role : String
  content : String
  timestampMs : JsNumber
  otherKeys : List String := []
  deriving DecidableEq

structure AiChatMessage where
  id : String
  role : contracts.WorkspaceAiRole
  content : String
  timestamp : JsNumber
  deriving DecidableEq

def utf8ByteLength (text : String) : Nat := json.bytes text.toList

def hydrateRole (role : String) : Adapted contracts.WorkspaceAiRole :=
  match role with
  | "user" => .ok .user
  | "assistant" => .ok .assistant
  | _ => .error (.validation "aiMessage.role")

def projectAiMessage (message : WorkspaceAiMessage) : Adapted AiChatMessage := do
  validUnless (utf8ByteLength message.content > MAX_WORKSPACE_AI_MESSAGE_BYTES)
    "aiMessage.content"
  let role ← hydrateRole message.role
  let id ← workspaceIdentifier message.id "aiMessage.id"
  let _ ← nonNegativeInteger message.timestampMs "aiMessage.timestamp"
  pure { id, role, content := message.content, timestamp := message.timestampMs }

def projectAiMessages (messages : List WorkspaceAiMessage) : Adapted (List AiChatMessage) := do
  assertLimit "aiMessages" MAX_WORKSPACE_AI_MESSAGES messages.length
  let projected ← messages.mapM projectAiMessage
  assertUniqueIds (projected.map (·.id)) "aiMessage.id"
  assertLimit "aiMessageBytes" MAX_WORKSPACE_AI_BYTES
    (messages.map fun message => utf8ByteLength message.content).sum
  pure projected

def hydrateAiMessages (messages : List WorkspaceAiMessage) : Adapted (List AiChatMessage) := do
  messages.forM fun message => assertExactKeys message.otherKeys "aiMessage"
  projectAiMessages messages

/-! ## The waveform -/

/-- `C` is what a channel is configured with. -/
structure WorkspaceWaveformChannel (C : Type) where
  channelIndex : JsNumber
  config : C
  otherKeys : List String := []
  deriving DecidableEq

structure WorkspaceWaveformSample where
  channelIndex : JsNumber
  seq : JsNumber
  timestampMs : JsNumber
  value : JsNumber
  otherKeys : List String := []
  deriving DecidableEq

structure WaveformChannel (C : Type) where
  channelIndex : Nat
  config : C
  deriving DecidableEq

structure WaveformSample where
  channelIndex : Nat
  seq : Nat
  timestampMs : Nat
  value : JsNumber
  deriving DecidableEq

inductive WaveformSourceMode
  | text
  | register
  deriving DecidableEq

structure SessionWaveformFrameCursor where
  consumed : Nat
  lastFrameId : Option String
  deriving DecidableEq

structure WaveformPreferences where
  sourceMode : WaveformSourceMode
  frameCursor : Option SessionWaveformFrameCursor
  /-- The visibility that is stored for a channel. -/
  channelVisibility : OrderedMap JsNumber Bool
  deriving DecidableEq

/-- A key of a `Map`, which takes both zeros for one. -/
def mapKey : JsNumber → JsNumber
  | .negativeZero => .finite 0
  | number => number

def legacyWaveformFrameCursor (sourceMode : WaveformSourceMode) (frames : List DataFrame)
    (hasDurableSamples : Bool) : SessionWaveformFrameCursor :=
  if sourceMode = .register ∨ hasDurableSamples then
    { consumed := frames.length, lastFrameId := frames.getLast?.map (·.id) }
  else { consumed := frames.length + 1, lastFrameId := none }

/-! ## A session -/

/-- `D` is what a snapshot holds beside its id, and `F` what the session has of it. `P` are the
stored collections, and `K` those of the session. -/
structure SessionAdapter (D F P K C : Type) where
  /-- The checks and the fields of a snapshot, and what it says of the waveform. -/
  hydrateSnapshot : D → Adapted (F × WaveformPreferences)
  hydrateCollections : P → Adapted K
  assertSafeWorkspaceValue : String → C → Adapted Unit
  /-- A configuration with another `visible`. -/
  withVisible : C → Bool → C
  /-- `JSON.stringify`, on a channel. -/
  stringify : WorkspaceWaveformChannel C → String

structure WorkspaceSessionSnapshot (D : Type) where
  id : String
  fields : D
  deriving DecidableEq

structure WorkspaceSessionHydrationParts (P C : Type) where
  frames : List WorkspaceHydratedFrame
  collections : P
  aiMessages : List WorkspaceAiMessage
  waveformChannels : List (WorkspaceWaveformChannel C)
  waveformSamples : List WorkspaceWaveformSample
  deriving DecidableEq

structure SerialSession (F K : Type) where
  id : String
  fields : F
  frames : List DataFrame
  collections : K
  logAiMessages : List AiChatMessage
  deriving DecidableEq

structure HydratedWorkspaceSession (F K C : Type) where
  session : SerialSession F K
  channels : List (WaveformChannel C)
  samples : List WaveformSample
  frameCursor : SessionWaveformFrameCursor
  deriving DecidableEq

section

variable {D F P K C : Type} (adapter : SessionAdapter D F P K C)

def cloneChannels : Nat → List (WorkspaceWaveformChannel C) → Adapted (List (WaveformChannel C))
  | _, [] => .ok []
  | index, channel :: rest => do
    let field := s!"waveform.channels[{index}]"
    assertExactKeys channel.otherKeys field
    let channelIndex ← boundedInteger channel.channelIndex 0 7 field
    adapter.assertSafeWorkspaceValue (field ++ ".config") channel.config
    let rest ← cloneChannels (index + 1) rest
    pure ({ channelIndex, config := channel.config } :: rest)

/-- The samples of the channels `known`, behind those with the keys `seen`. -/
def cloneSamples (known : List Nat) (seen : List (Nat × Nat)) :
    List WorkspaceWaveformSample → Adapted (List WaveformSample)
  | [] => .ok []
  | sample :: rest => do
    assertExactKeys sample.otherKeys "waveform.sample"
    let channelIndex ← boundedInteger sample.channelIndex 0 7 "waveform.sample.channelIndex"
    validUnless (channelIndex ∉ known) "waveform.sample.channelIndex"
    let seq ← nonNegativeInteger sample.seq "waveform.seq"
    validUnless ((channelIndex, seq) ∈ seen) "waveform.sample.seq"
    validUnless (sample.value.isFinite = false) "waveform.value"
    let timestampMs ← nonNegativeInteger sample.timestampMs "waveform.timestampMs"
    let rest ← cloneSamples known ((channelIndex, seq) :: seen) rest
    pure ({ channelIndex, seq, timestampMs, value := sample.value } :: rest)

def cloneWaveformPayload (channelRows : List (WorkspaceWaveformChannel C))
    (sampleRows : List WorkspaceWaveformSample) :
    Adapted (List (WaveformChannel C) × List WaveformSample) := do
  let channels ← cloneChannels adapter 0 channelRows
  validUnless (¬(channels.map (·.channelIndex)).Nodup) "waveform.channels"
  let samples ← cloneSamples (channels.map (·.channelIndex)) [] sampleRows
  pure (channels, samples)

/-- A channel with the visibility that the preferences store for it. -/
def withStoredVisibility (preferences : WaveformPreferences)
    (channel : WorkspaceWaveformChannel C) : WorkspaceWaveformChannel C :=
  match preferences.channelVisibility.get (mapKey channel.channelIndex) with
  | none => channel
  | some visible =>
    { channelIndex := channel.channelIndex
      config := adapter.withVisible channel.config visible }

def hydrateWorkspaceSession (snapshot : WorkspaceSessionSnapshot D)
    (parts : WorkspaceSessionHydrationParts P C) : Adapted (HydratedWorkspaceSession F K C) := do
  parts.waveformChannels.forM fun channel =>
    adapter.assertSafeWorkspaceValue "waveformChannels" channel.config
  let id ← workspaceIdentifier snapshot.id "snapshot.id"
  let (fields, preferences) ← adapter.hydrateSnapshot snapshot.fields
  let collections ← adapter.hydrateCollections parts.collections
  let logAiMessages ← hydrateAiMessages parts.aiMessages
  let frames ← hydrateFrames (-1) parts.frames
  assertLimit "workspaceFrames" MAX_WORKSPACE_FRAMES frames.length
  assertLimit "workspaceCaptureBytes" MAX_WORKSPACE_CAPTURE_BYTES (framesByteLength frames)
  let (channels, samples) ← cloneWaveformPayload adapter
    (parts.waveformChannels.map (withStoredVisibility adapter preferences))
    parts.waveformSamples
  pure
    { session := { id, fields, frames, collections, logAiMessages }
      channels
      samples
      frameCursor := preferences.frameCursor.getD
        (legacyWaveformFrameCursor preferences.sourceMode frames
          (0 < parts.waveformSamples.length)) }

end

end bbcom.session_adapter
