-- The workspace contract that the renderer and the native side share: limits, mutation
-- payloads, and the one shape in which either side writes them down.
-- An opaque document is a parameter of a payload: a value of the renderer on one side, a
-- JSON document on the other. So is the value of a waveform sample.
import Bbcom.Lib.Json
import Bbcom.Base64

open bbcom.js bbcom.json

namespace bbcom.contracts

/-! ## Limits -/

def MAX_WORKSPACE_SESSIONS : Nat := 64
def MAX_WORKSPACE_FRAMES_PER_SESSION : Nat := 100000
def MAX_WORKSPACE_FRAMES : Nat := 250000
def MAX_WORKSPACE_FRAME_BYTES : Nat := 2 * 1024 * 1024
def MAX_WORKSPACE_CAPTURE_BYTES : Nat := 256 * 1024 * 1024
def MAX_WORKSPACE_DATABASE_BYTES : Nat := 512 * 1024 * 1024
def MAX_WORKSPACE_MUTATIONS_PER_BATCH : Nat := 256
def MAX_WORKSPACE_FRAMES_PER_BATCH : Nat := 256
def MAX_WORKSPACE_BATCH_BYTES : Nat := 512 * 1024
def MAX_WORKSPACE_AI_MESSAGES : Nat := 10000
def MAX_WORKSPACE_AI_MESSAGE_BYTES : Nat := 256 * 1024
def MAX_WORKSPACE_AI_BYTES : Nat := 32 * 1024 * 1024

/-! ## Payloads -/

inductive Direction
  | tx | rx
  deriving DecidableEq

structure WorkspaceMetadataPayload (D : Type) where
  name : Option String
  layout : Option D
  updatedAtMs : Option UInt64

structure WorkspacePortHint where
  displayName : String
  vendorId : Option UInt16
  productId : Option UInt16
  usbSerial : Option String
  manufacturer : Option String
  product : Option String
  interfaceType : Option String

inductive WorkspaceSessionKind
  | live | offline
  deriving DecidableEq

structure WorkspaceSessionUpsertPayload (D : Type) where
  name : String
  sortOrder : UInt32
  kind : WorkspaceSessionKind
  lastPortHint : Option WorkspacePortHint
  portConfig : D
  document : D

structure WorkspaceFramePayload where
  id : String
  direction : Direction
  timestampMs : UInt64
  data : Uint8Array
  dataB64 : Option String
  txStatus : Option String
  requestedBytes : Option UInt64
  omittedBytes : Option UInt64
  deriving DecidableEq

structure WorkspaceAppendFramesPayload where
  startSeq : UInt64
  frames : List WorkspaceFramePayload

structure WorkspaceReplaceCapturePayload where
  frames : List WorkspaceFramePayload

structure WorkspaceTrimCapturePayload where
  frameCount : UInt32

inductive WorkspaceFeatureKind
  | preferences | parser | modbus | waveform | shell | mcumgr | plugin
  deriving DecidableEq

structure WorkspaceFeatureStatePayload (D : Type) where
  feature : WorkspaceFeatureKind
  state : D

structure WorkspaceSendHistoryEntry where
  data : String
  isHex : Bool

structure WorkspaceQuickCommand where
  id : String
  name : String
  data : String
  isHex : Bool
  ownerPluginId : Option String

structure WorkspaceMacroStep where
  data : String
  isHex : Bool
  delayMs : UInt32

structure WorkspaceMacro where
  id : String
  name : String
  steps : List WorkspaceMacroStep
  ownerPluginId : Option String

structure WorkspaceConfigRow (D : Type) where
  id : String
  config : D

structure WorkspaceSessionCollectionsPayload (D : Type) where
  sendHistory : List WorkspaceSendHistoryEntry
  quickCommands : List WorkspaceQuickCommand
  macros : List WorkspaceMacro
  triggers : List (WorkspaceConfigRow D)
  highlights : List (WorkspaceConfigRow D)
  modbusRegisters : List (WorkspaceConfigRow D)

inductive WorkspaceAiRole
  | user | assistant
  deriving DecidableEq

structure WorkspaceAiMessage where
  id : String
  role : WorkspaceAiRole
  content : String
  timestampMs : UInt64

structure WorkspaceAiMessagesPayload where
  startPosition : UInt32
  messages : List WorkspaceAiMessage

structure WorkspaceWaveformChannel (D : Type) where
  channelIndex : UInt8
  config : D

structure WorkspaceWaveformChannelsPayload (D : Type) where
  channels : List (WorkspaceWaveformChannel D)

structure WorkspaceWaveformSample (V : Type) where
  channelIndex : UInt8
  seq : UInt64
  timestampMs : UInt64
  value : V

structure WorkspaceWaveformSamplesPayload (V : Type) where
  samples : List (WorkspaceWaveformSample V)

/-- A mutation without its sequence number: what the renderer calls a command. -/
inductive MutationBody (D V : Type)
  | setMetadata (payload : WorkspaceMetadataPayload D)
  | setActiveSession (sessionId : Option String)
  | upsertSession (sessionId : String) (payload : WorkspaceSessionUpsertPayload D)
  | removeSession (sessionId : String)
  | appendFrames (sessionId : String) (payload : WorkspaceAppendFramesPayload)
  | replaceCapture (sessionId : String) (payload : WorkspaceReplaceCapturePayload)
  | trimCapture (sessionId : String) (payload : WorkspaceTrimCapturePayload)
  | upsertFeatureState (entityId : String) (payload : WorkspaceFeatureStatePayload D)
  | replaceSessionCollections (sessionId : String)
      (payload : WorkspaceSessionCollectionsPayload D)
  | appendAiMessages (sessionId : String) (payload : WorkspaceAiMessagesPayload)
  | clearAiMessages (sessionId : String)
  | replaceWaveformChannels (sessionId : String) (payload : WorkspaceWaveformChannelsPayload D)
  | appendWaveformSamples (sessionId : String) (payload : WorkspaceWaveformSamplesPayload V)

/-- A double on the native side. A finite one is its shortest decimal text. -/
inductive F64
  | finite (text : FloatText)
  | nonFinite

def F64.isFinite : F64 → Bool
  | .finite _ => true
  | .nonFinite => false

structure WorkspaceMutation where
  sequence : UInt32
  body : MutationBody Json F64

structure ApplyWorkspaceBatchRequest where
  workspaceId : String
  clientBatchId : String
  baseRevision : UInt64
  mutations : List WorkspaceMutation

structure ApplyWorkspaceBatchResponse where
  clientBatchId : String
  committedRevision : Nat
  deriving DecidableEq

inductive WorkspaceSaveHealth
  | clean | pending | saving | degraded | readOnly
  deriving DecidableEq

/-- The part of the document header that the checks of a stored workspace decide. -/
structure WorkspaceDocumentHeader where
  workspaceId : String
  name : String
  revision : Nat
  activeSessionId : Option String
  sessionIds : List String
  layout : Json

/-! ## Writing down

The generated contract gives both sides the same keys. A side is the way it writes a
number, a text, a list and a record. -/

structure Writer (J : Type) where
  null : J
  bool : Bool → J
  number : UInt64 → J
  string : String → J
  array : List J → J
  object : List (String × J) → J

/-- `skip_serializing_if = "Option::is_none"`, and an optional property of the renderer. -/
def optionalField {J : Type} (key : String) : Option J → List (String × J)
  | none => []
  | some value => [(key, value)]

def Direction.text : Direction → String
  | .tx => "TX"
  | .rx => "RX"

def WorkspaceSessionKind.text : WorkspaceSessionKind → String
  | .live => "live"
  | .offline => "offline"

def WorkspaceFeatureKind.text : WorkspaceFeatureKind → String
  | .preferences => "preferences"
  | .parser => "parser"
  | .modbus => "modbus"
  | .waveform => "waveform"
  | .shell => "shell"
  | .mcumgr => "mcumgr"
  | .plugin => "plugin"

def WorkspaceAiRole.text : WorkspaceAiRole → String
  | .user => "user"
  | .assistant => "assistant"

namespace Writer

variable {J D V : Type} (w : Writer J) (doc : D → J) (value : V → J)

def metadata (p : WorkspaceMetadataPayload D) : J :=
  w.object <| optionalField "name" (p.name.map w.string) ++
    optionalField "layout" (p.layout.map doc) ++
    optionalField "updatedAtMs" (p.updatedAtMs.map w.number)

def portHint (p : WorkspacePortHint) : J :=
  w.object <| [("displayName", w.string p.displayName)] ++
    optionalField "vendorId" (p.vendorId.map fun id => w.number id.toUInt64) ++
    optionalField "productId" (p.productId.map fun id => w.number id.toUInt64) ++
    optionalField "usbSerial" (p.usbSerial.map w.string) ++
    optionalField "manufacturer" (p.manufacturer.map w.string) ++
    optionalField "product" (p.product.map w.string) ++
    optionalField "interfaceType" (p.interfaceType.map w.string)

def sessionUpsert (p : WorkspaceSessionUpsertPayload D) : J :=
  w.object <| [("name", w.string p.name), ("sortOrder", w.number p.sortOrder.toUInt64),
    ("kind", w.string p.kind.text)] ++
    optionalField "lastPortHint" (p.lastPortHint.map w.portHint) ++
    [("portConfig", doc p.portConfig), ("document", doc p.document)]

def frame (p : WorkspaceFramePayload) : J :=
  w.object <| [("id", w.string p.id), ("direction", w.string p.direction.text),
    ("timestampMs", w.number p.timestampMs),
    ("data", w.array (p.data.map fun byte => w.number byte.toUInt64))] ++
    optionalField "dataB64" (p.dataB64.map w.string) ++
    optionalField "txStatus" (p.txStatus.map w.string) ++
    optionalField "requestedBytes" (p.requestedBytes.map w.number) ++
    optionalField "omittedBytes" (p.omittedBytes.map w.number)

def featureState (p : WorkspaceFeatureStatePayload D) : J :=
  w.object [("feature", w.string p.feature.text), ("state", doc p.state)]

def sendHistoryEntry (p : WorkspaceSendHistoryEntry) : J :=
  w.object [("data", w.string p.data), ("isHex", w.bool p.isHex)]

def quickCommand (p : WorkspaceQuickCommand) : J :=
  w.object <| [("id", w.string p.id), ("name", w.string p.name), ("data", w.string p.data),
    ("isHex", w.bool p.isHex)] ++ optionalField "ownerPluginId" (p.ownerPluginId.map w.string)

def macroStep (p : WorkspaceMacroStep) : J :=
  w.object [("data", w.string p.data), ("isHex", w.bool p.isHex),
    ("delayMs", w.number p.delayMs.toUInt64)]

def macroItem (p : WorkspaceMacro) : J :=
  w.object <| [("id", w.string p.id), ("name", w.string p.name),
    ("steps", w.array (p.steps.map w.macroStep))] ++
    optionalField "ownerPluginId" (p.ownerPluginId.map w.string)

def configRow (p : WorkspaceConfigRow D) : J :=
  w.object [("id", w.string p.id), ("config", doc p.config)]

def sessionCollections (p : WorkspaceSessionCollectionsPayload D) : J :=
  w.object [("sendHistory", w.array (p.sendHistory.map w.sendHistoryEntry)),
    ("quickCommands", w.array (p.quickCommands.map w.quickCommand)),
    ("macros", w.array (p.macros.map w.macroItem)),
    ("triggers", w.array (p.triggers.map (w.configRow doc))),
    ("highlights", w.array (p.highlights.map (w.configRow doc))),
    ("modbusRegisters", w.array (p.modbusRegisters.map (w.configRow doc)))]

def aiMessage (p : WorkspaceAiMessage) : J :=
  w.object [("id", w.string p.id), ("role", w.string p.role.text),
    ("content", w.string p.content), ("timestampMs", w.number p.timestampMs)]

def aiMessages (p : WorkspaceAiMessagesPayload) : J :=
  w.object [("startPosition", w.number p.startPosition.toUInt64),
    ("messages", w.array (p.messages.map w.aiMessage))]

def waveformChannel (p : WorkspaceWaveformChannel D) : J :=
  w.object [("channelIndex", w.number p.channelIndex.toUInt64), ("config", doc p.config)]

def waveformSample (p : WorkspaceWaveformSample V) : J :=
  w.object [("channelIndex", w.number p.channelIndex.toUInt64), ("seq", w.number p.seq),
    ("timestampMs", w.number p.timestampMs), ("value", value p.value)]

/-- The properties of a mutation besides its kind and its sequence number. -/
def fields : MutationBody D V → List (String × J)
  | .setMetadata payload => [("payload", w.metadata doc payload)]
  | .setActiveSession sessionId => [("sessionId", (sessionId.map w.string).getD w.null)]
  | .upsertSession sessionId payload =>
    [("sessionId", w.string sessionId), ("payload", w.sessionUpsert doc payload)]
  | .removeSession sessionId => [("sessionId", w.string sessionId)]
  | .appendFrames sessionId payload =>
    [("sessionId", w.string sessionId),
      ("payload", w.object [("startSeq", w.number payload.startSeq),
        ("frames", w.array (payload.frames.map w.frame))])]
  | .replaceCapture sessionId payload =>
    [("sessionId", w.string sessionId),
      ("payload", w.object [("frames", w.array (payload.frames.map w.frame))])]
  | .trimCapture sessionId payload =>
    [("sessionId", w.string sessionId),
      ("payload", w.object [("frameCount", w.number payload.frameCount.toUInt64)])]
  | .upsertFeatureState entityId payload =>
    [("entityId", w.string entityId), ("payload", w.featureState doc payload)]
  | .replaceSessionCollections sessionId payload =>
    [("sessionId", w.string sessionId), ("payload", w.sessionCollections doc payload)]
  | .appendAiMessages sessionId payload =>
    [("sessionId", w.string sessionId), ("payload", w.aiMessages payload)]
  | .clearAiMessages sessionId => [("sessionId", w.string sessionId)]
  | .replaceWaveformChannels sessionId payload =>
    [("sessionId", w.string sessionId),
      ("payload", w.object [("channels", w.array (payload.channels.map (w.waveformChannel doc)))])]
  | .appendWaveformSamples sessionId payload =>
    [("sessionId", w.string sessionId),
      ("payload", w.object [("samples", w.array (payload.samples.map (w.waveformSample value)))])]

end Writer

def MutationBody.kind {D V : Type} : MutationBody D V → String
  | .setMetadata _ => "set-metadata"
  | .setActiveSession _ => "set-active-session"
  | .upsertSession _ _ => "upsert-session"
  | .removeSession _ => "remove-session"
  | .appendFrames _ _ => "append-frames"
  | .replaceCapture _ _ => "replace-capture"
  | .trimCapture _ _ => "trim-capture"
  | .upsertFeatureState _ _ => "upsert-feature-state"
  | .replaceSessionCollections _ _ => "replace-session-collections"
  | .appendAiMessages _ _ => "append-ai-messages"
  | .clearAiMessages _ => "clear-ai-messages"
  | .replaceWaveformChannels _ _ => "replace-waveform-channels"
  | .appendWaveformSamples _ _ => "append-waveform-samples"

/-! ## The native side -/

/-- `serde` as a writer. -/
def serde : Writer Json where
  null := .null
  bool := .bool
  number n := .number (.unsigned n)
  string := .string
  array := .array
  object := .object

/-- `serde` writes a double that is no number as `null`. -/
def F64.json : F64 → Json
  | .finite text => .number (.float text)
  | .nonFinite => .null

/-- `serde_json::to_value(mutation)`. -/
def WorkspaceMutation.json (mutation : WorkspaceMutation) : Json :=
  .object <| ("kind", .string mutation.body.kind) ::
    ("sequence", .number (.unsigned mutation.sequence.toUInt64)) ::
    serde.fields id F64.json mutation.body

inductive DataB64Error
  | bothChannels | limitExceeded (limit actual : Nat) | invalidBase64
  deriving DecidableEq

/-- `decode_data_b64`, with its bound before and after the decoding. -/
def decodeDataB64 (encoded : String) (limit : Nat) : Except DataB64Error Uint8Array :=
  let significant := bytes (encoded.toList.rdropWhile (· = '='))
  let worstCaseBytes := significant / 4 * 3 +
    (if significant % 4 = 2 then 1 else if significant % 4 = 3 then 2 else 0)
  if worstCaseBytes > limit then .error (.limitExceeded limit worstCaseBytes)
  else
    match base64.decodeStandard encoded.toList with
    | none => .error .invalidBase64
    | some bytes =>
      if bytes.length > limit then .error (.limitExceeded limit bytes.length) else .ok bytes

def resolveDualData (data : Uint8Array) (dataB64 : Option String) (limit : Nat) :
    Except DataB64Error Uint8Array :=
  match dataB64 with
  | some encoded => if data ≠ [] then .error .bothChannels else decodeDataB64 encoded limit
  | none => .ok data

/-- The deserialization of a frame: afterwards the bytes stand in `data` alone. -/
def WorkspaceFramePayload.deserialize (raw : WorkspaceFramePayload) :
    Except DataB64Error WorkspaceFramePayload := do
  let data ← resolveDualData raw.data raw.dataB64 MAX_WORKSPACE_FRAME_BYTES
  pure { raw with data, dataB64 := none }

end bbcom.contracts
