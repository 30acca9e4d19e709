-- The mutations of `mutation.rs` with the validations of `model.rs`: each takes the
-- database inside a transaction and gives the database after it, or the error on which the
-- transaction is rolled back.
import Bbcom.WorkspaceDatabase

open bbcom.json bbcom.contracts

namespace bbcom.workspace

/-- One sequence is one plotted row. -/
def MAX_WAVEFORM_SAMPLE_GROUPS : Nat := 600
def MAX_PLUGIN_STATE_BYTES : Nat := 16 * 1024 * 1024
def MAX_WORKSPACE_PLUGIN_STATE_BYTES : Nat := 64 * 1024 * 1024

/-! ## Validations -/

def isControl (c : Char) : Bool := c.toNat < 0x20 || (0x7f ≤ c.toNat && c.toNat ≤ 0x9f)

/-- The length of a Rust string. -/
def byteLength (text : String) : Nat := bytes text.toList

def validateIdentifier (value : String) (field : String) : Result Unit :=
  refuseIf (value.toList = [] ∨ byteLength value > 128 ∨ value.toList.any isControl)
    (.invalidInput field)

def ensureLimit (field : String) (actual limit : Nat) : Result Unit :=
  refuseIf (actual > limit) (.limitExceeded field limit actual)

def validateFramePayloadLimit (actual : Nat) : Result Unit :=
  ensureLimit "frame.data" actual MAX_WORKSPACE_FRAME_BYTES

def contains (text needle : List Char) : Bool := decide (needle <:+: text)

def toAsciiLowercase (text : List Char) : List Char := text.map Char.toLower

def looksLikeAbsolutePath (text : List Char) : Bool :=
  ['/'].isPrefixOf text || ['\\', '\\'].isPrefixOf text ||
    "file:".toList.isPrefixOf (toAsciiLowercase text) ||
    match text with
    | a :: b :: c :: _ => a.isAlpha && b = ':' && (c = '/' || c = '\\')
    | _ => false

def isForbiddenKey (key : String) : Bool :=
  let normalized := toAsciiLowercase key.toList
  contains normalized "path".toList || contains normalized "handle".toList ||
    contains normalized "token".toList || contains normalized "grant".toList ||
    normalized = "key".toList || "_key".toList.isSuffixOf normalized ||
    "-key".toList.isSuffixOf normalized || "apikey".toList.isSuffixOf normalized ||
    contains normalized "secret".toList

mutual
def hasForbiddenKeys : Json → Bool
  | .object fields => anyForbiddenField fields
  | .array items => anyForbiddenItem items
  | .string text => looksLikeAbsolutePath text.toList
  | _ => false

def anyForbiddenItem : List Json → Bool
  | [] => false
  | item :: items => hasForbiddenKeys item || anyForbiddenItem items

def anyForbiddenField : List (String × Json) → Bool
  | [] => false
  | (key, child) :: fields =>
    isForbiddenKey key || hasForbiddenKeys child || anyForbiddenField fields
end

def rejectForbiddenKeys (value : Json) : Result Unit :=
  refuseIf (hasForbiddenKeys value) (.invalidInput "payload")

def validatePortHint (hint : WorkspacePortHint) : Result Unit :=
  let texts := [some hint.displayName, hint.usbSerial, hint.manufacturer, hint.product,
    hint.interfaceType].reduceOption
  let refused (text : String) : Bool :=
    byteLength text > 256 || contains text.toList ['/'] || contains text.toList ['\\'] ||
      contains (toAsciiLowercase text.toList) "file:".toList || looksLikeAbsolutePath text.toList
  refuseIf (texts.any refused) (.invalidInput "lastPortHint")

def validateSessionUpsertPayload (payload : WorkspaceSessionUpsertPayload Json) :
    Result Unit := do
  refuseIf (payload.name.toList = [] ∨ byteLength payload.name > 256)
    (.invalidInput "session.name")
  rejectForbiddenKeys payload.portConfig
  rejectForbiddenKeys payload.document
  match payload.lastPortHint with
  | none => pure ()
  | some hint => validatePortHint hint

def validateFramePayload (payload : WorkspaceFramePayload) : Result Unit := do
  validateIdentifier payload.id "frame.id"
  refuseIf (payload.txStatus ≠ none ∧ payload.txStatus ≠ some "complete" ∧
    payload.txStatus ≠ some "partial-unknown") (.invalidInput "frame.txStatus")
  let _ ← i64OfNat payload.timestampMs.toNat "timestampMs"

def validateNamedValue (value : String) (field : String) : Result Unit :=
  refuseIf (value.toList = [] ∨ byteLength value > 256 ∨ value.toList.any isControl)
    (.invalidInput field)

def validateBoundedText (value : String) (field : String) (limit : Nat) : Result Unit :=
  ensureLimit field (byteLength value) limit

/-- The ids seen so far, with one more that must be new. -/
def ensureUniqueId (ids : List String) (value : String) (field : String) :
    Result (List String) :=
  if value ∈ ids then .error (.invalidInput field) else .ok (value :: ids)

def validatePluginOwner (ownerPluginId : Option String) (itemId : String) (field : String) :
    Result Unit :=
  match ownerPluginId with
  | none => .ok ()
  | some owner => do
    validateIdentifier owner field
    let start := "plugin:".toList ++ owner.toList ++ [':']
    refuseIf (bytes itemId.toList ≤ bytes start ∨ ¬start <+: itemId.toList)
      (.invalidInput field)

def validateConfigRows (rows : List (WorkspaceConfigRow Json)) (field : String) :
    Result Unit := do
  let mut ids := []
  for row in rows do
    validateIdentifier row.id field
    ids ← ensureUniqueId ids row.id field
    rejectForbiddenKeys row.config

def validateSessionCollections (payload : WorkspaceSessionCollectionsPayload Json) :
    Result Unit := do
  for entry in payload.sendHistory do
    validateBoundedText entry.data "sendHistory.data" MAX_WORKSPACE_BATCH_BYTES
  let mut quickIds := []
  for command in payload.quickCommands do
    validateIdentifier command.id "quickCommand.id"
    validateNamedValue command.name "quickCommand.name"
    validateBoundedText command.data "quickCommand.data" MAX_WORKSPACE_BATCH_BYTES
    quickIds ← ensureUniqueId quickIds command.id "quickCommand.id"
    validatePluginOwner command.ownerPluginId command.id "quickCommand.ownerPluginId"
  let mut macroIds := []
  for item in payload.macros do
    validateIdentifier item.id "macro.id"
    validateNamedValue item.name "macro.name"
    macroIds ← ensureUniqueId macroIds item.id "macro.id"
    validatePluginOwner item.ownerPluginId item.id "macro.ownerPluginId"
    for step in item.steps do
      validateBoundedText step.data "macroStep.data" MAX_WORKSPACE_BATCH_BYTES
  validateConfigRows payload.triggers "trigger.id"
  validateConfigRows payload.highlights "highlight.id"
  validateConfigRows payload.modbusRegisters "modbusRegister.id"

def validateWaveformChannels (payload : WorkspaceWaveformChannelsPayload Json) :
    Result Unit := do
  ensureLimit "waveformChannels" payload.channels.length 8
  let mut channels := []
  for channel in payload.channels do
    refuseIf (channel.channelIndex > 7 ∨ channel.channelIndex ∈ channels)
      (.invalidInput "waveform.channelIndex")
    channels := channel.channelIndex :: channels
    rejectForbiddenKeys channel.config

def validateWaveformSamples (payload : WorkspaceWaveformSamplesPayload F64) : Result Unit := do
  refuseIf payload.samples.isEmpty (.invalidInput "waveformSamples")
  let mut keys := []
  for sample in payload.samples do
    refuseIf (sample.channelIndex > 7 ∨ ¬sample.value.isFinite ∨
      (sample.channelIndex, sample.seq) ∈ keys) (.invalidInput "waveformSample")
    keys := (sample.channelIndex, sample.seq) :: keys
    let _ ← i64OfNat sample.seq.toNat "waveformSample.seq"
    let _ ← i64OfNat sample.timestampMs.toNat "waveformSample.timestampMs"

def validateAiMessages (payload : WorkspaceAiMessagesPayload) : Result Unit := do
  refuseIf payload.messages.isEmpty (.invalidInput "aiMessages")
  let mut ids := []
  for message in payload.messages do
    validateIdentifier message.id "aiMessage.id"
    ensureLimit "aiMessageBytes" (byteLength message.content) MAX_WORKSPACE_AI_MESSAGE_BYTES
    ids ← ensureUniqueId ids message.id "aiMessage.id"
    let _ ← i64OfNat message.timestampMs.toNat "aiMessage.timestampMs"

/-- The part of `validate_mutation_payload_limits` for one mutation. -/
def validateMutationPayloadLimit : MutationBody Json F64 → Result Unit
  | .appendFrames _ payload =>
    payload.frames.forM fun frame => validateFramePayloadLimit frame.data.length
  | .replaceCapture _ payload =>
    payload.frames.forM fun frame => validateFramePayloadLimit frame.data.length
  | .upsertFeatureState _ payload =>
    if payload.feature = .plugin then
      ensureLimit "pluginState" (bytes payload.state.print) MAX_PLUGIN_STATE_BYTES
    else .ok ()
  | .replaceSessionCollections _ payload => validateSessionCollections payload
  | .appendAiMessages _ payload => validateAiMessages payload
  | .replaceWaveformChannels _ payload => validateWaveformChannels payload
  | .appendWaveformSamples _ payload => validateWaveformSamples payload
  | _ => .ok ()

def validateMutationPayloadLimits (request : ApplyWorkspaceBatchRequest) : Result Unit :=
  request.mutations.forM fun mutation => validateMutationPayloadLimit mutation.body

/-! ## The mutations -/

variable (db : Database)

def ensureSessionExists (sessionId : String) : Result Unit :=
  refuseIf (¬db.hasLiveSession sessionId) (.invalidInput "sessionId")

def setName (row : WorkspaceMeta) : Option String → Result WorkspaceMeta
  | none => pure row
  | some name => do
    refuseIf (name.toList = [] ∨ byteLength name > 256) (.invalidInput "name")
    refuseIf (sqlLength name < 1) .database
    pure { row with name }

def setLayout (row : WorkspaceMeta) : Option Json → Result WorkspaceMeta
  | none => pure row
  | some layout => do
    rejectForbiddenKeys layout
    pure { row with layoutJson := layout.print }

def setUpdatedAt (row : WorkspaceMeta) : Option UInt64 → Result WorkspaceMeta
  | none => pure row
  | some updatedAtMs => do
    let updatedAtMs ← i64OfNat updatedAtMs.toNat "updatedAtMs"
    pure { row with updatedAtMs }

def setMetadata (payload : WorkspaceMetadataPayload Json) : Result Database := do
  let named ← setName db.workspaceMeta payload.name
  let laidOut ← setLayout named payload.layout
  let workspaceMeta ← setUpdatedAt laidOut payload.updatedAtMs
  pure { db with workspaceMeta }

def setActiveSession (sessionId : Option String) : Result Database :=
  match sessionId with
  | some sessionId => do
    validateIdentifier sessionId "sessionId"
    ensureSessionExists db sessionId
    pure { db with
      workspaceMeta := { db.workspaceMeta with activeSessionId := some sessionId } }
  | none => pure { db with workspaceMeta := { db.workspaceMeta with activeSessionId := none } }

/-- `ON CONFLICT(session_id) DO NOTHING`. -/
def insertMissing {ρ : Type} (key : ρ → String) (row : ρ) (rows : List ρ) : List ρ :=
  if rows.any (key · = key row) then rows else rows ++ [row]

def emptyObject : List Char := ['{', '}']

def upsertSessionRow (row : SessionRow) : List SessionRow :=
  if db.sessions.any (·.id = row.id) then
    db.sessions.map fun s => if s.id = row.id then row else s
  else db.sessions ++ [row]

def upsertSession (sessionId : String) (payload : WorkspaceSessionUpsertPayload Json) :
    Result Database := do
  validateIdentifier sessionId "sessionId"
  validateSessionUpsertPayload payload
  refuseIf (sqlLength payload.name < 1) .database
  let row : SessionRow :=
    { id := sessionId
      sortOrder := payload.sortOrder
      kind := payload.kind
      name := payload.name
      lastPortHintJson := payload.lastPortHint.map fun hint => (serde.portHint hint).print
      portConfigJson := payload.portConfig.print
      documentJson := payload.document.print
      -- a new row starts with 0, a conflict sets it back to 0: this is how a removal is undone
      undoPending := false }
  pure { db with
    sessions := upsertSessionRow db row
    sessionPreferences := insertMissing SessionPreferencesRow.sessionId
      ⟨sessionId, emptyObject, emptyObject, emptyObject, emptyObject⟩ db.sessionPreferences
    captureStats := insertMissing id sessionId db.captureStats
    modbusConfig := insertMissing SessionConfigRow.sessionId ⟨sessionId, emptyObject⟩
      db.modbusConfig
    mcumgrConfig := insertMissing SessionConfigRow.sessionId ⟨sessionId, emptyObject⟩
      db.mcumgrConfig }

/-- `UPDATE sessions SET undo_pending = 1 WHERE id = ?1 AND undo_pending = 0`, under the index
that allows one such row, and the count of the rows that changed. -/
def markUndoPending (sessionId : String) : Result (Database × Nat) :=
  let changed := db.sessions.countP fun s => s.id = sessionId && !s.undoPending
  let sessions := db.sessions.map fun s =>
    if s.id = sessionId && !s.undoPending then { s with undoPending := true } else s
  if sessions.countP (·.undoPending) > 1 then .error .database
  else .ok ({ db with sessions }, changed)

/-- `active_session_id = NULL` where it names the session. -/
def Database.clearActive (sessionId : String) : Database :=
  { db with
    workspaceMeta := { db.workspaceMeta with
      activeSessionId := db.workspaceMeta.activeSessionId.filter (· ≠ sessionId) } }

def removeSession (sessionId : String) : Result Database := do
  validateIdentifier sessionId "sessionId"
  ensureSessionExists db sessionId
  let purged := db.deleteSessions fun s => s.undoPending && s.id ≠ sessionId
  let (archived, changed) ← markUndoPending (purged.clearActive sessionId) sessionId
  refuseIf (changed ≠ 1) (.invalidInput "sessionId")
  pure archived

def executeFrameInsert (sessionId : String) (sequence : Nat) (frame : WorkspaceFramePayload) :
    Result Database := do
  validateFramePayloadLimit frame.data.length
  let timestampMs ← i64OfNat frame.timestampMs.toNat "timestampMs"
  let requestedBytes ← frame.requestedBytes.mapM fun n => i64OfNat n.toNat "requestedBytes"
  let omittedBytes ← frame.omittedBytes.mapM fun n => i64OfNat n.toNat "omittedBytes"
  db.insertFrame
    { sessionId
      seq := sequence
      id := frame.id
      direction := frame.direction
      timestampMs
      data := frame.data
      txStatus := frame.txStatus
      requestedBytes
      omittedBytes }

/-- The insertions of `append_frames`, from the sequence number on. -/
def insertFrames (sessionId : String) (sequence : Nat) :
    Database → List WorkspaceFramePayload → Result Database
  | db, [] => .ok db
  | db, frame :: frames => do
    validateFramePayload frame
    let sequence ← i64OfNat sequence "sequence"
    let db ← executeFrameInsert db sessionId sequence frame
    insertFrames sessionId (sequence + 1) db frames

def appendFrames (sessionId : String) (payload : WorkspaceAppendFramesPayload) :
    Result Database := do
  validateIdentifier sessionId "sessionId"
  ensureSessionExists db sessionId
  refuseIf payload.frames.isEmpty (.invalidInput "frames")
  insertFrames sessionId payload.startSeq.toNat db payload.frames

def replaceCapture (sessionId : String) (payload : WorkspaceReplaceCapturePayload) :
    Result Database := do
  validateIdentifier sessionId "sessionId"
  ensureSessionExists db sessionId
  insertFrames sessionId 0 (db.deleteFrames sessionId) payload.frames

def trimCapture (sessionId : String) (frameCount : UInt32) : Result Database := do
  validateIdentifier sessionId "sessionId"
  ensureSessionExists db sessionId
  refuseIf (frameCount = 0) (.invalidInput "frameCount")
  pure (db.deleteOldestFrames sessionId frameCount.toNat)

/-- The columns that a session keeps a feature in. -/
def updateFeature (sessionId : String) (feature : WorkspaceFeatureKind) (state : List Char) :
    Database :=
  let preferences (set : SessionPreferencesRow → SessionPreferencesRow) : Database :=
    { db with sessionPreferences := db.sessionPreferences.map fun r =>
        if r.sessionId = sessionId then set r else r }
  let config (rows : List SessionConfigRow) : List SessionConfigRow :=
    rows.map fun r => if r.sessionId = sessionId then { r with configJson := state } else r
  match feature with
  | .preferences => preferences fun r => { r with featureStateJson := state }
  | .parser => preferences fun r => { r with parserJson := state }
  | .modbus => { db with modbusConfig := config db.modbusConfig }
  | .waveform => preferences fun r => { r with displayJson := state }
  | .shell => preferences fun r => { r with sendJson := state }
  | .mcumgr => { db with mcumgrConfig := config db.mcumgrConfig }
  | .plugin => db

def upsertPluginState (pluginId : String) (state : List Char) : Database :=
  { db with
    pluginBindings := insertMissing PluginBindingRow.pluginId
      ⟨pluginId, "project-unresolved", "*", false⟩ db.pluginBindings
    pluginProjectState :=
      if db.pluginProjectState.any (·.pluginId = pluginId) then
        db.pluginProjectState.map fun r => if r.pluginId = pluginId then { r with state } else r
      else db.pluginProjectState ++ [⟨pluginId, state⟩] }

def upsertFeatureState (entityId : String) (payload : WorkspaceFeatureStatePayload Json) :
    Result Database := do
  validateIdentifier entityId "entityId"
  rejectForbiddenKeys payload.state
  if payload.feature = .plugin then do
    ensureLimit "pluginState" (bytes payload.state.print) MAX_PLUGIN_STATE_BYTES
    pure (upsertPluginState db entityId payload.state.print)
  else do
    ensureSessionExists db entityId
    pure (updateFeature db entityId payload.feature payload.state.print)

def configRows (sessionId : String) (rows : List (WorkspaceConfigRow Json)) : List ConfigRow :=
  rows.mapIdx fun position row => ⟨sessionId, row.id, position, row.config.print⟩

/-- The ids that the insertions below could collide on are checked to be distinct. -/
def replaceSessionCollections (sessionId : String)
    (payload : WorkspaceSessionCollectionsPayload Json) : Result Database := do
  validateIdentifier sessionId "sessionId"
  ensureSessionExists db sessionId
  validateSessionCollections payload
  pure { db with
    sendHistory := db.sendHistory.filter (·.sessionId ≠ sessionId) ++
      payload.sendHistory.mapIdx fun position entry => ⟨sessionId, position, entry⟩
    quickCommands := db.quickCommands.filter (·.sessionId ≠ sessionId) ++
      payload.quickCommands.mapIdx fun position command => ⟨sessionId, position, command⟩
    macros := db.macros.filter (·.sessionId ≠ sessionId) ++
      payload.macros.mapIdx fun position item =>
        ⟨sessionId, position, item.id, item.name, item.ownerPluginId⟩
    macroSteps := db.macroSteps.filter (·.sessionId ≠ sessionId) ++
      payload.macros.flatMap fun item =>
        item.steps.mapIdx fun position step => ⟨sessionId, item.id, position, step⟩
    triggers := db.triggers.filter (·.sessionId ≠ sessionId) ++
      configRows sessionId payload.triggers
    highlights := db.highlights.filter (·.sessionId ≠ sessionId) ++
      configRows sessionId payload.highlights
    modbusRegisters := db.modbusRegisters.filter (·.sessionId ≠ sessionId) ++
      configRows sessionId payload.modbusRegisters }

def insertAiMessages (sessionId : String) (position : Nat) :
    Database → List WorkspaceAiMessage → Result Database
  | db, [] => .ok db
  | db, message :: messages => do
    let timestampMs ← i64OfNat message.timestampMs.toNat "aiMessage.timestampMs"
    let db ← db.insertAiMessage
      ⟨sessionId, position, message.id, message.role, message.content, timestampMs⟩
    insertAiMessages sessionId (position + 1) db messages

def appendAiMessages (sessionId : String) (payload : WorkspaceAiMessagesPayload) :
    Result Database := do
  validateIdentifier sessionId "sessionId"
  ensureSessionExists db sessionId
  refuseIf ((db.sessionAiMessages sessionId).length ≠ payload.startPosition.toNat)
    (.invalidInput "aiMessages.startPosition")
  insertAiMessages sessionId payload.startPosition.toNat db payload.messages

def clearAiMessages (sessionId : String) : Result Database := do
  validateIdentifier sessionId "sessionId"
  ensureSessionExists db sessionId
  pure { db with aiMessages := db.aiMessages.filter (·.sessionId ≠ sessionId) }

def insertWaveformChannels (sessionId : String) :
    Database → List (WorkspaceWaveformChannel Json) → Result Database
  | db, [] => .ok db
  | db, channel :: channels => do
    let db ← db.insertWaveformChannel ⟨sessionId, channel.channelIndex, channel.config.print⟩
    insertWaveformChannels sessionId db channels

def replaceWaveformChannels (sessionId : String)
    (payload : WorkspaceWaveformChannelsPayload Json) : Result Database := do
  validateIdentifier sessionId "sessionId"
  ensureSessionExists db sessionId
  validateWaveformChannels payload
  insertWaveformChannels sessionId (db.deleteWaveformChannels sessionId) payload.channels

def insertWaveformSamples (sessionId : String) :
    Database → List (WorkspaceWaveformSample F64) → Result Database
  | db, [] => .ok db
  | db, sample :: samples => do
    refuseIf (¬db.hasWaveformChannel sessionId sample.channelIndex)
      (.invalidInput "waveformSample.channelIndex")
    let seq ← i64OfNat sample.seq.toNat "waveformSample.seq"
    let timestampMs ← i64OfNat sample.timestampMs.toNat "waveformSample.timestampMs"
    let db ← db.insertWaveformSample
      ⟨sessionId, sample.channelIndex, seq, timestampMs, sample.value⟩
    insertWaveformSamples sessionId db samples

def appendWaveformSamples (sessionId : String)
    (payload : WorkspaceWaveformSamplesPayload F64) : Result Database := do
  validateIdentifier sessionId "sessionId"
  ensureSessionExists db sessionId
  validateWaveformSamples payload
  let appended ← insertWaveformSamples sessionId db payload.samples
  pure (appended.deleteOldWaveformSamples sessionId MAX_WAVEFORM_SAMPLE_GROUPS)

def applyMutation : MutationBody Json F64 → Result Database
  | .setMetadata payload => setMetadata db payload
  | .setActiveSession sessionId => setActiveSession db sessionId
  | .upsertSession sessionId payload => upsertSession db sessionId payload
  | .removeSession sessionId => removeSession db sessionId
  | .appendFrames sessionId payload => appendFrames db sessionId payload
  | .replaceCapture sessionId payload => replaceCapture db sessionId payload
  | .trimCapture sessionId payload => trimCapture db sessionId payload.frameCount
  | .upsertFeatureState entityId payload => upsertFeatureState db entityId payload
  | .replaceSessionCollections sessionId payload =>
    replaceSessionCollections db sessionId payload
  | .appendAiMessages sessionId payload => appendAiMessages db sessionId payload
  | .clearAiMessages sessionId => clearAiMessages db sessionId
  | .replaceWaveformChannels sessionId payload => replaceWaveformChannels db sessionId payload
  | .appendWaveformSamples sessionId payload => appendWaveformSamples db sessionId payload

/-! ## Limits of the whole workspace -/

/-- `JOIN sessions s ON .. WHERE s.undo_pending = 0`. -/
def Database.ofLiveSessions {ρ : Type} (key : ρ → String) (rows : List ρ) : List ρ :=
  rows.filter fun row => db.hasLiveSession (key row)

def Database.liveFrames : List FrameRow := db.ofLiveSessions FrameRow.sessionId db.frames

def Database.liveAiMessages : List AiMessageRow :=
  db.ofLiveSessions AiMessageRow.sessionId db.aiMessages

/-- `max(frame_count)` over the groups of the live frames. -/
def Database.framesPerSession : Nat :=
  let ids := db.liveFrames.map FrameRow.sessionId
  (ids.dedup.map fun id => ids.count id).foldr max 0

def validateWorkspaceLimits : Result Unit := do
  ensureLimit "sessions" db.liveSessions.length MAX_WORKSPACE_SESSIONS
  ensureLimit "frames" db.liveFrames.length MAX_WORKSPACE_FRAMES
  ensureLimit "framesPerSession" db.framesPerSession MAX_WORKSPACE_FRAMES_PER_SESSION
  ensureLimit "captureBytes" (db.liveFrames.map (·.data.length)).sum MAX_WORKSPACE_CAPTURE_BYTES
  ensureLimit "aiMessages" db.liveAiMessages.length MAX_WORKSPACE_AI_MESSAGES
  ensureLimit "aiMessageBytes" ((db.liveAiMessages.map (byteLength ·.content)).foldr max 0)
    MAX_WORKSPACE_AI_MESSAGE_BYTES
  ensureLimit "aiBytes" (db.liveAiMessages.map (byteLength ·.content)).sum MAX_WORKSPACE_AI_BYTES
  ensureLimit "pluginStateBytes" (db.pluginProjectState.map (bytes ·.state)).sum
    MAX_WORKSPACE_PLUGIN_STATE_BYTES

def applyMutationList : Database → List WorkspaceMutation → Result Database
  | db, [] => .ok db
  | db, mutation :: mutations => do
    let db ← applyMutation db mutation.body
    applyMutationList db mutations

def applyMutations (request : ApplyWorkspaceBatchRequest) : Result Database := do
  let db ← applyMutationList db request.mutations
  validateWorkspaceLimits db
  pure db

end bbcom.workspace
