-- The tables of a workspace file (`schema.rs`) and the statements that the mutations run
-- on them. A table is the list of its rows in the order of their row ids; a `CHECK` that
-- an earlier validation already implies is left out.
import Bbcom.Lib.Retention
import Bbcom.WorkspaceContracts

open bbcom.js bbcom.contracts

namespace bbcom.workspace

inductive WorkspaceError
  | invalidInput (field : String)
  | limitExceeded (field : String) (limit actual : Nat)
  | readOnly
  | revisionConflict (expected actual : Nat)
  | corrupt (reason : String)
  | batchIdReuse
  | busy
  | io
  | database
  deriving DecidableEq

abbrev Result := Except WorkspaceError

/-! ## Rows -/

structure WorkspaceMeta where
  workspaceId : String
  name : String
  createdAtMs : Nat
  updatedAtMs : Nat
  revision : Nat
  activeSessionId : Option String
  layoutJson : List Char

structure SessionRow where
  id : String
  sortOrder : UInt32
  kind : WorkspaceSessionKind
  name : String
  lastPortHintJson : Option (List Char)
  portConfigJson : List Char
  documentJson : List Char
  undoPending : Bool

structure SessionPreferencesRow where
  sessionId : String
  displayJson : List Char
  sendJson : List Char
  parserJson : List Char
  featureStateJson : List Char

/-- A row of `modbus_config` or of `mcumgr_config`. -/
structure SessionConfigRow where
  sessionId : String
  configJson : List Char

structure FrameRow where
  sessionId : String
  seq : Nat
  id : String
  direction : Direction
  timestampMs : Nat
  data : Uint8Array
  txStatus : Option String
  requestedBytes : Option Nat
  omittedBytes : Option Nat
  deriving DecidableEq

structure SendHistoryRow where
  sessionId : String
  position : Nat
  entry : WorkspaceSendHistoryEntry

structure QuickCommandRow where
  sessionId : String
  position : Nat
  command : WorkspaceQuickCommand

structure MacroRow where
  sessionId : String
  position : Nat
  id : String
  name : String
  ownerPluginId : Option String

structure MacroStepRow where
  sessionId : String
  macroId : String
  position : Nat
  step : WorkspaceMacroStep

/-- A row of `triggers`, `highlights` or `modbus_registers`. -/
structure ConfigRow where
  sessionId : String
  id : String
  position : Nat
  configJson : List Char

structure WaveformChannelRow where
  sessionId : String
  channelIndex : UInt8
  configJson : List Char

structure WaveformSampleRow where
  sessionId : String
  channelIndex : UInt8
  seq : Nat
  timestampMs : Nat
  value : F64

structure AiMessageRow where
  sessionId : String
  position : Nat
  id : String
  role : WorkspaceAiRole
  content : String
  timestampMs : Nat

structure PluginBindingRow where
  pluginId : String
  repositoryOrigin : String
  versionRequirement : String
  expectedEnabled : Bool

structure PluginStateRow where
  pluginId : String
  state : List Char

structure CommittedBatchRow where
  clientBatchId : String
  requestHash : List UInt8
  baseRevision : Nat
  committedRevision : Nat
  mutationCount : Nat
  committedAtMs : Nat

structure Database where
  workspaceMeta : WorkspaceMeta
  sessions : List SessionRow := []
  sessionPreferences : List SessionPreferencesRow := []
  captureStats : List String := []
  modbusConfig : List SessionConfigRow := []
  mcumgrConfig : List SessionConfigRow := []
  frames : List FrameRow := []
  sendHistory : List SendHistoryRow := []
  quickCommands : List QuickCommandRow := []
  macros : List MacroRow := []
  macroSteps : List MacroStepRow := []
  triggers : List ConfigRow := []
  highlights : List ConfigRow := []
  modbusRegisters : List ConfigRow := []
  waveformChannels : List WaveformChannelRow := []
  waveformSamples : List WaveformSampleRow := []
  aiMessages : List AiMessageRow := []
  pluginBindings : List PluginBindingRow := []
  pluginProjectState : List PluginStateRow := []
  committedBatches : List CommittedBatchRow := []

/-! ## Statements -/

/-- `length` of SQL: the characters in front of the first NUL. -/
def sqlLength (text : String) : Nat := (text.toList.takeWhile (· ≠ '\x00')).length

/-- `if condition { return Err(error) }`. -/
def refuseIf (condition : Prop) [Decidable condition] (error : WorkspaceError) : Result Unit :=
  if condition then .error error else .ok ()

theorem refuseIf_ok {condition : Prop} [Decidable condition] {error : WorkspaceError} {u : Unit} :
    refuseIf condition error = .ok u ↔ ¬condition := by
  unfold refuseIf
  split <;> simp_all

/-- `i64::try_from` of an unsigned number. -/
def i64OfNat (n : Nat) (field : String) : Result Nat :=
  if n < 2 ^ 63 then .ok n else .error (.invalidInput field)

theorem i64OfNat_ok {n m : Nat} {field : String} :
    i64OfNat n field = .ok m ↔ n < 2 ^ 63 ∧ m = n := by
  unfold i64OfNat
  split <;> simp_all [eq_comm]

namespace Database

variable (db : Database)

def liveSessions : List SessionRow := db.sessions.filter (!·.undoPending)

/-- `EXISTS(SELECT 1 FROM sessions WHERE id = ?1 AND undo_pending = 0)`. -/
def hasLiveSession (sessionId : String) : Bool :=
  db.sessions.any fun s => s.id = sessionId && !s.undoPending

/-- `DELETE FROM sessions`, with the rows that go with a session by `ON DELETE CASCADE` and
the active session by `ON DELETE SET NULL`. -/
def deleteSessions (gone : SessionRow → Bool) : Database :=
  let ids := (db.sessions.filter gone).map SessionRow.id
  { db with
    workspaceMeta := { db.workspaceMeta with
      activeSessionId := db.workspaceMeta.activeSessionId.filter (!ids.contains ·) }
    sessions := db.sessions.filter (!gone ·)
    sessionPreferences := db.sessionPreferences.filter fun r => !ids.contains r.sessionId
    captureStats := db.captureStats.filter fun id => !ids.contains id
    modbusConfig := db.modbusConfig.filter fun r => !ids.contains r.sessionId
    mcumgrConfig := db.mcumgrConfig.filter fun r => !ids.contains r.sessionId
    frames := db.frames.filter fun r => !ids.contains r.sessionId
    sendHistory := db.sendHistory.filter fun r => !ids.contains r.sessionId
    quickCommands := db.quickCommands.filter fun r => !ids.contains r.sessionId
    macros := db.macros.filter fun r => !ids.contains r.sessionId
    macroSteps := db.macroSteps.filter fun r => !ids.contains r.sessionId
    triggers := db.triggers.filter fun r => !ids.contains r.sessionId
    highlights := db.highlights.filter fun r => !ids.contains r.sessionId
    modbusRegisters := db.modbusRegisters.filter fun r => !ids.contains r.sessionId
    waveformChannels := db.waveformChannels.filter fun r => !ids.contains r.sessionId
    waveformSamples := db.waveformSamples.filter fun r => !ids.contains r.sessionId
    aiMessages := db.aiMessages.filter fun r => !ids.contains r.sessionId }

/-- `INSERT INTO frames`: one row for a sequence number, and one for an id. -/
def insertFrame (row : FrameRow) : Result Database :=
  if db.frames.any fun r => r.sessionId = row.sessionId && (r.seq = row.seq || r.id = row.id)
  then .error .database
  else .ok { db with frames := db.frames ++ [row] }

def deleteFrames (sessionId : String) : Database :=
  { db with frames := db.frames.filter (·.sessionId ≠ sessionId) }

/-- The rows of a session. -/
def sessionFrames (sessionId : String) : List FrameRow :=
  db.frames.filter (·.sessionId = sessionId)

/-- `SELECT seq FROM frames WHERE session_id = ?1 ORDER BY seq LIMIT ?2`. -/
def oldestFrameSeqs (sessionId : String) (limit : Nat) : List Nat :=
  (((db.sessionFrames sessionId).map FrameRow.seq).mergeSort (· ≤ ·)).take limit

def deleteOldestFrames (sessionId : String) (limit : Nat) : Database :=
  let oldest := db.oldestFrameSeqs sessionId limit
  { db with
    frames := db.frames.filter fun r => !(r.sessionId = sessionId && oldest.contains r.seq) }

def sessionAiMessages (sessionId : String) : List AiMessageRow :=
  db.aiMessages.filter (·.sessionId = sessionId)

def insertAiMessage (row : AiMessageRow) : Result Database :=
  if db.aiMessages.any fun r =>
    r.sessionId = row.sessionId && (r.position = row.position || r.id = row.id)
  then .error .database
  else .ok { db with aiMessages := db.aiMessages ++ [row] }

/-- `DELETE FROM waveform_channels`: the samples go with their channel. -/
def deleteWaveformChannels (sessionId : String) : Database :=
  { db with
    waveformChannels := db.waveformChannels.filter (·.sessionId ≠ sessionId)
    waveformSamples := db.waveformSamples.filter fun r =>
      !(db.waveformChannels.any fun c =>
        c.sessionId = sessionId && c.sessionId = r.sessionId && c.channelIndex = r.channelIndex) }

def insertWaveformChannel (row : WaveformChannelRow) : Result Database :=
  if db.waveformChannels.any fun r =>
    r.sessionId = row.sessionId && r.channelIndex = row.channelIndex
  then .error .database
  else .ok { db with waveformChannels := db.waveformChannels ++ [row] }

def hasWaveformChannel (sessionId : String) (channelIndex : UInt8) : Bool :=
  db.waveformChannels.any fun r => r.sessionId = sessionId && r.channelIndex = channelIndex

def insertWaveformSample (row : WaveformSampleRow) : Result Database :=
  if db.waveformSamples.any fun r =>
    r.sessionId = row.sessionId && r.channelIndex = row.channelIndex && r.seq = row.seq
  then .error .database
  else .ok { db with waveformSamples := db.waveformSamples ++ [row] }

def sessionSamples (sessionId : String) : List WaveformSampleRow :=
  db.waveformSamples.filter (·.sessionId = sessionId)

/-- `DELETE .. WHERE session_id = ?1 AND seq NOT IN (SELECT seq .. WHERE session_id = ?1
GROUP BY seq ORDER BY seq DESC LIMIT ?2)`. -/
def deleteOldWaveformSamples (sessionId : String) (limit : Nat) : Database :=
  let newest := retention.newest limit ((db.sessionSamples sessionId).map WaveformSampleRow.seq)
  { db with
    waveformSamples := db.waveformSamples.filter fun r =>
      !(r.sessionId = sessionId && !newest.contains r.seq) }

end Database

end bbcom.workspace
