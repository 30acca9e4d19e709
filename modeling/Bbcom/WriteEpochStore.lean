-- The write epochs among what surrounds them: the commands of the native side, the workspaces
-- that it keeps, and the calls and answers in flight. A call may be handled at any time after
-- it was made, also more than once; an answer may come at any time, or get lost.
import Bbcom.WorkspaceLedger
import Bbcom.WriteEpochSteps

open bbcom.js bbcom.json bbcom.contracts bbcom.workspace

namespace bbcom.write_epoch

open Function

/-! ## The transport -/

/-- What writing down and reading back make of the values that the contract leaves open. -/
structure Ipc where
  document : JsValue → Json
  value : JsNumber → F64
  layout : Json → JsValue

namespace Ipc

variable (ipc : Ipc)

def configRow (row : WorkspaceConfigRow JsValue) : WorkspaceConfigRow Json :=
  ⟨row.id, ipc.document row.config⟩

def deserializeFrames (frames : List WorkspaceFramePayload) : Option (List WorkspaceFramePayload) :=
  frames.mapM fun frame => frame.deserialize.toOption

def deserializeBody : MutationBody JsValue JsNumber → Option (MutationBody Json F64)
  | .setMetadata payload =>
    some (.setMetadata ⟨payload.name, payload.layout.map ipc.document, payload.updatedAtMs⟩)
  | .setActiveSession sessionId => some (.setActiveSession sessionId)
  | .upsertSession sessionId payload =>
    some (.upsertSession sessionId
      { name := payload.name
        sortOrder := payload.sortOrder
        kind := payload.kind
        lastPortHint := payload.lastPortHint
        portConfig := ipc.document payload.portConfig
        document := ipc.document payload.document })
  | .removeSession sessionId => some (.removeSession sessionId)
  | .appendFrames sessionId payload =>
    (deserializeFrames payload.frames).map fun frames =>
      .appendFrames sessionId ⟨payload.startSeq, frames⟩
  | .replaceCapture sessionId payload =>
    (deserializeFrames payload.frames).map fun frames => .replaceCapture sessionId ⟨frames⟩
  | .trimCapture sessionId payload => some (.trimCapture sessionId payload)
  | .upsertFeatureState entityId payload =>
    some (.upsertFeatureState entityId ⟨payload.feature, ipc.document payload.state⟩)
  | .replaceSessionCollections sessionId payload =>
    some (.replaceSessionCollections sessionId
      { sendHistory := payload.sendHistory
        quickCommands := payload.quickCommands
        macros := payload.macros
        triggers := payload.triggers.map ipc.configRow
        highlights := payload.highlights.map ipc.configRow
        modbusRegisters := payload.modbusRegisters.map ipc.configRow })
  | .appendAiMessages sessionId payload => some (.appendAiMessages sessionId payload)
  | .clearAiMessages sessionId => some (.clearAiMessages sessionId)
  | .replaceWaveformChannels sessionId payload =>
    some (.replaceWaveformChannels sessionId
      ⟨payload.channels.map fun channel =>
        ⟨channel.channelIndex, ipc.document channel.config⟩⟩)
  | .appendWaveformSamples sessionId payload =>
    some (.appendWaveformSamples sessionId
      ⟨payload.samples.map fun sample =>
        ⟨sample.channelIndex, sample.seq, sample.timestampMs, ipc.value sample.value⟩⟩)

/-- A sequence number that does not fit the type of the contract refuses the request. -/
def deserializeMutation (mutation : SequencedMutation) : Option WorkspaceMutation :=
  if mutation.sequence < 2 ^ 32 then
    (ipc.deserializeBody mutation.body).map fun body => ⟨UInt32.ofNat mutation.sequence, body⟩
  else none

def deserialize (request : WriteRequest) : Option ApplyWorkspaceBatchRequest :=
  if request.baseRevision < 2 ^ 64 then
    (request.mutations.mapM ipc.deserializeMutation).map fun mutations =>
      { workspaceId := request.workspaceId
        clientBatchId := request.clientBatchId
        baseRevision := UInt64.ofNat request.baseRevision
        mutations }
  else none

/-- The header of a document as the renderer gets it. -/
def header (header : WorkspaceDocumentHeader) : WorkspaceHeader where
  workspaceId := header.workspaceId
  name := header.name
  revision := .finite header.revision
  activeSessionId := header.activeSessionId
  sessionIds := header.sessionIds
  layout := ipc.layout header.layout

end Ipc

def saveHealthText : WorkspaceSaveHealth → String
  | .clean => "clean"
  | .pending => "pending"
  | .saving => "saving"
  | .degraded => "degraded"
  | .readOnly => "readOnly"

/-! ## The native side -/

/-- `flush`: the revision and the save health, and what becomes of the health of the service. -/
def flushService (fromStr : List Char → Option Json) (env : Surroundings)
    (service : WorkspaceService) (targetRevision : Nat) :
    Result (Nat × WorkspaceSaveHealth) × WorkspaceService :=
  match readHeader fromStr service.db with
  | .error error => (.error error, service)
  | .ok header =>
    if header.revision < targetRevision then
      (.error (.revisionConflict targetRevision header.revision), service)
    else if service.readOnly then (.ok (header.revision, .readOnly), service)
    else
      let healthy := env.checkpointOk && (validateDatabaseSize env.finalSize).toBool
      let saveHealth : WorkspaceSaveHealth := if healthy then .clean else .degraded
      (.ok (header.revision, saveHealth), { service with saveHealth })

/-! ## The world -/

/-- A call of the port. -/
inductive PortCall
  | apply (request : WriteRequest)
  | flush (workspaceId : String) (targetRevision : Nat)

/-- An answer of the native side. -/
inductive Reply
  | applied (response : ApplyWorkspaceBatchResponse)
  | flushed (committedRevision : Nat) (saveHealth : WorkspaceSaveHealth)

/-- How the promise of the call settles. -/
def Reply.settles : Reply → Engine.Answer
  | .applied response => .applied (.ok ⟨response.clientBatchId, .finite response.committedRevision⟩)
  | .flushed committedRevision saveHealth =>
    .flushed (.ok ⟨.finite committedRevision, saveHealthText saveHealth⟩)

/-- The engine, the workspaces, and what is in flight between them. `waiting` is the call that
an epoch waits for; `handled` are the batches that reached a workspace. -/
structure World where
  engine : Engine := .new
  library : String → Option WorkspaceService := fun _ => none
  opened : Option String := none
  headers : List (WorkspaceDocumentHeader × WorkspaceSaveHealth) := []
  calls : List PortCall := []
  waiting : Nat → Option Nat := fun _ => none
  answers : List (Nat × Reply) := []
  handled : List ApplyWorkspaceBatchRequest := []

inductive WorldEvent
  | create (request : CreateWorkspaceRequest)
  | open_ (workspaceId : String)
  | activate (answer : Nat)
  | remove
  | commitBatch (commands : List (MutationBody JsValue JsNumber)) (batchId : Option String)
  | flush
  | start (epoch : Nat)
  | handle (call : Nat) (env : Surroundings)
  | answer (epoch : Nat) (answer : Nat)
  | fail (epoch : Nat) (error : PortError)

/-- What the code around the model is. -/
structure Native where
  ipc : Ipc
  hash : ApplyWorkspaceBatchRequest → List UInt8
  fromStr : List Char → Option Json

namespace World

variable (native : Native) (w : World)

/-- The workspace is opened and its header sent back, where it can be read. -/
def openService (workspaceId : String) (service : WorkspaceService) : World :=
  match readHeader native.fromStr service.db with
  | .error _ => w
  | .ok header =>
    { w with
      library := update w.library workspaceId (some service)
      opened := some workspaceId
      headers := w.headers ++ [(header, service.saveHealth)] }

/-- `create_workspace`. A workspace that is there already is not made again. -/
def create (request : CreateWorkspaceRequest) : World :=
  match w.library request.workspaceId, createWorkspace request with
  | none, .ok service => w.openService native request.workspaceId service
  | _, _ => w

/-- `open_workspace`. -/
def open_ (workspaceId : String) : World :=
  match w.library workspaceId with
  | some service =>
    w.openService native workspaceId
      { service with saveHealth := if service.readOnly then .readOnly else .clean }
  | none => w

/-- The answer to an activation arrives. -/
def activate (answer : Nat) : World :=
  match w.headers[answer]? with
  | some (header, saveHealth) =>
    match sanitizeHeader (native.ipc.header header) with
    | some active => { w with engine := step w.engine (.activate { active with saveHealth }) }
    | none => w
  | none => w

/-- The call that stands behind an await. -/
def callOf (e : Engine) (epoch : Nat) : AwaitPoint → PortCall
  | .applying ticket baseRevision => .apply (ticket.request baseRevision)
  | .flushing targetRevision => .flush (e.epochs epoch).workspaceId targetRevision

/-- The start of a task, with the call that it makes. -/
def start (epoch : Nat) : World :=
  let engine := step w.engine (.start epoch)
  match (w.engine.epochs epoch).running, (engine.epochs epoch).running with
  | none, some point =>
    { w with
      engine
      calls := w.calls ++ [callOf engine epoch point]
      waiting := update w.waiting epoch (some w.calls.length) }
  | _, _ => { w with engine }

/-- A command of the native side, for the workspace that is open. -/
def handle (call : Nat) (env : Surroundings) : World :=
  match w.calls[call]? with
  | some (.apply request) =>
    match native.ipc.deserialize request with
    | none => w
    | some request =>
      if w.opened ≠ some request.workspaceId then w
      else
        match w.library request.workspaceId with
        | none => w
        | some service =>
          let (result, service) := applyBatch native.hash env service request
          { w with
            library := update w.library request.workspaceId (some service)
            handled := w.handled ++ [request]
            answers := match result with
              | .ok response => w.answers ++ [(call, .applied response)]
              | .error _ => w.answers }
  | some (.flush workspaceId targetRevision) =>
    if w.opened ≠ some workspaceId then w
    else
      match w.library workspaceId with
      | none => w
      | some service =>
        let (result, service) := flushService native.fromStr env service targetRevision
        { w with
          library := update w.library workspaceId (some service)
          answers := match result with
            | .ok (committedRevision, saveHealth) =>
              w.answers ++ [(call, .flushed committedRevision saveHealth)]
            | .error _ => w.answers }
  | none => w

/-- An answer arrives at the epoch that waits for it. -/
def answer (epoch index : Nat) : World :=
  match w.answers[index]? with
  | some (call, reply) =>
    if w.waiting epoch = some call then
      { w with engine := step w.engine (.settle epoch reply.settles) }
    else w
  | none => w

/-- The call of an epoch fails: an error of the native side, or a lost answer. -/
def fail (epoch : Nat) (error : PortError) : World :=
  match (w.engine.epochs epoch).running with
  | some (.applying _ _) =>
    { w with engine := step w.engine (.settle epoch (.applied (.error error))) }
  | some (.flushing _) =>
    { w with engine := step w.engine (.settle epoch (.flushed (.error error))) }
  | none => w

def step : WorldEvent → World
  | .create request => w.create native request
  | .open_ workspaceId => w.open_ native workspaceId
  | .activate answer => w.activate native answer
  | .remove => { w with engine := write_epoch.step w.engine .remove }
  | .commitBatch commands batchId =>
    { w with engine := write_epoch.step w.engine (.commitBatch commands batchId) }
  | .flush => { w with engine := write_epoch.step w.engine .flush }
  | .start epoch => w.start epoch
  | .handle call env => w.handle native call env
  | .answer epoch answer => w.answer epoch answer
  | .fail epoch error => w.fail epoch error

end World

end bbcom.write_epoch
