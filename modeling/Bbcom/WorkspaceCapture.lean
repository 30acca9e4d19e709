-- The capture of an open workspace: the session store with the permissions that the application
-- installs in it (`bootstrap-application.ts`), and the application that hears of every change
-- (`session-store-workspace-adapter.ts`).
import Bbcom.CaptureRuns
import Bbcom.CaptureApplication

open bbcom.js bbcom.serial bbcom.contracts bbcom.write_epoch

namespace bbcom.capture

open SessionStore

/-! ## Frames of the pipelines -/

/-- What the pipelines hand to the store: bytes that came in, or the part of a payload that went
out. -/
inductive PipelineFrame
  | rx (data : Uint8Array)
  | tx (data : Uint8Array) (complete : Bool)
      (requestedBytes : { count : Nat // data.length ≤ count ∧ count ≤ MAX_SAFE_INTEGER })

def PipelineFrame.captured : PipelineFrame → CapturedFrame
  | .rx data => { direction := .RX, data, origin := some .serialRx }
  | .tx data complete requestedBytes =>
    { direction := .TX
      data
      origin := some .serialTx
      txStatus := some (if complete then .complete else .partialUnknown)
      requestedBytes := some (.finite requestedBytes.val) }

/-- What the environment gives a frame: `crypto.randomUUID()` is an identifier, and
`Date.now()` a safe integer. -/
structure FrameStamp where
  createId : { id : String // validateWorkspaceIdentifier id = some id }
  now : { millis : Nat // millis ≤ MAX_SAFE_INTEGER }

/-! ## The two sides together -/

structure WorkspaceCapture where
  store : SessionStore := {}
  application : CaptureApplication := {}

inductive WorkspaceEvent
  | openWorkspace (entries : List HydratedWorkspaceSession)
  | closeWorkspace
  | failSaves (messageKey : String)
  | createSession (uuid : RandomUuid) (runtimeOnly : Bool)
  | removeSession (sessionId : String)
  | undoLastRemovedSession
  | setMaxBufferFrames (value : JsNumber)
  | addFrame (sessionId : String) (frame : PipelineFrame) (stamp : FrameStamp)
  | updateDroppedBytes (sessionId : String) (total : JsNumber)
  | clearFrames (sessionId : String)
  | setCapturePaused (sessionId : String) (paused : Bool)

namespace WorkspaceCapture

/-- A rejected projection of a change fails the persistence closed. -/
def settle (application : CaptureApplication) :
    WorkspaceQueueOutcome CaptureApplication → CaptureApplication
  | .ok application => application
  | .error messageKey => application.rejectPersistence messageKey

def isPersistentSession (store : SessionStore) (sessionId : String) : Bool :=
  !decide (sessionId ∈ store.runtimeSessionIds)

/-- `SessionStoreWorkspaceAdapter.onChange`, for the changes of a capture. -/
def onChange (store : SessionStore) (application : CaptureApplication) :
    CaptureChange → CaptureApplication
  | .frameAdded sessionId frame =>
    if isPersistentSession store sessionId then
      settle application (application.queueCapturedFrame sessionId frame)
    else application
  | .captureTrimmed sessionId droppedFrames droppedBytes =>
    if isPersistentSession store sessionId then
      settle application (application.queueCaptureTrim sessionId droppedFrames droppedBytes)
    else application
  | .captureCleared sessionId =>
    if isPersistentSession store sessionId then
      settle application (application.queueCaptureReset sessionId)
    else application
  | .framesCleared _ => application

/-- A store behind an operation, and the application that has heard of its changes. -/
def heard (application : CaptureApplication) (result : SessionStore × List CaptureChange) :
    WorkspaceCapture where
  store := result.1
  application := result.2.foldl (onChange result.1) application

/-- The limits that hydration holds a workspace to. -/
def hydratable (entries : List HydratedWorkspaceSession) : Bool :=
  decide (entries.map (·.id)).Nodup && entries.all (fun entry => isOpaqueId entry.id.toList) &&
    decide (entries.length ≤ MAX_WORKSPACE_SESSIONS) &&
    entries.all (fun entry => entry.frames.length ≤ MAX_WORKSPACE_FRAMES_PER_SESSION) &&
    decide ((entries.map (·.frames.length)).sum ≤ MAX_WORKSPACE_FRAMES) &&
    decide ((entries.map fun entry => framesByteLength entry.frames).sum ≤
      MAX_WORKSPACE_CAPTURE_BYTES)

/-- The row that the application gives a hydrated session. -/
def hydratedRow (entry : HydratedWorkspaceSession) :
    String × CaptureAccountingRow :=
  (entry.id,
    { nextSequence := sequenceAfter entry.frames
      frameCount := entry.frames.length
      captureBytes := framesByteLength entry.frames })

variable (state : WorkspaceCapture)

/-- `canMutateUserState()`. -/
def canMutateUserState : Bool := state.application.acceptingSaveContext

def preflightRuntimeCapture (sessionId : String) (data : Uint8Array) : Bool :=
  state.application.acceptingSaveContext &&
    (state.application.preflightCapturedFrame sessionId data).isOk

def createSession (uuid : RandomUuid) (runtimeOnly : Bool) : WorkspaceCapture :=
  let sessionId := uuid.randomUUID (sessionIds state.store.sessions)
  if runtimeOnly then { state with store := state.store.addSession sessionId true }
  else if state.canMutateUserState &&
      (state.application.preflightSessionRegistration sessionId 0 0).isOk then
    { store := state.store.addSession sessionId false
      application := settle state.application (state.application.registerSession sessionId) }
  else state

/-- A session that was stored leaves the books of the application too. -/
def removeSession (sessionId : String) : WorkspaceCapture :=
  if sessionId ∈ state.store.runtimeSessionIds then
    { state with store := state.store.removeSession sessionId }
  else if state.canMutateUserState then
    { store := state.store.removeSession sessionId
      application := state.application.forgetSession sessionId }
  else state

def undoLastRemovedSession : WorkspaceCapture :=
  match state.store.lastDeletedSession with
  | none => state
  | some snapshot =>
    if (state.store.findSession snapshot.session.id).isNone && state.canMutateUserState &&
        (state.application.preflightSessionRegistration snapshot.session.id
          snapshot.session.contents.length (frameBuffersByteLength snapshot.session)).isOk then
      { store := state.store.undoLastRemovedSession true
        application := settle state.application
          (state.application.registerSession snapshot.session.id) }
    else state

def addFrame (sessionId : String) (frame : PipelineFrame) (stamp : FrameStamp) :
    WorkspaceCapture :=
  heard state.application
    (state.store.addFrame sessionId frame.captured stamp.createId.val (.finite stamp.now.val)
      (state.preflightRuntimeCapture sessionId frame.captured.data))

def step (state : WorkspaceCapture) : WorkspaceEvent → WorkspaceCapture
  | .openWorkspace entries =>
    if hydratable entries then
      { store := state.store.replaceWorkspaceSessions entries
        application := CaptureApplication.installHydratedWorkspace (entries.map hydratedRow) }
    else state
  | .closeWorkspace => { store := state.store.replaceWorkspaceSessions [], application := {} }
  | .failSaves messageKey =>
    { state with application := state.application.latchSaveFailure messageKey }
  | .createSession uuid runtimeOnly => state.createSession uuid runtimeOnly
  | .removeSession sessionId => state.removeSession sessionId
  | .undoLastRemovedSession => state.undoLastRemovedSession
  | .setMaxBufferFrames value =>
    { state with store := { state.store with maxBufferFrames := clampBufferFrames value } }
  | .addFrame sessionId frame stamp => state.addFrame sessionId frame stamp
  | .updateDroppedBytes sessionId total =>
    { state with store := state.store.updateDroppedBytes sessionId total }
  | .clearFrames sessionId =>
    heard state.application (state.store.clearFrames sessionId state.canMutateUserState)
  | .setCapturePaused sessionId paused =>
    heard state.application (state.store.setCapturePaused sessionId paused
      state.canMutateUserState)

end WorkspaceCapture

end bbcom.capture
