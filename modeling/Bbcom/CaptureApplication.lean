-- The workspace application's side of the capture (`workspace-application-service.ts`): what it
-- admits, the books of what it has admitted, and the commands that it hands to the save queues.
import Bbcom.CaptureAccounting
import Bbcom.DataFrame
import Bbcom.WorkspaceValidation

open bbcom.js bbcom.serial bbcom.contracts bbcom.write_epoch

namespace bbcom.capture

/-! ## The stored form of a frame -/

structure WorkspaceQueuedFramePayload where
  id : String
  direction : serial.Direction
  timestampMs : Nat
  data : Uint8Array
  txStatus : Option TxStatus
  requestedBytes : Option Nat
  omittedBytes : Option Nat
  deriving DecidableEq

/-- The pattern of an identifier is that of an opaque id. -/
def validateWorkspaceIdentifier (value : String) : Option String := validateOpaqueId value

def validNonNegativeInteger (value : JsNumber) : Option Nat :=
  integerBetween value 0 MAX_SAFE_INTEGER

/-- What throws is `none`. -/
def optionalNonNegativeInteger : Option JsNumber → Option (Option Nat)
  | none => some none
  | some value => (validNonNegativeInteger value).map some

def projectWorkspaceFrame (frame : DataFrame) : Option WorkspaceQueuedFramePayload :=
  match validateWorkspaceIdentifier frame.id, validNonNegativeInteger frame.timestamp,
    optionalNonNegativeInteger frame.requestedBytes,
    optionalNonNegativeInteger frame.omittedBytes with
  | some id, some timestampMs, some requestedBytes, some omittedBytes =>
    if frame.data.length > MAX_WORKSPACE_FRAME_BYTES then none
    else if requestedBytes.any (· < frame.data.length) then none
    else if frame.direction = .RX ∧ (frame.txStatus.isSome ∨ requestedBytes.isSome) then none
    else some
      { id
        direction := frame.direction
        timestampMs
        data := frame.data
        txStatus := frame.txStatus
        requestedBytes
        omittedBytes }
  | _, _, _, _ => none

structure PendingFrame where
  sessionId : String
  sequence : Nat
  payload : WorkspaceQueuedFramePayload
  deriving DecidableEq

/-! ## The application -/

/-- What the save queues take from the capture. -/
inductive CaptureCommand
  | appendFrame (frame : PendingFrame)
  | trimCapture (sessionId : String) (frameCount : Nat)
  | replaceCapture (sessionId : String)
  deriving DecidableEq

structure UndoCaptureState where
  sessionId : String
  nextSequence : Nat
  frameCount : Int
  captureBytes : Int
  deriving DecidableEq

structure CaptureApplication where
  captureAccounting : CaptureAccountingStore := {}
  undoCaptureState : Option UndoCaptureState := none
  /-- A workspace is open, and no other one is on its way. -/
  current : Bool := false
  lastSaveFailure : Option String := none
  /-- What the save queues took, in order. -/
  accepted : List CaptureCommand := []

/-- A rejection carries its message key. -/
abbrev WorkspaceQueueOutcome (α : Type) := Except String α

namespace CaptureApplication

variable (application : CaptureApplication)

def acceptingSaveContext : Bool := application.current && application.lastSaveFailure.isNone

def queueRejectionMessage : String :=
  application.lastSaveFailure.getD "workspace.no_active_project"

/-- The open workspace has a failure latched from now on. -/
def latchSaveFailure (messageKey : String) : CaptureApplication :=
  { application with lastSaveFailure := some (application.lastSaveFailure.getD messageKey) }

def rejectPersistence (messageKey : String) : CaptureApplication :=
  if application.lastSaveFailure.isSome then application
  else application.latchSaveFailure messageKey

/-! ## Frames -/

def frameCountOf (sessionId : String) : Int :=
  ((application.captureAccounting.sessionTotals sessionId).map (·.frameCount)).getD 0

/-- One more frame of that many bytes would go past a limit of the workspace. -/
def exceedsLimits (sessionId : String) (bytes : Nat) : Bool :=
  decide (application.frameCountOf sessionId + 1 > MAX_WORKSPACE_FRAMES_PER_SESSION) ||
    decide (application.captureAccounting.workspaceFrameCount + 1 > MAX_WORKSPACE_FRAMES) ||
    decide (application.captureAccounting.workspaceCaptureBytes + bytes >
      MAX_WORKSPACE_CAPTURE_BYTES)

/-- The direction of a frame is one of two, and its data are bytes. -/
def preflightCapturedFrame (sessionId : String) (data : Uint8Array) :
    WorkspaceQueueOutcome Unit :=
  if !application.acceptingSaveContext then .error application.queueRejectionMessage
  else if !application.captureAccounting.hasSession sessionId ∨
      data.length > MAX_WORKSPACE_FRAME_BYTES then .error "workspace.capture.invalid"
  else if application.exceedsLimits sessionId data.length then
    .error "workspace.capture.limit_exceeded"
  else .ok ()

def queueCapturedFrame (sessionId : String) (frame : DataFrame) :
    WorkspaceQueueOutcome CaptureApplication :=
  if !application.acceptingSaveContext then .error application.queueRejectionMessage
  else
    match application.captureAccounting.sessionTotals sessionId with
    | none => .error "workspace.capture.invalid_session"
    | some totals =>
      if totals.nextSequence + 1 > MAX_SAFE_INTEGER then
        .error "workspace.capture.sequence_exhausted"
      else
        match projectWorkspaceFrame frame with
        | none => .error "workspace.capture.invalid"
        | some payload =>
          if application.exceedsLimits sessionId payload.data.length then
            .error "workspace.capture.limit_exceeded"
          else .ok
            { application with
              captureAccounting := (application.captureAccounting.setNextFrameSequence sessionId
                (totals.nextSequence + 1)).recordFrames sessionId 1 payload.data.length
              accepted := application.accepted ++
                [.appendFrame ⟨sessionId, totals.nextSequence, payload⟩] }

def queueCaptureTrim (sessionId : String) (droppedFrames droppedBytes : Nat) :
    WorkspaceQueueOutcome CaptureApplication :=
  if !application.acceptingSaveContext then .error application.queueRejectionMessage
  else
    match application.captureAccounting.sessionTotals sessionId with
    | none => .error "workspace.capture.invalid_trim"
    | some totals =>
      if droppedFrames < 1 ∨ droppedFrames > totals.frameCount ∨ droppedFrames > 0xffffffff ∨
          droppedBytes > totals.captureBytes then .error "workspace.capture.invalid_trim"
      else .ok
        { application with
          captureAccounting := application.captureAccounting.recordFrames sessionId
            (-droppedFrames) (-droppedBytes)
          accepted := application.accepted ++ [.trimCapture sessionId droppedFrames] }

def queueCaptureReset (sessionId : String) : WorkspaceQueueOutcome CaptureApplication :=
  if !application.acceptingSaveContext ∨ !application.captureAccounting.hasSession sessionId then
    .error application.queueRejectionMessage
  else .ok
    { application with
      captureAccounting := application.captureAccounting.resetSession sessionId
      accepted := application.accepted ++ [.replaceCapture sessionId] }

/-! ## Sessions -/

/-- The capture that an undo of the removal of that session brings back. -/
def restoredCapture (sessionId : String) : Option UndoCaptureState :=
  application.undoCaptureState.filter (·.sessionId = sessionId)

/-- A new session brings no capture, and a restored one the capture it left with. -/
def bringsItsCapture (sessionId : String) (frameCount captureBytes : Int) : Bool :=
  match application.restoredCapture sessionId with
  | some restored =>
    decide (restored.frameCount = frameCount) && decide (restored.captureBytes = captureBytes)
  | none => decide (frameCount = 0) && decide (captureBytes = 0)

def preflightSessionRegistration (sessionId : String) (frameCount captureBytes : Int) :
    WorkspaceQueueOutcome Unit :=
  if !application.acceptingSaveContext then .error application.queueRejectionMessage
  else if !isOpaqueId sessionId.toList ∨ application.captureAccounting.hasSession sessionId ∨
      frameCount < 0 ∨ frameCount > MAX_SAFE_INTEGER ∨ captureBytes < 0 ∨
      captureBytes > MAX_SAFE_INTEGER then .error "workspace.capture.invalid_session"
  else if !application.bringsItsCapture sessionId frameCount captureBytes then
    .error "workspace.capture.invalid_restore"
  else if application.captureAccounting.sessionCount + 1 > MAX_WORKSPACE_SESSIONS ∨
      frameCount > MAX_WORKSPACE_FRAMES_PER_SESSION ∨
      application.captureAccounting.workspaceFrameCount + frameCount > MAX_WORKSPACE_FRAMES ∨
      application.captureAccounting.workspaceCaptureBytes + captureBytes >
        MAX_WORKSPACE_CAPTURE_BYTES then .error "workspace.capture.limit_exceeded"
  else .ok ()

/-- The row that a session is registered with. -/
def registrationOf (sessionId : String) : CaptureAccountingRow :=
  match application.restoredCapture sessionId with
  | some restored => ⟨restored.nextSequence, restored.frameCount, restored.captureBytes⟩
  | none => {}

def registerSession (sessionId : String) : WorkspaceQueueOutcome CaptureApplication :=
  if application.captureAccounting.hasSession sessionId then .ok application
  else
    match application.preflightSessionRegistration sessionId
        (application.registrationOf sessionId).frameCount
        (application.registrationOf sessionId).captureBytes with
    | .error messageKey => .error messageKey
    | .ok () => .ok
      { application with
        captureAccounting := application.captureAccounting.registerSession sessionId
          (application.registrationOf sessionId)
        undoCaptureState := if (application.restoredCapture sessionId).isSome then none
          else application.undoCaptureState }

def forgetSession (sessionId : String) : CaptureApplication :=
  match application.captureAccounting.sessionTotals sessionId with
  | none => application
  | some removed =>
    { application with
      captureAccounting := application.captureAccounting.removeSession sessionId
      undoCaptureState := some
        ⟨sessionId, removed.nextSequence, removed.frameCount, removed.captureBytes⟩ }

/-- A workspace with that capture is open from now on. -/
def installHydratedWorkspace (entries : List (String × CaptureAccountingRow)) :
    CaptureApplication where
  captureAccounting := CaptureAccountingStore.replaceWorkspace entries
  current := true

end CaptureApplication

end bbcom.capture
