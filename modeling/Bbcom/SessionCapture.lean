-- The capture of all sessions (`session-capture-controller.ts`) and the session store around it
-- (`session-store.ts`): frames come in and are trimmed, captures are paused and cleared, sessions
-- come and go. Each operation gives the store behind it and what its listeners hear.
import Bbcom.SessionFrames

open bbcom.js bbcom.serial bbcom.ordered_map

namespace bbcom.capture

def MAX_FRAMES : Nat := 10000
def MIN_BUFFER_FRAMES : Nat := 1000
def MAX_BUFFER_FRAMES : Nat := 100000

/-- `Number.isFinite(value) ? Math.floor(value) : fallback`. -/
def floorOr (value : JsNumber) (fallback : Int) : Int :=
  if h : value.isFinite then ⌊FiniteNumber.toRat ⟨value, h⟩⌋ else fallback

/-- What `setMaxBufferFrames` makes of a setting. -/
def clampBufferFrames (value : JsNumber) : Nat :=
  max MIN_BUFFER_FRAMES (min (MAX_BUFFER_FRAMES : Int) (floorOr value MAX_FRAMES)).toNat

/-- A frame as the pipelines hand it to `addFrame`. -/
structure CapturedFrame where
  direction : Direction
  data : Uint8Array
  timestamp : Option JsNumber := none
  captureSeq : Option Nat := none
  origin : Option CaptureOrigin := none
  contentVersion : Option Nat := none
  omittedBytes : Option JsNumber := none
  txStatus : Option TxStatus := none
  requestedBytes : Option JsNumber := none

/-- What the listeners of the store hear. -/
inductive CaptureChange
  | frameAdded (sessionId : String) (frame : DataFrame)
  | captureTrimmed (sessionId : String) (droppedFrames droppedBytes : Nat)
  | framesCleared (sessionId : String)
  | captureCleared (sessionId : String)
  deriving DecidableEq

structure DeletedSessionSnapshot where
  session : SerialSession
  index : Nat

structure SessionStore where
  sessions : List SerialSession := []
  accounting : CaptureAccountingStore := {}
  rxQueueDroppedBytes : OrderedMap String Nat := []
  frameBufferDroppedBytes : OrderedMap String Nat := []
  maxBufferFrames : Nat := MAX_FRAMES
  runtimeSessionIds : List String := []
  lastDeletedSession : Option DeletedSessionSnapshot := none

namespace SessionStore

variable (store : SessionStore)

def findSession (sessionId : String) : Option SerialSession :=
  store.sessions.find? (·.id = sessionId)

def updateSession (sessionId : String) (update : SerialSession → SerialSession) : SessionStore :=
  { store with sessions := modifyKey SerialSession.id sessionId update store.sessions }

/-! ## Sessions come and go -/

/-- `Math.max(0, maxCaptureSeq(session) + 1)`. -/
def sequenceAfter (frames : List DataFrame) : Nat :=
  frames.foldl (fun next frame => max next ((frame.captureSeq.map (· + 1)).getD 0)) 0

def initializeSession (session : SerialSession) : SessionStore :=
  { store with
    accounting := store.accounting.registerSession session.id
      { nextSequence := sequenceAfter session.contents
        captureBytes := frameBuffersByteLength session }
    rxQueueDroppedBytes := store.rxQueueDroppedBytes.set session.id 0
    frameBufferDroppedBytes := store.frameBufferDroppedBytes.set session.id 0 }

/-- `SessionCaptureController.removeSession`. -/
def forgetCapture (sessionId : String) : SessionStore :=
  { store with
    accounting := store.accounting.removeSession sessionId
    rxQueueDroppedBytes := store.rxQueueDroppedBytes.delete sessionId
    frameBufferDroppedBytes := store.frameBufferDroppedBytes.delete sessionId }

def replaceSessions (sessions : List SerialSession) : SessionStore :=
  sessions.foldl initializeSession
    { store with accounting := {}, rxQueueDroppedBytes := [], frameBufferDroppedBytes := [] }

/-- A copy of a session that is not connected. -/
def cloneStoppedSession (session : SerialSession) : SerialSession :=
  { session with droppedBytes := 0 }

def addSession (sessionId : String) (runtimeOnly : Bool) : SessionStore :=
  initializeSession
    { store with
      sessions := store.sessions ++ [{ id := sessionId }]
      runtimeSessionIds :=
        if runtimeOnly then store.runtimeSessionIds ++ [sessionId] else store.runtimeSessionIds }
    { id := sessionId }

def removeSession (sessionId : String) : SessionStore :=
  match store.findSession sessionId with
  | none => store
  | some session =>
    { store.forgetCapture sessionId with
      sessions := store.sessions.filter (·.id ≠ sessionId)
      runtimeSessionIds := store.runtimeSessionIds.filter (· ≠ sessionId)
      lastDeletedSession :=
        if sessionId ∈ store.runtimeSessionIds then none
        else some ⟨cloneStoppedSession session, store.sessions.findIdx (·.id = sessionId)⟩ }

/-- `admitted` is the answer of the registration preflight. -/
def undoLastRemovedSession (admitted : Bool) : SessionStore :=
  match store.lastDeletedSession with
  | none => store
  | some snapshot =>
    if (store.findSession snapshot.session.id).isSome || !admitted then store
    else
      initializeSession
        { store with
          sessions := store.sessions.insertIdx (min snapshot.index store.sessions.length)
            (cloneStoppedSession snapshot.session)
          lastDeletedSession := none }
        (cloneStoppedSession snapshot.session)

/-- A session as hydration brings it: its stored frames, with their totals, and no pause. -/
structure HydratedWorkspaceSession where
  id : String
  frames : List DataFrame

/-- `countFrameTotals` counts the frames as `addFrame` counted them. -/
def hydratedSession (entry : HydratedWorkspaceSession) : SerialSession :=
  entry.frames.foldl countFrame { id := entry.id, frames := entry.frames }

/-- Entries without an identity, or with one twice, are refused as a whole. -/
def replaceWorkspaceSessions (entries : List HydratedWorkspaceSession) : SessionStore :=
  if (entries.map (·.id)).Nodup ∧ ∀ entry ∈ entries, entry.id ≠ "" then
    let sessions := entries.map fun entry => cloneStoppedSession (hydratedSession entry)
    { store.replaceSessions sessions with
      sessions
      runtimeSessionIds := []
      lastDeletedSession := none }
  else store

/-! ## Frames -/

def retainedSessionBytes (session : SerialSession) : Int :=
  match store.accounting.sessionTotals session.id with
  | some totals => totals.captureBytes
  | none => frameBuffersByteLength session

def setRetainedFrameBytes (sessionId : String) (retainedBytes : Int) : SessionStore :=
  { store with accounting := store.accounting.setSessionBytes sessionId retainedBytes }

def addFrameBufferDrop (sessionId : String) (droppedBytes : Nat) : SessionStore :=
  if droppedBytes = 0 then store
  else
    let frameBuffer := (store.frameBufferDroppedBytes.get sessionId).getD 0 + droppedBytes
    { store with
      frameBufferDroppedBytes := store.frameBufferDroppedBytes.set sessionId frameBuffer
      }.updateSession sessionId fun session =>
        { session with
          droppedBytes := (store.rxQueueDroppedBytes.get sessionId).getD 0 + frameBuffer }

/-- What the trim over all sessions took from one of them. -/
def applyGlobalDrop (entry : String × FrameDrop) : SessionStore :=
  (store.setRetainedFrameBytes entry.1
    (max 0 ((store.accounting.sessionRow entry.1).captureBytes - entry.2.droppedBytes))
    ).addFrameBufferDrop entry.1 entry.2.droppedBytes

def enforceGlobalFrameByteLimit : SessionStore × OrderedMap String FrameDrop :=
  if store.accounting.workspaceCaptureBytes ≤ MAX_GLOBAL_FRAME_BYTES then (store, [])
  else
    let result := trimSessionsToGlobalByteLimit store.sessions
      store.accounting.workspaceCaptureBytes MAX_GLOBAL_FRAME_BYTES
    let counted := result.dropped.foldl applyGlobalDrop { store with sessions := result.sessions }
    ({ counted with accounting := counted.accounting.setWorkspaceBytes result.retainedBytes },
      result.dropped)

def defaultCaptureOrigin : Direction → CaptureOrigin
  | .TX => .serialTx
  | .RX => .serialRx

/-- The number that a frame gets, and the books behind it. -/
def takeCaptureSeq (sessionId : String) (frame : CapturedFrame) : Nat × SessionStore :=
  match frame.captureSeq with
  | some captureSeq => (captureSeq, store)
  | none =>
    let (captureSeq, accounting) := store.accounting.allocateNextFrameSequence sessionId
    (captureSeq, { store with accounting })

/-- `createId()` and `now()` are what the environment gives a frame that is captured. -/
def fullFrame (frame : CapturedFrame) (captureSeq : Nat) (createId : String) (now : JsNumber) :
    DataFrame where
  id := createId
  direction := frame.direction
  timestamp := frame.timestamp.getD now
  data := frame.data
  captureSeq := some captureSeq
  origin := some (frame.origin.getD (defaultCaptureOrigin frame.direction))
  contentVersion := frame.contentVersion
  omittedBytes := frame.omittedBytes
  txStatus := frame.txStatus
  requestedBytes := frame.requestedBytes

/-- A session behind an append or a flush, and the books of its trim. -/
def settleTrim (session' : SerialSession) (trim : FrameBufferTrimResult) : SessionStore :=
  ((store.updateSession session'.id fun _ => session').setRetainedFrameBytes session'.id
    trim.retainedBytes).addFrameBufferDrop session'.id trim.droppedBytes

/-- The frame goes into its session, which is trimmed to its own limits. -/
def appendFrame (session : SerialSession) (frame : DataFrame) :
    SessionStore × FrameBufferTrimResult :=
  let (session', trim) := appendFrameToSession session frame store.maxBufferFrames
    (store.retainedSessionBytes session) MAX_SESSION_FRAME_BYTES
  (store.settleTrim session' trim, trim)

/-- What the own trim of a session adds to the trim over all. -/
def mergeDrops (sessionId : String) (trim : FrameDrop) (global : OrderedMap String FrameDrop) :
    OrderedMap String FrameDrop :=
  if trim.droppedFrames > 0 then
    global.set sessionId
      ⟨trim.droppedFrames + (dropOf global sessionId).droppedFrames,
        trim.droppedBytes + (dropOf global sessionId).droppedBytes⟩
  else global

def trimEvents (drops : OrderedMap String FrameDrop) : List CaptureChange :=
  (drops.filter fun entry => entry.2.droppedFrames > 0).map fun entry =>
    .captureTrimmed entry.1 entry.2.droppedFrames entry.2.droppedBytes

/-- Runtime sessions are not stored, so the workspace has no say in what they capture. -/
def canAddRuntimeFrame (sessionId : String) (admitted : Bool) : Bool :=
  decide (sessionId ∈ store.runtimeSessionIds) || admitted

def addFrame (sessionId : String) (frame : CapturedFrame) (createId : String) (now : JsNumber)
    (admitted : Bool) : SessionStore × List CaptureChange :=
  if store.canAddRuntimeFrame sessionId admitted then
    match store.findSession sessionId with
    | none => (store, [])
    | some session =>
      let (captureSeq, store) := store.takeCaptureSeq sessionId frame
      let full := fullFrame frame captureSeq createId now
      let (store, trim) := store.appendFrame session full
      let (store, global) := store.enforceGlobalFrameByteLimit
      (store, .frameAdded sessionId full ::
        trimEvents (mergeDrops sessionId trim.toFrameDrop global))
  else (store, [])

/-- `total` is what the receive queue has dropped so far. -/
def updateDroppedBytes (sessionId : String) (total : JsNumber) : SessionStore :=
  match store.findSession sessionId with
  | none => store
  | some _ =>
    let normalized := (floorOr total 0).toNat
    { store with
      rxQueueDroppedBytes := store.rxQueueDroppedBytes.set sessionId normalized
      }.updateSession sessionId fun session =>
        { session with
          droppedBytes := normalized + (store.frameBufferDroppedBytes.get sessionId).getD 0 }

/-! ## Clearing and pausing -/

def clearFrames (sessionId : String) (admitted : Bool) : SessionStore × List CaptureChange :=
  if admitted then
    match store.findSession sessionId with
    | none => (store, [])
    | some session =>
      if sessionHasClearableCapture session then
        let store := if session.frames.length > 0 ∨ session.pausedFrames.length > 0 then
          store.setRetainedFrameBytes sessionId 0 else store
        ({ store.updateSession sessionId resetSessionFrames with
            accounting := store.accounting.resetFrameSequence sessionId },
          [.framesCleared sessionId, .captureCleared sessionId])
      else (store, [.framesCleared sessionId])
  else (store, [])

/-- The paused frames become live ones again. -/
def resumeCapture (session : SerialSession) : SessionStore × List CaptureChange :=
  let (session', trim) := flushPausedFramesToLive session store.maxBufferFrames
    (store.retainedSessionBytes session) MAX_SESSION_FRAME_BYTES
  (store.settleTrim session' trim,
    if trim.droppedFrames > 0 then
      [.captureTrimmed session.id trim.droppedFrames trim.droppedBytes]
    else [])

def setCapturePaused (sessionId : String) (paused admitted : Bool) :
    SessionStore × List CaptureChange :=
  if admitted then
    match store.findSession sessionId with
    | none => (store, [])
    | some session =>
      if session.capturePaused = paused then (store, [])
      else
        let store := store.updateSession sessionId ({ · with capturePaused := paused })
        if !paused ∧ session.pausedFrames.length > 0 then
          store.resumeCapture { session with capturePaused := paused }
        else (store, [])
  else (store, [])

end SessionStore

end bbcom.capture
