-- The export sessions of the backend (`session.rs`, `streaming_sessions.rs`): a temp file is filled
-- batch by batch and put in the place of its target in the end. Each event is what a call does
-- between two of its awaits; what the operating system answers there comes with the event.
import Bbcom.ExportFormatter
import Bbcom.WorkspaceHydration
import Bbcom.Lib.Tokens

open bbcom.js

namespace bbcom.export_session

open Function

def MAX_ACTIVE_EXPORTS : Nat := 8

def MAX_FRAME_ID_BYTES : Nat := 256

/-- In seconds. -/
def EXPORT_SESSION_TTL : Nat := 30 * 60

def MAX_EXPORT_FRAMES : Nat := 100000

def MAX_EXPORT_BYTES : Nat := 128 * 1024 * 1024

def MAX_FRAME_BYTES : Nat := 2 * 1024 * 1024

def MAX_BATCH_FRAMES : Nat := 256

def MAX_BATCH_BYTES : Nat := 512 * 1024

/-! ## Batches -/

/-- The loop of `validate_frame_batch` over the frames of a batch of `count`. -/
def validateFrames (count : Nat) : (total : Nat) → List DataFramePayload → Except AppError Nat
  | total, [] => .ok total
  | total, frame :: frames =>
    if MAX_FRAME_ID_BYTES < frame.id.utf8ByteSize then
      .error (.limitError "frames" MAX_FRAME_ID_BYTES frame.id.utf8ByteSize)
    else if MAX_FRAME_BYTES < frame.data.length then
      .error (.limitError "frames" MAX_FRAME_BYTES frame.data.length)
    else if 2 ^ 64 - 1 < total + frame.data.length then
      .error (.limitError "frames" MAX_BATCH_BYTES (2 ^ 64 - 1))
    else if MAX_BATCH_BYTES < total + frame.data.length ∧ count ≠ 1 then
      .error (.limitError "frames" MAX_BATCH_BYTES (total + frame.data.length))
    else validateFrames count (total + frame.data.length) frames

def validateFrameBatch (frames : List DataFramePayload) : Except AppError Nat :=
  if MAX_BATCH_FRAMES < frames.length then
    .error (.limitError "frames" MAX_BATCH_FRAMES frames.length)
  else validateFrames frames.length 0 frames

/-! ## Sessions -/

/-- Where the user wants the export. -/
structure Target where
  parent : String
  name : String
  deriving DecidableEq

/-- `.bbcom.{id}.part` in the directory of the target. -/
structure TempPath where
  parent : String
  id : String
  deriving DecidableEq

def tempPath (target : Target) (id : String) : TempPath := ⟨target.parent, id⟩

/-- What stands outside: the encoders, and which file a path is (`fs::canonicalize`). -/
structure Host where
  library : FormatterLibrary
  canonical : Target → String

structure ExportFinishStats where
  frames : Nat
  rawBytes : Nat
  outputBytes : Nat
  deriving DecidableEq

structure BeginRequest where
  format : ExportFormat
  target : Target
  /-- The confirmed frames and raw bytes. -/
  expectedTotals : Option (Nat × Nat)
  backendSourced : Bool
  deriving DecidableEq

/-- The writer is what it has been given in all. `strong` is the count of the `Arc` and `locked`
the state of the mutex around the session. The last two fields are for the record: the frames of
the appends that returned, and whether a failed one left some of its bytes in the writer. -/
structure ExportSession where
  id : String
  request : BeginRequest
  identity : String
  writer : Option Uint8Array
  frameCount : Nat
  rawBytes : Nat
  outputBytes : Nat
  lastActivity : Nat
  terminal : Bool
  strong : Nat
  locked : Bool
  acknowledged : List DataFramePayload
  spoiled : Bool

def ExportSession.temp (session : ExportSession) : TempPath :=
  tempPath session.request.target session.id

def ExportSession.stats (session : ExportSession) : ExportFinishStats :=
  ⟨session.frameCount, session.rawBytes, session.outputBytes⟩

/-- `totals_error`. -/
def ExportSession.totalsError (session : ExportSession) : Option AppError :=
  match session.request.expectedTotals with
  | none => none
  | some (frames, rawBytes) =>
    if frames ≠ session.frameCount then
      some (.validationError "expectedFrames"
        "appended frame count does not match the confirmed export")
    else if rawBytes ≠ session.rawBytes then
      some (.validationError "expectedRawBytes"
        "appended raw byte count does not match the confirmed export")
    else none

def validateExpectedTotals (expectedFrames expectedRawBytes : Nat) : Except AppError Unit :=
  if expectedFrames = 0 then
    .error (.validationError "expectedFrames" "expected frame count must be greater than zero")
  else if MAX_EXPORT_FRAMES < expectedFrames then
    .error (.limitError "expectedFrames" MAX_EXPORT_FRAMES expectedFrames)
  else if MAX_EXPORT_BYTES < expectedRawBytes then
    .error (.limitError "expectedRawBytes" MAX_EXPORT_BYTES expectedRawBytes)
  else .ok ()

/-- What `begin_with_expected_totals` and `begin_backend_sourced` check. A plain `begin` has no
totals. -/
def BeginRequest.validate (request : BeginRequest) : Except AppError Unit :=
  match request.expectedTotals with
  | none => .ok ()
  | some (frames, rawBytes) => validateExpectedTotals frames rawBytes

def unknownSession : AppError :=
  .validationError "exportId" "unknown or finished export session"

/-- `append_locked` up to its write: the bytes to write, and the counts behind it. -/
def ExportSession.prepareAppend (host : Host) (session : ExportSession)
    (frames : List DataFramePayload) (batchBytes : Nat) :
    Except AppError (Uint8Array × Nat × Nat) :=
  let nextFrameCount := workspace.saturatingAdd session.frameCount frames.length
  let nextRawBytes := workspace.saturatingAdd session.rawBytes batchBytes
  if session.terminal || session.writer.isNone then .error unknownSession
  else if MAX_EXPORT_FRAMES < nextFrameCount then
    .error (.limitError "frames" MAX_EXPORT_FRAMES nextFrameCount)
  else if MAX_EXPORT_BYTES < nextRawBytes then
    .error (.limitError "frames" MAX_EXPORT_BYTES nextRawBytes)
  else
    match encodeFrames host.library session.request.format session.request.target.name frames with
    | .error error => .error error
    | .ok encoded => .ok (encoded, nextFrameCount, nextRawBytes)

/-! ## Calls -/

/-- What a call does behind the seal of its session. -/
inductive CloseStep
  | removeCurrent | removeTemp | unlistTemp
  deriving DecidableEq

inductive CloseResult
  | finished (result : Except AppError ExportFinishStats)
  | aborted

/-- Where a call stands, with what it has in hand. Sessions stand for the clones of their `Arc`. -/
inductive Call
  /-- `sweep_expired`, with the candidates that are left and the sessions that have expired. -/
  | sweeping (request : BeginRequest) (now : Nat) (rest : List (String × Nat)) (expired : List Nat)
  /-- `expire_locked_candidate` behind the seal. -/
  | expiring (request : BeginRequest) (now : Nat) (id : String) (session : Nat)
      (rest : List (String × Nat)) (expired : List Nat)
  /-- The loop of `cleanup_expired`: the temp file, then its entry. -/
  | disposing (request : BeginRequest) (expired : List Nat)
  | disposed (request : BeginRequest) (session : Nat) (rest : List Nat)
  | canonicalizing (request : BeginRequest)
  | snapshotting (request : BeginRequest) (identity : String)
  | reconciling (request : BeginRequest) (identity : String) (activeTemps : List TempPath)
  | naming (request : BeginRequest) (identity : String) (attempts : Nat)
  | creating (request : BeginRequest) (identity id : String)
  | initializing (request : BeginRequest) (identity id : String)
  /-- The header could not be written. -/
  | discarding (request : BeginRequest) (identity id : String)
  /-- `release_reserved` of a begin that has failed. -/
  | undoing (request : BeginRequest) (identity id : String)
  | listing (id : String) (session : Nat)
  | inserting (id : String) (session : Nat)
  | unreserving (id : String) (session : Nat)
  | appendWaits (session : Nat) (frames : List DataFramePayload) (batchBytes : Nat)
      (internal : Bool)
  | appending (session : Nat) (frames : List DataFramePayload) (encoded : Uint8Array)
      (nextFrameCount nextRawBytes : Nat)
  | finishWaits (id : String) (session : Nat)
  | flushing (id : String) (session : Nat) (contents : Uint8Array) (stats : ExportFinishStats)
  | syncing (id : String) (session : Nat) (stats : ExportFinishStats)
  | replacing (id : String) (session : Nat) (stats : ExportFinishStats)
  /-- The target is replaced, and its directory is not synced yet. -/
  | syncingParent (id : String) (session : Nat) (stats : ExportFinishStats)
  | closing (id : String) (session : Nat) (steps : List CloseStep) (result : CloseResult)
  | abortWaits (id : String) (session : Nat)
  | returned

/-- What happens to the files and to what the sessions hold, for the record. -/
inductive Happening
  | slotTaken
  | slotReleased
  | targetReserved (identity : String)
  | targetReleased (identity : String)
  | tempListed (session : Nat)
  | tempReleased (session : Nat)
  /-- By `abort` or by a sweep. -/
  | sealed (session : Nat)
  /-- An append or a finish writes, syncs or replaces. -/
  | wrote (session : Nat)
  | replaced (session : Nat) (identity : String) (contents : Uint8Array)
  /-- With what the target is then. -/
  | finished (session : Nat) (result : Except AppError ExportFinishStats)
      (target : Option Uint8Array)
  | aborted (session : Nat)
  | expired (session : Nat)
  deriving DecidableEq

/-- The ids and the entries are in lists without an order of their own. -/
structure ExportSessionManager where
  permitsTaken : Nat := 0
  reservedIds : List String := []
  activeTargets : List String := []
  activeTemps : List TempPath := []
  table : List (String × Nat) := []
  sessions : List ExportSession := []
  calls : List Call := []
  /-- The random ids so far: 128 bits of the operating system do not come twice. -/
  drawn : List String := []
  files : String → Option Uint8Array := fun _ => none
  temps : TempPath → Option Uint8Array := fun _ => none
  now : Nat := 0
  log : List Happening := []

/-- What the operating system answers: whether it succeeds, how many bytes of a failed write are
in the writer, the random id, and the files that are stale. -/
structure Io where
  ok : Bool := true
  message : String := ""
  written : Nat := 0
  id : String := ""
  stale : List TempPath := []

namespace ExportSessionManager

variable (s : ExportSessionManager)

def record (happening : Happening) : ExportSessionManager := { s with log := happening :: s.log }

def goOn (call : Nat) (next : Call) : ExportSessionManager :=
  { s with calls := s.calls.set call next }

def modify (session : Nat) (f : ExportSession → ExportSession) : ExportSessionManager :=
  { s with sessions := s.sessions.modify session f }

def releaseSlot : ExportSessionManager :=
  { s with permitsTaken := s.permitsTaken - 1 }.record .slotReleased

/-- `TargetReservation::drop`. -/
def releaseTarget (identity : String) : ExportSessionManager :=
  { s with activeTargets := s.activeTargets.erase identity }.record (.targetReleased identity)

def releaseReserved (id : String) : ExportSessionManager :=
  { s with reservedIds := s.reservedIds.erase id }

def cloneArc (session : Nat) : ExportSessionManager :=
  s.modify session fun session => { session with strong := session.strong + 1 }

/-- With the last clone the session is dropped, and with it its slot and its target. -/
def dropArc (session : Nat) : ExportSessionManager :=
  match s.sessions[session]? with
  | none => s
  | some state =>
    let s := s.modify session fun session => { session with strong := session.strong - 1 }
    if state.strong = 1 then s.releaseSlot.releaseTarget state.identity else s

/-- `StreamingSessionTable::get`. -/
def get (id : String) : Option Nat := (s.table.find? (·.1 == id)).map (·.2)

/-- `remove_current`. -/
def removeCurrent (id : String) (session : Nat) : ExportSessionManager :=
  if s.get id = some session then
    { s with table := s.table.erase (id, session) }.dropArc session
  else s

/-- `remove_if_exists`. -/
def removeTemp (temp : TempPath) (io : Io) : ExportSessionManager :=
  if io.ok then { s with temps := update s.temps temp none } else s

def unlistTemp (session : Nat) (temp : TempPath) : ExportSessionManager :=
  { s with activeTemps := s.activeTemps.erase temp }.record (.tempReleased session)

/-- `acquire_slot`, behind `cleanup_expired`. -/
def acquireSlot (call : Nat) (request : BeginRequest) : ExportSessionManager :=
  if s.permitsTaken < MAX_ACTIVE_EXPORTS then
    ({ s with permitsTaken := s.permitsTaken + 1 }.record .slotTaken).goOn call
      (.canonicalizing request)
  else s.goOn call .returned

/-- A begin fails before it has an id. -/
def refuse (call : Nat) (identity : String) : ExportSessionManager :=
  ((s.releaseTarget identity).releaseSlot).goOn call .returned

/-- `cleanup_expired` behind the sweep. -/
def dispose (call : Nat) (request : BeginRequest) : List Nat → ExportSessionManager
  | [] => s.acquireSlot call request
  | expired => s.goOn call (.disposing request expired)

/-- The call goes on with the next candidate. A locked session is skipped, and a fresh one too. -/
def sweepNext (call : Nat) (request : BeginRequest) (now : Nat) (id : String) (session : Nat)
    (rest : List (String × Nat)) (expired : List Nat) : ExportSessionManager :=
  match s.sessions[session]? with
  | none => s
  | some state =>
    if state.locked || decide (now - state.lastActivity < EXPORT_SESSION_TTL) then
      (s.dropArc session).goOn call (.sweeping request now rest expired)
    else
      (((s.modify session fun session =>
        { session with
          terminal := true, lastActivity := s.now, writer := none, locked := true }).record
        (.sealed session)).record (.expired session)).goOn call
        (.expiring request now id session rest expired)

def removeStale (stale activeTemps : List TempPath) : ExportSessionManager :=
  { s with
    temps := fun temp =>
      if temp ∈ stale ∧ temp ∉ activeTemps then none else s.temps temp }

/-- `begin_inner` behind the first write: the session takes over the slot and the target. -/
def prepareSession (call : Nat) (request : BeginRequest) (identity id : String) :
    ExportSessionManager :=
  let state : ExportSession := {
    id, request, identity
    writer := some (header request.format)
    frameCount := 0
    rawBytes := 0
    outputBytes := (header request.format).length
    lastActivity := s.now
    terminal := false
    strong := 1
    locked := false
    acknowledged := []
    spoiled := false }
  { s with sessions := s.sessions ++ [state] }.goOn call (.listing id s.sessions.length)

/-- `append` with the lock of its session. -/
def beginAppend (host : Host) (call session : Nat) (state : ExportSession)
    (frames : List DataFramePayload) (batchBytes : Nat) (internal : Bool) : ExportSessionManager :=
  let refused := (s.dropArc session).goOn call .returned
  if state.request.backendSourced && !internal then refused
  else
    match state.prepareAppend host frames batchBytes with
    | .error _ => refused
    | .ok (encoded, nextFrameCount, nextRawBytes) =>
      (s.modify session fun session => { session with locked := true }).goOn call
        (.appending session frames encoded nextFrameCount nextRawBytes)

/-- `append_locked` behind its write. -/
def endAppend (call session : Nat) (frames : List DataFramePayload) (encoded : Uint8Array)
    (nextFrameCount nextRawBytes : Nat) (io : Io) : ExportSessionManager :=
  let s := (s.record (.wrote session)).modify session fun session =>
    if io.ok then
      { session with
        writer := session.writer.map (· ++ encoded)
        frameCount := nextFrameCount
        rawBytes := nextRawBytes
        outputBytes := workspace.saturatingAdd session.outputBytes encoded.length
        lastActivity := s.now
        locked := false
        acknowledged := session.acknowledged ++ frames }
    else
      { session with
        writer := session.writer.map (· ++ encoded.take io.written)
        locked := false
        spoiled := session.spoiled || !(encoded.take io.written).isEmpty }
  (s.dropArc session).goOn call .returned

/-- `finish` with the lock of its session. -/
def beginFinish (call : Nat) (id : String) (session : Nat) (state : ExportSession) :
    ExportSessionManager :=
  match state.writer with
  | none => (s.dropArc session).goOn call .returned
  | some contents =>
    if state.terminal || (state.frameCount == 0 && state.request.expectedTotals.isNone) then
      (s.dropArc session).goOn call .returned
    else
      let s := s.modify session fun session =>
        { session with terminal := true, lastActivity := s.now, writer := none }
      match state.totalsError with
      | some error =>
        s.goOn call (.closing id session [.removeCurrent, .removeTemp, .unlistTemp]
          (.finished (.error error)))
      | none => s.goOn call (.flushing id session contents state.stats)

/-- A step of `finish` up to the replacement has failed. -/
def failFinish (call : Nat) (id : String) (session : Nat) (request : BeginRequest) (io : Io) :
    ExportSessionManager :=
  s.goOn call (.closing id session [.removeTemp, .removeCurrent, .unlistTemp]
    (.finished (.error (.exportError io.message request.format request.target.name))))

/-- `abort` with the lock of its session. -/
def beginAbort (call : Nat) (id : String) (session : Nat) (state : ExportSession) :
    ExportSessionManager :=
  if state.terminal then (s.dropArc session).goOn call .returned
  else
    ((s.modify session fun session =>
      { session with terminal := true, lastActivity := s.now, writer := none }).record
      (.sealed session)).goOn call
        (.closing id session [.removeCurrent, .removeTemp, .unlistTemp] .aborted)

def closeStep (id : String) (session : Nat) (temp : TempPath) (io : Io) :
    CloseStep → ExportSessionManager
  | .removeCurrent => s.removeCurrent id session
  | .removeTemp => s.removeTemp temp io
  | .unlistTemp => s.unlistTemp session temp

def endClose (call session : Nat) (result : CloseResult) : ExportSessionManager :=
  let s := match result with
    | .finished result =>
      s.record (.finished session result ((s.sessions[session]?).bind (s.files ·.identity)))
    | .aborted => s.record (.aborted session)
  (s.dropArc session).goOn call .returned

end ExportSessionManager

/-! ## Events -/

/-- A call goes on from its await, with what the operating system answers. -/
def proceed (host : Host) (s : ExportSessionManager) (call : Nat) (io : Io) :
    Call → ExportSessionManager
  | .sweeping request now ((id, session) :: rest) expired =>
    s.sweepNext call request now id session rest expired
  | .sweeping request _ [] expired => s.dispose call request expired
  | .expiring request now id session rest expired =>
    let s := s.removeCurrent id session
    let s := s.modify session fun session => { session with locked := false }
    (s.dropArc session).goOn call (.sweeping request now rest (expired ++ [session]))
  | .disposing request [] => s.acquireSlot call request
  | .disposing request (session :: rest) =>
    match s.sessions[session]? with
    | none => s
    | some state => (s.removeTemp state.temp io).goOn call (.disposed request session rest)
  | .disposed request session rest =>
    match s.sessions[session]? with
    | none => s
    | some state => (s.unlistTemp session state.temp).dispose call request rest
  | .canonicalizing request =>
    let identity := host.canonical request.target
    if !io.ok || s.activeTargets.contains identity then s.releaseSlot.goOn call .returned
    else
      ({ s with activeTargets := identity :: s.activeTargets }.record
        (.targetReserved identity)).goOn call (.snapshotting request identity)
  | .snapshotting request identity => s.goOn call (.reconciling request identity s.activeTemps)
  | .reconciling request identity activeTemps =>
    let s := s.removeStale io.stale activeTemps
    if io.ok then s.goOn call (.naming request identity 8) else s.refuse call identity
  | .naming request identity attempts =>
    if !io.ok || attempts == 0 then s.refuse call identity
    else if s.drawn.contains io.id then s
    else if (s.get io.id).isSome || s.reservedIds.contains io.id then
      { s with drawn := io.id :: s.drawn }.goOn call (.naming request identity (attempts - 1))
    else
      { s with
        drawn := io.id :: s.drawn
        reservedIds := io.id :: s.reservedIds }.goOn call (.creating request identity io.id)
  | .creating request identity id =>
    let temp := tempPath request.target id
    if io.ok && (s.temps temp).isNone then
      { s with temps := update s.temps temp (some []) }.goOn call
        (.initializing request identity id)
    else s.goOn call (.undoing request identity id)
  | .initializing request identity id =>
    if io.ok || (header request.format).isEmpty then s.prepareSession call request identity id
    else s.goOn call (.discarding request identity id)
  | .discarding request identity id =>
    (s.removeTemp (tempPath request.target id) io).goOn call (.undoing request identity id)
  | .undoing _ identity id => (s.releaseReserved id).refuse call identity
  | .listing id session =>
    match s.sessions[session]? with
    | none => s
    | some state =>
      ({ s with activeTemps := state.temp :: s.activeTemps }.record (.tempListed session)).goOn call
        (.inserting id session)
  | .inserting id session =>
    { s.cloneArc session with table := (id, session) :: s.table }.goOn call
      (.unreserving id session)
  | .unreserving id session =>
    ((s.releaseReserved id).dropArc session).goOn call .returned
  | .appendWaits session frames batchBytes internal =>
    match s.sessions[session]? with
    | none => s
    | some state =>
      if state.locked then s else s.beginAppend host call session state frames batchBytes internal
  | .appending session frames encoded nextFrameCount nextRawBytes =>
    s.endAppend call session frames encoded nextFrameCount nextRawBytes io
  | .finishWaits id session =>
    match s.sessions[session]? with
    | none => s
    | some state => if state.locked then s else s.beginFinish call id session state
  | .flushing id session contents stats =>
    match s.sessions[session]? with
    | none => s
    | some state =>
      let s := s.record (.wrote session)
      if io.ok then
        { s with
          temps := update s.temps state.temp
            ((s.temps state.temp).map fun _ => contents) }.goOn call (.syncing id session stats)
      else s.failFinish call id session state.request io
  | .syncing id session stats =>
    match s.sessions[session]? with
    | none => s
    | some state =>
      let s := s.record (.wrote session)
      if io.ok then s.goOn call (.replacing id session stats)
      else s.failFinish call id session state.request io
  | .replacing id session stats =>
    match s.sessions[session]? with
    | none => s
    | some state =>
      let s := s.record (.wrote session)
      match if io.ok then s.temps state.temp else none with
      | some contents =>
        ({ s with
          files := update s.files state.identity (some contents)
          temps := update s.temps state.temp none }.record
          (.replaced session state.identity contents)).goOn call (.syncingParent id session stats)
      | none => s.failFinish call id session state.request io
  | .syncingParent id session stats =>
    match s.sessions[session]? with
    | none => s
    | some state =>
      let s := s.record (.wrote session)
      if io.ok then
        s.goOn call (.closing id session [.removeCurrent, .unlistTemp] (.finished (.ok stats)))
      else s.failFinish call id session state.request io
  | .closing _ session [] result => s.endClose call session result
  | .closing id session (first :: rest) result =>
    match s.sessions[session]? with
    | none => s
    | some state =>
      let s := s.closeStep id session state.temp io first
      match rest with
      | [] => s.endClose call session result
      | _ => s.goOn call (.closing id session rest result)
  | .abortWaits id session =>
    match s.sessions[session]? with
    | none => s
    | some state => if state.locked then s else s.beginAbort call id session state
  | .returned => s

inductive ExportEvent
  | begin (request : BeginRequest)
  /-- `internal` for the pages of a backend-sourced begin. -/
  | append (id : String) (frames : List DataFramePayload) (internal : Bool)
  | finish (id : String)
  | abort (id : String)
  | proceed (call : Nat) (io : Io)
  | tick (seconds : Nat)

/-- A call begins with a clone of the session that it names. -/
def enter (s : ExportSessionManager) (id : String) (first : Nat → Call) : ExportSessionManager :=
  match s.get id with
  | none => s
  | some session => { s.cloneArc session with calls := s.calls ++ [first session] }

def step (host : Host) (s : ExportSessionManager) : ExportEvent → ExportSessionManager
  | .begin request =>
    match request.validate with
    | .error _ => s
    | .ok _ =>
      let s := s.table.foldl (fun s entry => s.cloneArc entry.2) s
      { s with calls := s.calls ++ [.sweeping request s.now s.table []] }
  | .append id frames internal =>
    match validateFrameBatch frames with
    | .error _ => s
    | .ok batchBytes =>
      enter s id fun session => .appendWaits session frames batchBytes internal
  | .finish id => enter s id (.finishWaits id)
  | .abort id => enter s id (.abortWaits id)
  | .proceed call io =>
    match s.calls[call]? with
    | none => s
    | some stage => proceed host s call io stage
  | .tick seconds => { s with now := s.now + seconds }

end bbcom.export_session
