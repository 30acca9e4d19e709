-- The auto-log of the sessions (`automation-bridge.ts`): frames are queued, cut into batches and
-- appended by one worker for each log, which is finished or aborted in the end. Each event is what
-- runs in one piece, between two awaits. What the application shows of it (the target of the
-- session, warnings, the error of a strict shutdown) is left out.
import Bbcom.DataFrame
import Bbcom.Lib.Histories
import Bbcom.Lib.Runs

open bbcom.serial

namespace bbcom.auto_log

open Function

def AUTO_LOG_IMMEDIATE_FLUSH_BYTES : Nat := 64 * 1024

def AUTO_LOG_MAX_QUEUED_BYTES : Nat := 1024 * 1024

def AUTO_LOG_MAX_QUEUED_ENTRIES : Nat := 1024

def AUTO_LOG_MAX_BATCH_BYTES : Nat := 256 * 1024

def AUTO_LOG_MAX_BATCH_FRAMES : Nat := 256

/-! ## One log -/

/-- What has happened to a log, for the record: the code keeps none of it. -/
inductive Happening
  | accepted (frame : DataFrame)
  | append (batch : List DataFrame)
  /-- The worker does not wait for the append any more. -/
  | answered (batch : List DataFrame) (acknowledged : Bool)
  | finish
  | abort
  deriving DecidableEq

inductive ShutdownMode
  | none | graceful | abort
  deriving DecidableEq

/-- Where the worker of a log stands. The append of a batch is called one microtask after the batch
was taken. `cancelled` says that `cancelAppendWait` was called. -/
inductive Worker
  | none
  | starting
  | appending (batch : List DataFrame) (called cancelled : Bool)
  | terminal
  deriving DecidableEq

/-- Where `terminalPromise` stands: the native call comes one microtask after `terminalOnce`. -/
inductive Terminal
  | none | queued | called | settled
  deriving DecidableEq

structure SessionAutoLogState where
  sessionId : String := ""
  queue : List DataFrame := []
  outstandingBytes : Int := 0
  outstandingEntries : Int := 0
  accepting : Bool := true
  shutdownMode : ShutdownMode := .none
  worker : Worker := .none
  debounceTimer : Bool := false
  terminal : Terminal := .none
  history : List Happening := []

/-- The batch with which the worker is busy. -/
def Worker.batch : Worker → List DataFrame
  | appending batch _ _ => batch
  | _ => []

/-- How many frames of a queue go into the next batch. -/
def batchCount : (count rawBytes : Nat) → List DataFrame → Nat
  | count, _, [] => count
  | count, rawBytes, next :: rest =>
    if AUTO_LOG_MAX_BATCH_FRAMES ≤ count then count
    else if 0 < count ∧ AUTO_LOG_MAX_BATCH_BYTES < rawBytes + next.data.length then count
    else batchCount (count + 1) (rawBytes + next.data.length) rest

namespace SessionAutoLogState

variable (s : SessionAutoLogState)

def record (happening : Happening) : SessionAutoLogState :=
  { s with history := happening :: s.history }

def dropQueuedEntries : SessionAutoLogState :=
  { s with
    outstandingBytes := s.outstandingBytes - framesByteLength s.queue
    outstandingEntries := s.outstandingEntries - s.queue.length
    queue := [] }

def markAborted : SessionAutoLogState :=
  { s with accepting := false, shutdownMode := .abort, debounceTimer := false }.dropQueuedEntries

/-- The batch comes with the state without it. -/
def takeNextBatch : List DataFrame × SessionAutoLogState :=
  let count := batchCount 0 0 s.queue
  (s.queue.take count, { s with queue := s.queue.drop count })

def terminalOnce : SessionAutoLogState :=
  if s.terminal = .none then { s with terminal := .queued } else s

def ensureWorker : SessionAutoLogState :=
  let s := { s with debounceTimer := false }
  if s.worker = .none then { s with worker := .starting } else s

def armDebounce : SessionAutoLogState :=
  if s.debounceTimer ∨ s.worker ≠ .none ∨ !s.accepting then s else { s with debounceTimer := true }

/-- `drainState` behind its loop. -/
def endDrain : SessionAutoLogState :=
  if s.shutdownMode ≠ .none then { s.terminalOnce with worker := .terminal }
  else
    let s := { s with worker := .none }
    if s.queue ≠ [] then s.armDebounce else s

/-- The loop of `drainState`, up to its await. -/
def drainState : SessionAutoLogState :=
  if s.queue ≠ [] ∧ s.shutdownMode ≠ .abort then
    let (batch, s) := s.takeNextBatch
    { s with worker := .appending batch false false }
  else s.endDrain

/-- `drainState` behind an append. -/
def afterAppend (batch : List DataFrame) (acknowledged : Bool) : SessionAutoLogState :=
  let s := s.record (.answered batch acknowledged)
  let s := if acknowledged then s else s.markAborted
  let s := { s with
    outstandingBytes := s.outstandingBytes - framesByteLength batch
    outstandingEntries := s.outstandingEntries - batch.length }
  if acknowledged then s.drainState else s.endDrain

/-- `shutdownState` with the mode `graceful`, up to its await. -/
def beginShutdown : SessionAutoLogState :=
  let s := { s with accepting := false, debounceTimer := false }
  let s := if s.shutdownMode = .none then { s with shutdownMode := .graceful } else s
  s.ensureWorker

def exceedsLimit (frame : DataFrame) : Bool :=
  decide (AUTO_LOG_MAX_BATCH_BYTES < frame.data.length) ||
    decide (AUTO_LOG_MAX_QUEUED_BYTES < s.outstandingBytes + frame.data.length) ||
    decide (AUTO_LOG_MAX_QUEUED_ENTRIES < s.outstandingEntries + 1)

/-- `appendFrame` of a session whose auto-log is enabled. -/
def acceptFrame (frame : DataFrame) : SessionAutoLogState :=
  if s.exceedsLimit frame then s.markAborted.ensureWorker
  else
    let s := { s.record (.accepted frame) with
      queue := s.queue ++ [frame]
      outstandingBytes := s.outstandingBytes + frame.data.length
      outstandingEntries := s.outstandingEntries + 1 }
    if (AUTO_LOG_IMMEDIATE_FLUSH_BYTES : Int) ≤ s.outstandingBytes then s.ensureWorker
    else s.armDebounce

/-- The `catch` of `shutdownState`, when the drain has timed out. -/
def drainTimeout : SessionAutoLogState :=
  let s := match s.worker with
    | .appending batch called _ => { s with worker := .appending batch called true }
    | _ => s
  s.markAborted.terminalOnce

/-- No continuation of the log is queued, so that a timer may fire. -/
def resting : Bool :=
  match s.worker, s.terminal with
  | .starting, _ | .appending _ false _, _ | .appending _ _ true, _ => false
  | .terminal, .settled => false
  | _, .queued => false
  | _, _ => true

end SessionAutoLogState

/-- What goes on in one log. A timer fires only while no continuation of the log is queued. -/
inductive LogEvent
  | debounceFires
  | drainBegins
  | appendCalled
  | appendSettles (fulfilled : Bool)
  /-- The timer of `settleAppendWithin`. -/
  | appendTimesOut
  /-- The worker goes on after `cancelAppendWait`. -/
  | appendStops
  | terminalCalled
  /-- The native call of the terminal settles or times out. -/
  | terminalSettles
  | workerEnds
  deriving DecidableEq

def logStep (s : SessionAutoLogState) : LogEvent → SessionAutoLogState
  | .debounceFires => if s.debounceTimer then s.ensureWorker else s
  | .drainBegins => if s.worker = .starting then s.drainState else s
  | .appendCalled =>
    match s.worker with
    | .appending batch false cancelled =>
      { s with worker := .appending batch true cancelled }.record (.append batch)
    | _ => s
  | .appendSettles fulfilled =>
    match s.worker with
    | .appending batch true false => s.afterAppend batch fulfilled
    | _ => s
  | .appendTimesOut =>
    match s.worker with
    | .appending batch true false => s.afterAppend batch false
    | _ => s
  | .appendStops =>
    match s.worker with
    | .appending batch true true => s.afterAppend batch false
    | _ => s
  | .terminalCalled =>
    if s.terminal = .queued then
      { s with terminal := .called }.record
        (if s.shutdownMode = ShutdownMode.abort then .abort else .finish)
    else s
  | .terminalSettles => if s.terminal = .called then { s with terminal := .settled } else s
  | .workerEnds =>
    if s.worker = .terminal ∧ s.terminal = .settled then { s with worker := .none } else s

/-! ## The bridge -/

/-- The await at which a call of `enable` stands. -/
inductive EnableStage
  | requestingTarget
  | shuttingDown
  /-- Behind the shutdown of the previous state. -/
  | shutDown
  | beginning
  | returned
  deriving DecidableEq

structure EnableCall where
  sessionId : String := ""
  generation : Nat := 0
  stage : EnableStage := .returned
  deriving DecidableEq

/-- A `shutdownState` that waits for the worker of a log, maybe on behalf of a call of `enable`. -/
structure DrainWait where
  log : Nat
  call : Option Nat
  deriving DecidableEq

/-- The logs are numbered in the order in which they were begun. A log that was begun for a call
that is not current any more has no state in the code and is aborted at once. -/
structure AutoLogBridge where
  generations : String → Nat := fun _ => 0
  sessionStates : String → Option Nat := fun _ => none
  logs : Nat → SessionAutoLogState := fun _ => {}
  logCount : Nat := 0
  calls : Nat → EnableCall := fun _ => {}
  callCount : Nat := 0
  waits : List DrainWait := []

namespace AutoLogBridge

variable (s : AutoLogBridge)

def setCall (call : Nat) (stage : EnableStage) : AutoLogBridge :=
  { s with calls := update s.calls call { s.calls call with stage := stage } }

/-- The wait is over for the calls of `enable` among these. -/
def release (waits : List DrainWait) : AutoLogBridge :=
  waits.foldl (fun s wait =>
    match wait.call with
    | some call => s.setCall call .shutDown
    | none => s) s

/-- A log goes on. Those that wait for its worker are released when the worker ends. -/
def setLog (log : Nat) (state : SessionAutoLogState) : AutoLogBridge :=
  let s := { s with logs := update s.logs log state }
  if state.worker = .none then
    { s with waits := s.waits.filter (·.log ≠ log) }.release (s.waits.filter (·.log = log))
  else s

/-- `sessionStates.delete`, if the state is the one of its session. -/
def forget (log : Nat) : AutoLogBridge :=
  let sessionId := (s.logs log).sessionId
  if s.sessionStates sessionId = some log then
    { s with sessionStates := update s.sessionStates sessionId none }
  else s

def nextGeneration (sessionId : String) : AutoLogBridge :=
  { s with
    generations := update s.generations sessionId (s.generations sessionId + 1) }

def shutdownState (log : Nat) (call : Option Nat) : AutoLogBridge :=
  let s := s.setLog log (s.logs log).beginShutdown
  { s with waits := s.waits ++ [⟨log, call⟩] }

/-- `disable`; `prepareShutdown` adds only what it throws. -/
def disable (sessionId : String) : AutoLogBridge :=
  let s := s.nextGeneration sessionId
  match s.sessionStates sessionId with
  | some log => s.shutdownState log none
  | none => s

def isCurrentGeneration (call : Nat) : Bool :=
  s.generations (s.calls call).sessionId == (s.calls call).generation

def enable (sessionId : String) : AutoLogBridge :=
  let s := s.nextGeneration sessionId
  { s with
    calls := update s.calls s.callCount
      ⟨sessionId, s.generations sessionId, .requestingTarget⟩
    callCount := s.callCount + 1 }

/-- `enable` from the shutdown of the previous state on. -/
def afterShutdown (call : Nat) (hasSession : Bool) : AutoLogBridge :=
  if s.isCurrentGeneration call && hasSession then s.setCall call .beginning
  else s.setCall call .returned

/-- `enable` behind the request of its target. -/
def targetAnswered (call : Nat) (granted hasSession : Bool) : AutoLogBridge :=
  if !granted then s.setCall call .returned
  else if !(s.isCurrentGeneration call && hasSession) then s.setCall call .returned
  else
    match s.sessionStates (s.calls call).sessionId with
    | some previous => (s.setCall call .shuttingDown).shutdownState previous (some call)
    | none => s.afterShutdown call hasSession

/-- `enable` behind the native `begin`. -/
def beginAnswered (call : Nat) (begun hasSession : Bool) : AutoLogBridge :=
  let s₀ := s.setCall call .returned
  let sessionId := (s.calls call).sessionId
  if !begun then s₀
  else if !(s.isCurrentGeneration call && hasSession) then
    { s₀ with
      logs := update s.logs s.logCount
        { sessionId := sessionId
          accepting := false
          shutdownMode := .abort
          terminal := .settled
          history := [.abort] }
      logCount := s.logCount + 1 }
  else
    { s₀ with
      logs := update s.logs s.logCount { sessionId := sessionId }
      logCount := s.logCount + 1
      sessionStates := update s.sessionStates sessionId (some s.logCount) }

/-- `autoLogEnabled` is what the store says of the session. -/
def appendFrame (sessionId : String) (frame : DataFrame) (autoLogEnabled : Bool) : AutoLogBridge :=
  match s.sessionStates sessionId with
  | none => s
  | some log =>
    if !(s.logs log).accepting then s
    else if !autoLogEnabled then s.shutdownState log none
    else s.setLog log ((s.logs log).acceptFrame frame)

/-- The timer of a `shutdownState`. -/
def drainTimesOut (wait : DrainWait) : AutoLogBridge :=
  if wait ∈ s.waits ∧ (s.logs wait.log).resting then
    let s := { s with waits := s.waits.erase wait }
    let s := s.setLog wait.log (s.logs wait.log).drainTimeout
    (s.forget wait.log).release [wait]
  else s

end AutoLogBridge

inductive AutoLogEvent
  | enable (sessionId : String)
  | targetAnswered (call : Nat) (granted hasSession : Bool)
  | shutdownReturned (call : Nat) (hasSession : Bool)
  | beginAnswered (call : Nat) (begun hasSession : Bool)
  | disable (sessionId : String)
  | prepareShutdown (sessionId : String)
  | appendFrame (sessionId : String) (frame : DataFrame) (autoLogEnabled : Bool)
  | inLog (log : Nat) (event : LogEvent)
  | drainTimesOut (wait : DrainWait)

def step (s : AutoLogBridge) : AutoLogEvent → AutoLogBridge
  | .enable sessionId => s.enable sessionId
  | .targetAnswered call granted hasSession =>
    if (s.calls call).stage = .requestingTarget then s.targetAnswered call granted hasSession else s
  | .shutdownReturned call hasSession =>
    if (s.calls call).stage = .shutDown then s.afterShutdown call hasSession else s
  | .beginAnswered call begun hasSession =>
    if (s.calls call).stage = .beginning then s.beginAnswered call begun hasSession else s
  | .disable sessionId => s.disable sessionId
  | .prepareShutdown sessionId => s.disable sessionId
  | .appendFrame sessionId frame autoLogEnabled => s.appendFrame sessionId frame autoLogEnabled
  | .inLog log event =>
    let state := logStep (s.logs log) event
    let s := if event = .terminalSettles ∧ (s.logs log).terminal = .called then s.forget log else s
    s.setLog log state
  | .drainTimesOut wait => s.drainTimesOut wait

end bbcom.auto_log
