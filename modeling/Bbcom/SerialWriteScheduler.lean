-- The queue of serial writes of one connection (`serial-write-scheduler.ts`). An operation
-- is an object that the queue, the running drain and a shutdown share, so it goes by the
-- number of its promise. A call of `drain` stops wherever it awaits something or calls code
-- that may call the scheduler again; anything can happen before it goes on.
import Bbcom.IpcContracts
import Bbcom.Js

open bbcom.js bbcom.ipc_contracts

namespace bbcom.serial_write

structure SerialWriteSchedulerLimits where
  maxOperations : Nat
  maxQueuedBytes : Nat
  chunkBytes : Nat
  maxOperations_pos : 0 < maxOperations
  maxQueuedBytes_pos : 0 < maxQueuedBytes
  chunkBytes_pos : 0 < chunkBytes

def DEFAULT_SERIAL_WRITE_LIMITS : SerialWriteSchedulerLimits where
  maxOperations := 256
  maxQueuedBytes := 4 * 1024 * 1024
  chunkBytes := 4096
  maxOperations_pos := by decide
  maxQueuedBytes_pos := by decide
  chunkBytes_pos := by decide

/-! ## Results -/

def SERIAL_SEND_OPERATION : String := "serial_send"

def serialError (code : AppErrorCode) (messageKey : String) (retryable : Bool)
    (field : Option String := none) : IpcError Nat :=
  { code, messageKey, retryable, operation := SERIAL_SEND_OPERATION, field }

def failed (requestedBytes : Nat) (error : IpcError Nat) : SerialSendResult :=
  ⟨.failed, requestedBytes, 0, some error⟩

def partialOrFailed (sentBytes : Nat) : SerialSendOutcome :=
  if sentBytes > 0 then .partialWrite else .failed

def writeFailure (requestedBytes sentBytes : Nat) : SerialSendResult :=
  ⟨partialOrFailed sentBytes, requestedBytes, sentBytes,
    some (serialError .serialPartialWrite "error.serial_partial_write" false)⟩

def cancelled (requestedBytes sentBytes : Nat) : SerialSendResult :=
  ⟨.cancelled, requestedBytes, sentBytes, some (serialError .cancelled "error.cancelled" false)⟩

def denied (requestedBytes sentBytes : Nat) : SerialSendResult :=
  ⟨partialOrFailed sentBytes, requestedBytes, sentBytes,
    some (serialError .securityDenied "error.security_denied" false)⟩

/-! ## The state -/

structure WriteOperation where
  payload : Uint8Array
  sentBytes : Nat
  settled : Bool
  deriving DecidableEq

/-- Where a call of `drain` stands: before a question to the gate, before the start hook,
before the gate and the driver for a chunk, at the driver, or behind `writeOperation`. -/
inductive DrainPoint
  | authorizing (operation : Nat)
  | starting (operation : Nat)
  | sending (operation chunkEnd : Nat)
  | writing (operation chunkEnd : Nat)
  | returned (operation : Nat) (result : SerialSendResult)
  deriving DecidableEq

def DrainPoint.operation : DrainPoint → Nat
  | .authorizing operation | .starting operation | .sending operation _ | .writing operation _
  | .returned operation _ => operation

def DrainPoint.isWriting : DrainPoint → Bool
  | .writing _ _ => true
  | _ => false

/-- A call of `shutdown` that waits for the active operation or for its grace time. -/
structure ShutdownCall where
  active : Nat
  timedOut : Option Bool
  deriving DecidableEq

/-- `Promise.race`: the first of the two decides. -/
def ShutdownCall.race (call : ShutdownCall) (timedOut : Bool) : ShutdownCall :=
  if call.timedOut = none then { call with timedOut := some timedOut } else call

structure SerialWriteScheduler where
  operations : Nat → WriteOperation
  queue : List Nat
  activeOperation : Option Nat
  idleWaiters : List Nat
  draining : Bool
  accepting : Bool
  outstandingOperations : Int
  outstandingBytes : Int

/-- A call of the `resolve` of a promise, with the number of bytes that the driver had accepted
from the operation by then. -/
structure Resolution where
  promise : Nat
  result : SerialSendResult
  accepted : Nat

/-- The scheduler with the calls that are under way. The fields from `order` on only record
what happened: the operations in the order of their `enqueue`, each call of a `resolve`, what
the driver has accepted from which operation, and the operations that a shutdown cut off. -/
structure World extends SerialWriteScheduler where
  nextPromise : Nat
  drains : List DrainPoint
  shutdowns : List ShutdownCall
  order : List Nat
  resolved : List Resolution
  wire : List (Nat × Uint8Array)
  cutOff : List Nat
  idled : List Nat

namespace World

def new : World where
  operations := fun _ => ⟨[], 0, true⟩
  queue := []
  activeOperation := none
  idleWaiters := []
  draining := false
  accepting := true
  outstandingOperations := 0
  outstandingBytes := 0
  nextPromise := 0
  drains := []
  shutdowns := []
  order := []
  resolved := []
  wire := []
  cutOff := []
  idled := []

variable (limits : SerialWriteSchedulerLimits) (clamp : Int → Int) (w : World)

/-- How many bytes of an operation the driver has accepted. -/
def accepted (id : Nat) : Nat := ((w.wire.filter (·.1 = id)).map (·.2.length)).sum

/-! ## Settling and idling -/

/-- `clamp` is `Math.max(0, ..)` in the code. -/
def settle (id : Nat) (result : SerialSendResult) : World :=
  let operation := w.operations id
  if operation.settled then w
  else
    let remaining : Int := operation.payload.length - operation.sentBytes
    { w with
      operations := Function.update w.operations id { operation with settled := true }
      outstandingBytes := clamp (w.outstandingBytes - remaining)
      outstandingOperations := clamp (w.outstandingOperations - 1)
      resolved := w.resolved ++ [⟨id, result, w.accepted id⟩] }

def isIdle : Bool := w.queue.isEmpty && w.activeOperation.isNone && !w.draining

def resolveIdleWaiters : World :=
  if w.isIdle then { w with idleWaiters := [], idled := w.idled ++ w.idleWaiters } else w

/-! ## The drain -/

/-- The loop of `drain` up to the next operation, or to its end. -/
def nextOperation (w : World) : List Nat → World × Option DrainPoint
  | [] => (resolveIdleWaiters { w with queue := [], draining := false }, none)
  | id :: queue =>
    if (w.operations id).settled then nextOperation w queue
    else ({ w with queue, activeOperation := some id }, some (.authorizing id))

def drain : World :=
  if w.draining then w
  else
    let (w, point) := nextOperation { w with draining := true } w.queue
    { w with drains := w.drains ++ point.toList }

/-- The head of the inner loop of `writeOperation`, with bytes of the chunk left to send. -/
def inChunk (id chunkEnd : Nat) : DrainPoint :=
  let operation := w.operations id
  if operation.settled then
    .returned id (cancelled operation.payload.length operation.sentBytes)
  else if !w.accepting then
    .returned id (cancelled operation.payload.length operation.sentBytes)
  else .sending id chunkEnd

/-- The head of the outer loop. A chunk has a byte at least, so its inner loop is entered. -/
def nextChunk (id : Nat) : DrainPoint :=
  let operation := w.operations id
  if operation.sentBytes < operation.payload.length then
    if !w.accepting then
      .returned id (cancelled operation.payload.length operation.sentBytes)
    else
      w.inChunk id (min (operation.sentBytes + limits.chunkBytes) operation.payload.length)
  else if operation.sentBytes ≠ operation.payload.length then
    .returned id (writeFailure operation.payload.length operation.sentBytes)
  else
    .returned id ⟨.complete, operation.payload.length, operation.payload.length, none⟩

/-- What the code that a drain calls or awaits gives it: the answer of the gate, whether the
start hook throws, and the driver's count of bytes, or none where the driver throws. -/
structure Answer where
  authorized : Bool
  hookThrows : Bool
  written : Option JsNumber

/-- The continuation behind `await this.writeChunk(chunk)`. -/
def afterWrite (id chunkEnd : Nat) (written : Option JsNumber) : World × DrainPoint :=
  let operation := w.operations id
  let chunk := operation.payload.subarray operation.sentBytes chunkEnd
  let refused : World × DrainPoint :=
    (w, .returned id (if w.accepting then
      writeFailure operation.payload.length operation.sentBytes
    else cancelled operation.payload.length operation.sentBytes))
  match written with
  | none => refused
  | some written =>
    match integerBetween written 1 chunk.length with
    | none =>
      if operation.settled then
        (w, .returned id (cancelled operation.payload.length operation.sentBytes))
      else refused
    | some written =>
      let w := { w with wire := w.wire ++ [(id, chunk.take written)] }
      -- the bytes that come too late stay with the driver, and are not counted
      if operation.settled then
        (w, .returned id (cancelled operation.payload.length operation.sentBytes))
      else
        let sentBytes := operation.sentBytes + written
        let w := { w with
          operations := Function.update w.operations id { operation with sentBytes }
          outstandingBytes := w.outstandingBytes - written }
        (w, if !w.accepting then .returned id (cancelled operation.payload.length sentBytes)
          else if sentBytes < chunkEnd then w.inChunk id chunkEnd
          else w.nextChunk limits id)

/-- One stretch of a drain. -/
def resume (answer : Answer) : DrainPoint → World × Option DrainPoint
  | .authorizing id =>
    let operation := w.operations id
    (w, if answer.authorized then some (.starting id)
      else some (.returned id (denied operation.payload.length operation.sentBytes)))
  | .starting id =>
    let operation := w.operations id
    (w, if answer.hookThrows then some (.returned id (writeFailure operation.payload.length 0))
      else some (w.nextChunk limits id))
  | .sending id chunkEnd =>
    let operation := w.operations id
    (w, if answer.authorized then some (.writing id chunkEnd)
      else some (.returned id (denied operation.payload.length operation.sentBytes)))
  | .writing id chunkEnd =>
    let (w, point) := w.afterWrite limits id chunkEnd answer.written
    (w, some point)
  | .returned id result =>
    let w := w.settle clamp id result
    let w := if w.activeOperation = some id then { w with activeOperation := none } else w
    nextOperation w w.queue

/-! ## Calls -/

def enqueue (payload : Uint8Array) (authorized : Bool) : World :=
  let id := w.nextPromise
  let w := { w with nextPromise := id + 1 }
  let resolved (result : SerialSendResult) : World :=
    { w with resolved := w.resolved ++ [⟨id, result, w.accepted id⟩] }
  if payload.length = 0 then
    resolved (failed 0 (serialError .invalidInput "error.invalid_input" false "payload"))
  else if !w.accepting then resolved (cancelled payload.length 0)
  else if !authorized then resolved (denied payload.length 0)
  else if (limits.maxOperations : Int) ≤ w.outstandingOperations ∨
      (limits.maxQueuedBytes : Int) < w.outstandingBytes + payload.length then
    resolved
      (failed payload.length (serialError .serialQueueFull "error.serial_queue_full" true))
  else
    drain { w with
      operations := Function.update w.operations id ⟨payload, 0, false⟩
      queue := w.queue ++ [id]
      order := w.order ++ [id]
      outstandingOperations := w.outstandingOperations + 1
      outstandingBytes := w.outstandingBytes + payload.length }

/-- The loop of `shutdown` that empties the queue. -/
def cancelQueue (w : World) : List Nat → World
  | [] => { w with queue := [] }
  | id :: queue =>
    let w := { w with queue }
    cancelQueue (w.settle clamp id (cancelled (w.operations id).payload.length 0)) queue

def shutdown : World :=
  let w := cancelQueue clamp { w with accepting := false } w.queue
  match w.activeOperation with
  | none => w
  | some active =>
    if (w.operations active).settled then w
    else { w with shutdowns := w.shutdowns ++ [⟨active, none⟩] }

/-- The end of a `shutdown` whose race is decided. -/
def endShutdown (call : ShutdownCall) : World :=
  let operation := w.operations call.active
  if call.timedOut = some true ∧ !operation.settled then
    { w.settle clamp call.active (cancelled operation.payload.length operation.sentBytes) with
      cutOff := w.cutOff ++ [call.active] }
  else w

def waitForIdle (waiter : Nat) : World :=
  if w.isIdle then { w with idled := w.idled ++ [waiter] }
  else { w with idleWaiters := w.idleWaiters ++ [waiter] }

end World

/-! ## Runs -/

/-- What can happen next. A drain goes on when its answer is there, a grace time ends whenever
it likes, and a shutdown sees the end of the active operation when that has settled. -/
inductive Event
  | enqueue (payload : Uint8Array) (authorized : Bool)
  | resume (drain : Nat) (answer : World.Answer)
  | shutdown
  | graceOver (shutdown : Nat)
  | activeSettled (shutdown : Nat)
  | endShutdown (shutdown : Nat)
  | waitForIdle (waiter : Nat)
  | abortWait (waiter : Nat)

def stepWith (limits : SerialWriteSchedulerLimits) (clamp : Int → Int) (w : World) :
    Event → World
  | .enqueue payload authorized => w.enqueue limits payload authorized
  | .resume drain answer =>
    match w.drains[drain]? with
    | none => w
    | some point =>
      let (w, next) := w.resume limits clamp answer point
      { w with drains := w.drains.take drain ++ next.toList ++ w.drains.drop (drain + 1) }
  | .shutdown => w.shutdown clamp
  | .graceOver shutdown =>
    { w with shutdowns := w.shutdowns.modify shutdown (·.race true) }
  | .activeSettled shutdown =>
    match w.shutdowns[shutdown]? with
    | none => w
    | some call =>
      if (w.operations call.active).settled then
        { w with shutdowns := w.shutdowns.modify shutdown (·.race false) }
      else w
  | .endShutdown shutdown =>
    match w.shutdowns[shutdown]? with
    | none => w
    | some call =>
      if call.timedOut = none then w
      else { w.endShutdown clamp call with shutdowns := w.shutdowns.eraseIdx shutdown }
  | .waitForIdle waiter => w.waitForIdle waiter
  | .abortWait waiter => { w with idleWaiters := w.idleWaiters.filter (· ≠ waiter) }

/-- The scheduler of the code. -/
def step (limits : SerialWriteSchedulerLimits) : World → Event → World :=
  stepWith limits (max 0)

end bbcom.serial_write
