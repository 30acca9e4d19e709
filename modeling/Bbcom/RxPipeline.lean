-- The receive pipeline of a connection (`rx-pipeline.ts`): chunks go into the queue, and the
-- scheduler drains them into the capture. Connections that start, reconnect, are reconfigured or
-- stop go through it too (`connect-lifecycle.ts`, `serial-connection-controller.ts`).
import Bbcom.SerialRxQueue
import Bbcom.SerialRxScheduler

open bbcom.js bbcom.serial_rx

namespace bbcom.rx_pipeline

def MAX_INPUT_SIZE : Nat := 1024 * 1024
def MAX_RX_QUEUE_BYTES : { n : Nat // 0 < n } := ⟨MAX_INPUT_SIZE * 2, by decide⟩
def MAX_RX_QUEUE_CHUNKS : { n : Nat // 0 < n } := ⟨512, by decide⟩

/-- `captured` are the data of the frames that the sink was given. -/
structure RxPipeline where
  rxQueue : SerialRxQueue := .empty MAX_RX_QUEUE_BYTES MAX_RX_QUEUE_CHUNKS
  rxDrain : SerialRxDrainScheduler := ⟨0, normalizeRxFrameGapMs (.finite 0), none, false, 0⟩
  /-- The schedulers that a reset has replaced; their callbacks may still run. -/
  replaced : List SerialRxDrainScheduler := []
  timers : SerialTimerScheduler := {}
  rxOverflowErrorMessage : Option String := none
  error : Option String := none
  totalDroppedBytes : Nat := 0
  captured : List Uint8Array := []

/-- What happens to the pipeline, with nothing in between. -/
inductive RxEvent
  /-- A chunk that its connection accepts. -/
  | received (bytes : Uint8Array)
  /-- The environment runs a callback. -/
  | callback (handle : Nat)
  /-- A stop that proves the receive boundary, or finds no connection. -/
  | flushed
  /-- A start, with the port leased or not. -/
  | started (rxFrameGapMs : JsNumber) (leased : Bool)
  | reconnecting (rxFrameGapMs : JsNumber)
  /-- A live reconfiguration, applied or rolled back. -/
  | reconfigured (rxFrameGapMs : JsNumber)
  /-- The port is proven closed. -/
  | stopped

namespace RxPipeline

variable (pipeline : RxPipeline)

def pending : SerialRxPending := ⟨pipeline.rxQueue.byteLength, pipeline.rxQueue.liveCount⟩

def resetRxDrain (rxFrameGapMs : JsNumber) : RxPipeline :=
  let (rxDrain, timers) := pipeline.rxDrain.cancel pipeline.timers
  { pipeline with
    rxDrain :=
      { id := pipeline.rxDrain.id + 1, inactivityGapMs := normalizeRxFrameGapMs rxFrameGapMs }
    replaced := rxDrain :: pipeline.replaced
    timers }

def cancelRxDrain : RxPipeline :=
  let (rxDrain, timers) := pipeline.rxDrain.cancel pipeline.timers
  { pipeline with rxDrain, timers }

def resetQueue : RxPipeline :=
  { pipeline with rxQueue := pipeline.rxQueue.reset, rxOverflowErrorMessage := none }

def clearPendingQueue : RxPipeline := { pipeline with rxQueue := pipeline.rxQueue.clearPending }

def notify : RxPipeline :=
  let (rxDrain, timers) := pipeline.rxDrain.notify pipeline.timers pipeline.pending
  { pipeline with rxDrain, timers }

/-- The overflow of the queue is shown as an error until a drain has made room. -/
def showOverflow (droppedSinceDrain : Nat) : RxPipeline :=
  if droppedSinceDrain > 0 then
    { pipeline with
      rxOverflowErrorMessage := some "SERIAL_RX_OVERFLOW"
      error := some "SERIAL_RX_OVERFLOW" }
  else if pipeline.rxOverflowErrorMessage.isSome ∧
      pipeline.error = pipeline.rxOverflowErrorMessage then
    { pipeline with error := none, rxOverflowErrorMessage := none }
  else pipeline

def enqueueReceivedBytes (bytes : Uint8Array) : RxPipeline :=
  if bytes.length = 0 then pipeline
  else
    let (rxQueue, result) := pipeline.rxQueue.enqueue bytes
    (showOverflow { pipeline with rxQueue, totalDroppedBytes := result.totalDroppedBytes }
      result.droppedSinceDrain).notify

def flushQueue : RxPipeline :=
  if pipeline.rxQueue.liveCount = 0 then pipeline
  else
    let (rxQueue, result) := pipeline.rxQueue.drain
    { pipeline with
      rxQueue
      captured := pipeline.captured ++ [(result.chunks.map (·.getD [])).flatten] }

/-- `drainPending` of the scheduler in use. -/
def drainPending : RxPipeline :=
  if pipeline.pending.bytes ≤ 0 ∨ pipeline.pending.chunks = 0 then pipeline
  else pipeline.flushQueue.notify

/-- `rxDrain.flushNow()`. -/
def flushRxAndPublish : RxPipeline := pipeline.cancelRxDrain.drainPending

/-- A callback of a scheduler that was replaced: it drains the same queue, for its own object. -/
def drainReplaced (d : SerialRxDrainScheduler) : RxPipeline :=
  if pipeline.pending.bytes ≤ 0 ∨ pipeline.pending.chunks = 0 then pipeline
  else
    let flushed := pipeline.flushQueue
    let (d, timers) := d.notify flushed.timers flushed.pending
    { flushed with
      timers
      replaced := flushed.replaced.map fun other => if other.id = d.id then d else other }

/-- The body of a callback, for the scheduler that it belongs to. -/
def runCallback (callback : ScheduledCallback) : RxPipeline :=
  if callback.scheduler = pipeline.rxDrain.id then
    if callback.generation ≠ pipeline.rxDrain.generation then pipeline
    else drainPending { pipeline with rxDrain := pipeline.rxDrain.ran callback.delayMs }
  else
    match pipeline.replaced.find? (·.id = callback.scheduler) with
    | none => pipeline
    | some d =>
      if callback.generation ≠ d.generation then pipeline
      else pipeline.drainReplaced (d.ran callback.delayMs)

def runHandle (handle : Nat) : RxPipeline :=
  match pipeline.timers.callbacks.find? (·.handle = handle) with
  | none => pipeline
  | some callback =>
    runCallback { pipeline with timers := pipeline.timers.cancel handle } callback

/-- What a start does before it opens the port. -/
def start (rxFrameGapMs : JsNumber) (leased : Bool) : RxPipeline :=
  let reset := pipeline.resetRxDrain rxFrameGapMs
  if leased then
    { reset.flushRxAndPublish.cancelRxDrain.resetQueue with totalDroppedBytes := 0 }
  else reset

def step (pipeline : RxPipeline) : RxEvent → RxPipeline
  | .received bytes => pipeline.enqueueReceivedBytes bytes
  | .callback handle => pipeline.runHandle handle
  | .flushed => pipeline.flushRxAndPublish
  | .started rxFrameGapMs leased => pipeline.start rxFrameGapMs leased
  | .reconnecting rxFrameGapMs => pipeline.resetRxDrain rxFrameGapMs
  | .reconfigured rxFrameGapMs => pipeline.resetRxDrain rxFrameGapMs
  | .stopped => pipeline.cancelRxDrain.clearPendingQueue

end RxPipeline

end bbcom.rx_pipeline
