-- The Modbus master of a session (`use-modbus-master.ts`): its two loops, the operations of the
-- table's buttons, and the pause for a serial transaction.
import Bbcom.ModbusWriteBatches
import Bbcom.ModbusLoopRuns

open bbcom.js bbcom.modbus_core bbcom.modbus_transport bbcom.modbus_batches
open bbcom.modbus_loops

namespace bbcom.modbus_master

/-! ## Requests and the operations that make them -/

inductive Batch
  | read (batch : ModbusReadBatch)
  | write (batch : ModbusWriteBatch)

def Batch.wireRequest (transport : ModbusTransport) : Batch → Except JsError ModbusWireRequest
  | .read batch => buildModbusReadWireRequest transport batch
  | .write batch => buildModbusWriteWireRequest transport batch

/-- A call that is past its first lines and asks for the bus. -/
inductive Operation
  | readOnce (transport : ModbusTransport) (batch : ModbusReadBatch)
  | readAll
  | sendRow (batches : List ModbusWriteBatch)
  | sendAll

/-- What is the same for all batches of a task: whether `stopped` ends it, and whether a batch that
cools down is left out. -/
structure Sweep where
  transport : ModbusTransport
  shouldStop : Bool
  periodic : Bool

/-- How far the task on the bus is. -/
inductive Progress
  | transacting (sweep : Sweep) (batches : List Batch)
  | ended (fulfilled : Bool)

structure ModbusRow where
  reg : ModbusRegister
  periodicRead : Bool
  periodicWrite : Bool

structure ModbusMasterConfig where
  enabled : Bool
  transport : ModbusTransport
  pollIntervalMs : Nat
  writeIntervalMs : Nat

/-- A request as `sendBytes` gets it. `duringPause` records whether a pause had resolved by then
that was not resumed. -/
structure SerialRequest where
  wire : Uint8Array
  duringPause : Bool
  deriving DecidableEq

/-! ## The master -/

/-- `pausing` are the calls of `pauseForSerialTransaction` that wait and were not resumed,
`pauseResolved` tells of one that has resolved and was not resumed. `rearming` counts the calls of
`readAll` that have the bus behind them and one line before them. -/
structure ModbusMaster where
  loops : System Operation
  running : Bool
  stopped : Bool
  serialTransactionPaused : Bool
  config : ModbusMasterConfig
  isConnected : Bool
  registers : List ModbusRow
  progress : Progress
  rearming : Nat
  pausing : List Nat
  nextPause : Nat
  pauseResolved : Bool
  requests : List SerialRequest

def isPeriodicWritableFc (fc : Nat) : Bool := fc = 0x05 || fc = 0x06 || fc = 0x10

def hasPeriodicWritableRows (registers : List ModbusRow) : Bool :=
  registers.any fun row => row.periodicWrite && isPeriodicWritableFc row.reg.fc

namespace ModbusMaster

variable (m : ModbusMaster)

def shouldRunRead : Bool :=
  !m.stopped && !m.serialTransactionPaused && m.config.enabled && m.isConnected &&
    m.registers.any fun row => row.periodicRead && isReadFc row.reg.fc

def shouldRunWrite : Bool :=
  !m.stopped && !m.serialTransactionPaused && m.config.enabled && m.isConnected &&
    hasPeriodicWritableRows m.registers

def options : ModbusLoopCoordinatorOptions where
  shouldRunRead := m.shouldRunRead
  shouldRunWrite := m.shouldRunWrite
  getReadIntervalMs := m.config.pollIntervalMs
  getWriteIntervalMs := m.config.writeIntervalMs

/-- The loop over the batches, up to the next request: `runModbusReadBatches`,
`runModbusWriteBatches` and the one request of `readOnce`. -/
def runBatches (skip : Batch → Bool) (sweep : Sweep) : List Batch → ModbusMaster
  | [] => { m with progress := .ended true }
  | batch :: batches =>
    if sweep.shouldStop && m.stopped then { m with progress := .ended true }
    else if sweep.periodic && skip batch then runBatches skip sweep batches
    else
      match batch.wireRequest sweep.transport with
      | .error _ => { m with progress := .ended false }
      | .ok request =>
        { m with
          requests := m.requests ++ [⟨request.wire, m.pauseResolved⟩]
          progress := .transacting sweep batches }

def pollOnce (skip : Batch → Bool) : ModbusMaster :=
  let regs := (m.registers.filter (·.periodicRead)).map (·.reg)
  m.runBatches skip ⟨m.config.transport, true, true⟩ ((buildModbusReadBatches regs).map .read)

def sendWriteBatches (skip : Batch → Bool) (periodic : Bool) (batches : List ModbusWriteBatch) :
    ModbusMaster :=
  m.runBatches skip ⟨m.config.transport, true, periodic⟩ (batches.map .write)

/-- `targets` are the rows with the values that the write source has next for them. -/
def writeOnce (skip : Batch → Bool) (targets : List ModbusRegister) : ModbusMaster :=
  m.sendWriteBatches skip true (buildModbusWriteBatches targets)

/-- A task has the bus. -/
def beginTask (skip : Batch → Bool) (targets : List ModbusRegister) :
    modbus_loops.Task Operation → ModbusMaster
  | .loop .read => m.pollOnce skip
  | .loop .write => m.writeOnce skip targets
  | .call (.readOnce transport batch) =>
    m.runBatches skip ⟨transport, false, false⟩ [.read batch]
  | .call .readAll => m.pollOnce skip
  | .call (.sendRow batches) => m.sendWriteBatches skip false batches
  | .call .sendAll =>
    m.sendWriteBatches skip false (buildModbusWriteBatches (m.registers.map (·.reg)))

/-- A step of the loops: the task that it begins runs up to its first request, and the pauses that
waited for it resolve. -/
def onLoops (skip : Batch → Bool) (targets : List ModbusRegister) (e : Event Operation) :
    ModbusMaster :=
  let loops := step { m.loops with options := m.options } e
  let begun := loops.started.drop m.loops.started.length
  let idle := loops.resolved.drop m.loops.resolved.length
  let m := { m with
    loops
    pauseResolved := m.pauseResolved || idle.any (· ∈ m.pausing)
    pausing := m.pausing.filter (· ∉ idle) }
  begun.foldl (fun m task => m.beginTask skip targets task) m

/-- A step that begins no task. -/
def quietly (e : Event Operation) : ModbusMaster := m.onLoops (fun _ => false) [] e

def start : ModbusMaster :=
  if m.running then m
  else { m with running := true, stopped := false }.quietly .start

def stop : ModbusMaster := { m with stopped := true, running := false }.quietly .stop

def resumeAfterSerialTransaction : ModbusMaster :=
  if m.serialTransactionPaused = false then m
  else
    let m := { m with serialTransactionPaused := false, pausing := [], pauseResolved := false }
    if m.stopped || !m.config.enabled || !m.isConnected then m else m.quietly .resume

/-- The `catch` of `pauseForSerialTransaction`. -/
def orResume (next : ModbusMaster) : ModbusMaster :=
  if m.loops.rejected.length < next.loops.rejected.length then next.resumeAfterSerialTransaction
  else next

def pauseForSerialTransaction (aborted : Bool) : ModbusMaster :=
  let m := { m with serialTransactionPaused := true }.quietly .pause
  let m := { m with pausing := m.pausing ++ [m.nextPause], nextPause := m.nextPause + 1 }
  m.orResume (m.quietly (.waitForIdle (m.nextPause - 1) aborted))

def abortPause (pause : Nat) : ModbusMaster := m.orResume (m.quietly (.abort pause))

/-- The callback of the `watch` on `enabled` and `isConnected`. -/
def linkChanged : ModbusMaster :=
  if m.config.enabled && m.isConnected && !m.serialTransactionPaused then m.quietly .resume
  else m.quietly .pause

/-- Before the first call of the `watch`. -/
def initial (config : ModbusMasterConfig) (isConnected : Bool) (registers : List ModbusRow) :
    ModbusMaster where
  loops := .new ⟨false, false, config.pollIntervalMs, config.writeIntervalMs⟩
  running := false
  stopped := false
  serialTransactionPaused := false
  config := config
  isConnected := isConnected
  registers := registers
  progress := .ended true
  rearming := 0
  pausing := []
  nextPause := 0
  pauseResolved := false
  requests := []

def new (config : ModbusMasterConfig) (isConnected : Bool) (registers : List ModbusRow) :
    ModbusMaster :=
  (initial config isConnected registers).linkChanged

/-! ### The operations of the table -/

def withBusy (skip : Batch → Bool) (operation : Operation) : ModbusMaster :=
  m.onLoops skip [] (.runExclusive operation)

def readOnce (reg : ModbusRegister) : ModbusMaster :=
  if m.serialTransactionPaused then m
  else if isReadFc reg.fc = false then m
  else
    m.withBusy (fun _ => false) (.readOnce m.config.transport {
      slave := reg.slaveAddress
      fc := reg.fc
      start := reg.address
      count := modbusReadRowCount reg
      rows := [⟨reg, 0⟩] })

def readAll (skip : Batch → Bool) : ModbusMaster :=
  if m.serialTransactionPaused then m else m.withBusy skip .readAll

/-- Also each record of a replay. -/
def sendRow (reg : ModbusRegister) : ModbusMaster :=
  if m.serialTransactionPaused then m
  else
    let batches := buildModbusWriteBatches [reg]
    if batches = [] then m else m.withBusy (fun _ => false) (.sendRow batches)

def sendAll : ModbusMaster :=
  if m.serialTransactionPaused then m else m.withBusy (fun _ => false) .sendAll

/-- The request of the task on the bus has an answer, a timeout or a cancellation. -/
def transacted (skip : Batch → Bool) : ModbusMaster :=
  match m.loops.running, m.progress with
  | _ :: _, .transacting sweep batches => m.runBatches skip sweep batches
  | _, _ => m

/-- The task on the bus settles. -/
def settle : ModbusMaster :=
  match m.loops.running, m.progress with
  | task :: _, .ended fulfilled =>
    let m := m.quietly (.settle 0 fulfilled)
    match task, fulfilled with
    | .call .readAll, true => { m with rearming := m.rearming + 1 }
    | _, _ => m
  | _, _ => m

/-- The last line of `readAll`. -/
def rearm : ModbusMaster :=
  if m.rearming = 0 then m else { m with rearming := m.rearming - 1 }.quietly .resume

end ModbusMaster

/-! ## Any order of all this -/

inductive MasterEvent
  | configure (config : ModbusMasterConfig)
  | connection (isConnected : Bool)
  | edit (registers : List ModbusRow)
  | linkChanged
  | start
  | stop
  | pause (aborted : Bool)
  | abortPause (pause : Nat)
  | resume
  | readOnce (reg : ModbusRegister)
  | readAll (skip : Batch → Bool)
  | sendRow (reg : ModbusRegister)
  | sendAll
  | fire (id : Nat) (skip : Batch → Bool) (targets : List ModbusRegister)
  | wake (i : Nat) (skip : Batch → Bool)
  | transacted (skip : Batch → Bool)
  | settle
  | goOn (i : Nat)
  | rearm

def masterStep (m : ModbusMaster) : MasterEvent → ModbusMaster
  | .configure config => { m with config }
  | .connection isConnected => { m with isConnected }
  | .edit registers => { m with registers }
  | .linkChanged => m.linkChanged
  | .start => m.start
  | .stop => m.stop
  | .pause aborted => m.pauseForSerialTransaction aborted
  | .abortPause pause => m.abortPause pause
  | .resume => m.resumeAfterSerialTransaction
  | .readOnce reg => m.readOnce reg
  | .readAll skip => m.readAll skip
  | .sendRow reg => m.sendRow reg
  | .sendAll => m.sendAll
  | .fire id skip targets => m.onLoops skip targets (.fire id)
  | .wake i skip => m.onLoops skip [] (.wake i)
  | .transacted skip => m.transacted skip
  | .settle => m.settle
  | .goOn i => m.quietly (.goOn i)
  | .rearm => m.rearm

end bbcom.modbus_master
