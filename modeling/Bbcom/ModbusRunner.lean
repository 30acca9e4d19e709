-- The transaction runner of `modbus-transaction-runner.ts`: one outstanding request, one
-- buffer for its reply and one timeout. A method of the class is a function from the state
-- to the next one and to what the method does to its surroundings, in order.
import Bbcom.IpcContracts
import Bbcom.ModbusTransport

open bbcom.js bbcom.ipc_contracts bbcom.modbus_core bbcom.modbus_transport

namespace bbcom.modbus_runner

def MAX_MODBUS_TRANSACTION_RX_BYTES : Nat := 256
def MODBUS_RX_PROCESS_CHUNK_BYTES : Nat := 4 * 1024

inductive ModbusTransactionStatus
  | timeout
  | error (message : String) (messageKey : Option String) (ipcCode : Option AppErrorCode)
  deriving DecidableEq

/-- A transaction that waits for its reply. `id` names the promise that it resolves, contexts
are compared as the code compares objects, and `request` is what the matcher has copied: none
as long as the matcher is the one that takes nothing. -/
structure PendingTransaction (Ctx : Type) where
  id : Nat
  context : Ctx
  timer : Option Nat
  started : Bool
  expectedLen : Option Nat
  transport : ModbusTransport
  request : Option Uint8Array
  deriving DecidableEq

structure ModbusTransactionRunner (Ctx : Type) where
  rxBuffer : Uint8Array
  pending : Option (PendingTransaction Ctx)
  deriving DecidableEq

/-- What a method does besides changing the runner. -/
inductive Effect (Ctx : Type)
  | resolve (id : Nat) (response : Option ModbusResponse)
  | onStatus (status : ModbusTransactionStatus)
  | setTimeout (timer : Nat) (context : Ctx)
  | clearTimeout (timer : Nat)
  | sent (id : Nat) (context : Ctx)
  deriving DecidableEq

/-! ## Matching a reply -/

namespace ModbusResponse

def slave : ModbusResponse → UInt8
  | .readBits slave _ _ | .readRegs slave _ _ | .writeAck slave _ _ _ | .exception slave _ _ =>
    slave

end ModbusResponse

def responseMatcher (transport : ModbusTransport) (wire frame : Uint8Array)
    (response : ModbusResponse) : Bool :=
  let slave := wire.getD 0 0
  let pdu := if transport = .rtu then wire.subarray 1 (wire.length - 2) else wire
  let fc := pdu.getD 0 0
  let quantity := u16Of (pdu.getD 3 0) (pdu.getD 4 0)
  if pdu.length < 5 then false
  else if transport = .rtu ∧ ModbusResponse.slave response ≠ slave then false
  else
    match response with
    | .exception _ exceptionFc _ => exceptionFc = fc ||| 0x80
    | .readRegs _ responseFc regs => responseFc = fc && regs.length = quantity
    | .readBits _ responseFc bits => responseFc = fc && bits.length = (quantity + 7) / 8 * 8
    | .writeAck _ responseFc _ _ =>
      let responseOffset := if transport = .rtu then 1 else 0
      responseFc = fc && (List.range 4).all fun index =>
        frame[responseOffset + index + 1]? = (pdu.subarray 1 5)[index]?

namespace PendingTransaction

variable {Ctx : Type}

def matchesResponse (p : PendingTransaction Ctx) (frame : Uint8Array)
    (response : ModbusResponse) : Bool :=
  match p.request with
  | none => false
  | some wire => responseMatcher p.transport wire frame response

/-- The reply that a frame is for this transaction, if it is one. -/
def accept (p : PendingTransaction Ctx) (frame : Uint8Array) : Option ModbusResponse :=
  match parseFrame p.transport frame with
  | none => none
  | some candidate => if p.matchesResponse frame candidate then some candidate else none

def clearTimer (p : PendingTransaction Ctx) : List (Effect Ctx) :=
  match p.timer with
  | none => []
  | some timer => [.clearTimeout timer]

end PendingTransaction

def retainIncompleteAdu (remainder : Uint8Array) : Uint8Array :=
  remainder.drop (remainder.length - (MAX_MODBUS_TRANSACTION_RX_BYTES - 1))

def errorStatus (message : String) : ModbusTransactionStatus := .error message none none

def serialSendFailureStatus (error : Option (IpcError Nat)) : ModbusTransactionStatus :=
  let messageKey := (error.map IpcError.messageKey).getD "error.serial_send_failed"
  .error messageKey (some messageKey) (error.map IpcError.code)

namespace ModbusTransactionRunner

variable {Ctx : Type} [DecidableEq Ctx]

def new : ModbusTransactionRunner Ctx := ⟨[], none⟩

/-! ## Receiving -/

/-- One turn of the loop of `receive`, over the slice of the bytes that it takes. -/
def receiveSlice (r : ModbusTransactionRunner Ctx) (current : PendingTransaction Ctx)
    (slice : Uint8Array) : ModbusTransactionRunner Ctx × List (Effect Ctx) :=
  let scanned := scanResponse current.transport (r.rxBuffer ++ slice) current.expectedLen
  match scanned.frames.findSome? current.accept with
  | none => ({ r with rxBuffer := retainIncompleteAdu scanned.remainder }, [])
  | some response =>
    (⟨[], none⟩, current.clearTimer ++ [.resolve current.id (some response)])

/-- The loop of `receive`. A turn takes a byte at least, so that `fuel` may be the number of
bytes. -/
def receiveLoop : Nat → ModbusTransactionRunner Ctx → Uint8Array →
    ModbusTransactionRunner Ctx × List (Effect Ctx)
  | 0, r, _ => (r, [])
  | fuel + 1, r, bytes =>
    match bytes, r.pending with
    | [], _ => (r, [])
    | _, none => (r, [])
    | bytes, some current =>
      if current.started then
        let (r, effects) := receiveSlice r current (bytes.take MODBUS_RX_PROCESS_CHUNK_BYTES)
        let (r, later) := receiveLoop fuel r (bytes.drop MODBUS_RX_PROCESS_CHUNK_BYTES)
        (r, effects ++ later)
      else (r, [])

def receive (r : ModbusTransactionRunner Ctx) (bytes : Uint8Array) :
    ModbusTransactionRunner Ctx × List (Effect Ctx) :=
  match r.pending with
  | none => ({ r with rxBuffer := [] }, [])
  | some p =>
    if p.started then receiveLoop bytes.length r bytes else ({ r with rxBuffer := [] }, [])

/-! ## Ending a transaction without a reply -/

def cancel (r : ModbusTransactionRunner Ctx) (status : Option ModbusTransactionStatus) :
    (ModbusTransactionRunner Ctx × List (Effect Ctx)) × Bool :=
  match r.pending with
  | none => (({ r with rxBuffer := [] }, []), false)
  | some current =>
    ((⟨[], none⟩,
      current.clearTimer ++ (status.map Effect.onStatus).toList ++ [.resolve current.id none]),
      true)

def cancelForContext (r : ModbusTransactionRunner Ctx) (context : Ctx)
    (status : ModbusTransactionStatus) :
    (ModbusTransactionRunner Ctx × List (Effect Ctx)) × Bool :=
  match r.pending with
  | none => ((r, []), false)
  | some p => if p.context ≠ context then ((r, []), false) else r.cancel (some status)

/-- `if (!this.cancelForContext(context, status)) resolve(null)`. -/
def cancelOrResolve (r : ModbusTransactionRunner Ctx) (id : Nat) (context : Ctx)
    (status : ModbusTransactionStatus) : ModbusTransactionRunner Ctx × List (Effect Ctx) :=
  let ((r, effects), cancelled) := r.cancelForContext context status
  (r, if cancelled then effects else effects ++ [.resolve id none])

/-! ## Starting a transaction -/

/-- The number of the timer is the one that the runtime hands out. -/
def startTimeout (r : ModbusTransactionRunner Ctx) (context : Ctx) (timer : Nat) :
    ModbusTransactionRunner Ctx × List (Effect Ctx) :=
  match r.pending with
  | none => (r, [])
  | some p =>
    if p.context ≠ context ∨ p.timer ≠ none then (r, [])
    else (⟨[], some { p with started := true, timer := some timer }⟩, [.setTimeout timer context])

/-- What one call of `transact` meets: the transport that is set, the wire bytes that the
caller builds, whether the serial writer calls the start hook before it returns, and whether
it throws. -/
structure TransactCall (Ctx : Type) where
  context : Ctx
  transport : ModbusTransport
  buildWire : Except String Uint8Array
  expectedLen : Option Nat
  startsAtOnce : Bool
  sendBytes : Except String Unit

def transact (r : ModbusTransactionRunner Ctx) (id timer : Nat) (call : TransactCall Ctx) :
    ModbusTransactionRunner Ctx × List (Effect Ctx) :=
  match r.pending with
  | some _ => (r, [.onStatus (errorStatus "transaction already pending"), .resolve id none])
  | none =>
    let pending : PendingTransaction Ctx :=
      { id, context := call.context, timer := none, started := false
        expectedLen := call.expectedLen, transport := call.transport, request := none }
    match call.buildWire with
    | .error message =>
      cancelOrResolve ⟨[], some pending⟩ id call.context (errorStatus message)
    | .ok wire =>
      let r : ModbusTransactionRunner Ctx := ⟨[], some { pending with request := some wire }⟩
      let (r, effects) := if call.startsAtOnce then r.startTimeout call.context timer else (r, [])
      match call.sendBytes with
      | .error message =>
        let (r, later) := cancelOrResolve r id call.context (errorStatus message)
        (r, effects ++ later)
      | .ok () => (r, effects ++ [.sent id call.context])

/-- How the promise of a send ends. -/
inductive SendEnd
  | fulfilled (result : SerialSendResult)
  | rejected (message : String)

/-- The continuation of a send. -/
def afterSend (r : ModbusTransactionRunner Ctx) (id : Nat) (context : Ctx) (timer : Nat) :
    SendEnd → ModbusTransactionRunner Ctx × List (Effect Ctx)
  | .fulfilled result =>
    if result.outcome ≠ .complete ∨ result.sentBytes ≠ result.requestedBytes then
      r.cancelOrResolve id context (serialSendFailureStatus result.error)
    else r.startTimeout context timer
  | .rejected message => r.cancelOrResolve id context (errorStatus message)

end ModbusTransactionRunner

end bbcom.modbus_runner
