-- The registry of long operations (`operation-registry.ts`): their statuses and progress, and the
-- handlers that cancel them, which answer later. Each event is what runs in one piece, between
-- two awaits.
import Bbcom.IpcContracts
import Bbcom.Lib.OrderedMap
import Bbcom.Lib.Runs
import Bbcom.WorkspaceValidation

open bbcom.ipc_contracts bbcom.js bbcom.ordered_map bbcom.ordered_map.OrderedMap
open bbcom.write_epoch

namespace bbcom.operation_registry

/-! ## Contracts -/

inductive OperationStatus
  | queued | running | cancelling | completed | failed | cancelled | interrupted
  deriving DecidableEq, Repr

inductive OperationKind
  | workspaceImport | workspaceExport | sessionExport | workspaceMigration | serialSend | aiRequest
  deriving DecidableEq, Repr

structure ProgressInput where
  completedUnits : Option JsNumber
  totalUnits : JsNumber

/-- `cancel` says whether the owner gives a handler. -/
structure CreateOperationInput where
  operationId : String
  kind : OperationKind
  workspaceId : String
  sessionId : Option String
  messageKey : Option String
  progress : Option ProgressInput
  cancel : Bool

structure OperationProgressUpdate where
  completedUnits : JsNumber
  totalUnits : Option JsNumber
  messageKey : Option String

inductive OperationError
  | shutDown
  | duplicateId (operationId : String)
  | illegalTransition (operationId : String) (source target : OperationStatus)
  | unknownId (operationId : String)
  | terminalProgress (operationId : String)
  | totalRequired
  | totalImmutable
  | exceedsTotal
  | notMonotonic
  | invalidUnit (field : String) (allowZero : Bool)
  | invalidIdentity (field : String)
  | invalidMessageKey
  | invalidErrorNumber (field : String)
  deriving DecidableEq, Repr

def OperationStatus.text : OperationStatus → String
  | queued => "queued"
  | running => "running"
  | cancelling => "cancelling"
  | completed => "completed"
  | failed => "failed"
  | cancelled => "cancelled"
  | interrupted => "interrupted"

def OperationError.message : OperationError → String
  | shutDown => "operation registry is shut down"
  | duplicateId operationId => s!"operation id is already registered: {operationId}"
  | illegalTransition operationId source target =>
    s!"illegal operation transition for {operationId}: " ++ source.text ++ " -> " ++ target.text
  | unknownId operationId => s!"unknown operation id: {operationId}"
  | terminalProgress operationId => s!"cannot update terminal operation progress: {operationId}"
  | totalRequired => "totalUnits is required for the first progress update"
  | totalImmutable => "totalUnits is immutable after progress begins"
  | exceedsTotal => "completedUnits must not exceed totalUnits"
  | notMonotonic => "completedUnits must be monotonic"
  | invalidUnit field allowZero =>
    field ++ " must be a " ++ (if allowZero then "non-negative" else "positive") ++ " safe integer"
  | invalidIdentity field =>
    s!"{field} must be a path-free opaque identifier of 1-256 characters"
  | invalidMessageKey => "messageKey must be a stable translation key"
  | invalidErrorNumber field => s!"{field} must be non-negative"

/-! ## The statuses -/

def TERMINAL_STATUSES : List OperationStatus := [.completed, .failed, .cancelled, .interrupted]

def LEGAL_TRANSITIONS : OperationStatus → List OperationStatus
  | .queued => [.running, .cancelling, .failed, .interrupted]
  | .running => [.cancelling, .completed, .failed, .interrupted]
  | .cancelling => [.cancelled, .completed, .failed, .interrupted]
  | .completed | .failed | .cancelled | .interrupted => []

/-! ## The checks of the inputs -/

def isIdentityChar (c : Char) : Bool := c.isAlphanum || c ∈ ['.', '_', ':', '-']

/-- `IDENTITY_PATTERN`. -/
def isIdentity : List Char → Bool
  | [] => false
  | first :: rest => first.isAlphanum && rest.all isIdentityChar

def validIdentity (field value : String) : Except OperationError String :=
  let normalized := trim value
  if utf16Length normalized > 256 ∨ ¬isIdentity normalized.toList then
    .error (.invalidIdentity field)
  else .ok normalized

def validMessageKey (value : String) : Except OperationError String :=
  if isMessageKey value.toList then .ok value else .error .invalidMessageKey

def validUnit (field : String) (value : JsNumber) (allowZero : Bool) : Except OperationError Nat :=
  match integerBetween value (if allowZero then 0 else 1) MAX_SAFE_INTEGER with
  | some units => .ok units
  | none => .error (.invalidUnit field allowZero)

/-- The completed units of an operation, of its total. -/
abbrev Progress := { units : Nat × Nat // units.1 ≤ units.2 }

def validateInitialProgress (completedUnits totalUnits : JsNumber) :
    Except OperationError Progress := do
  let completed ← validUnit "completedUnits" completedUnits true
  let total ← validUnit "totalUnits" totalUnits false
  if h : completed ≤ total then .ok ⟨(completed, total), h⟩ else .error .exceedsTotal

def boundedErrorNumber (field : String) (value : JsNumber) : Except OperationError Nat :=
  match integerBetween value 0 MAX_SAFE_INTEGER with
  | some number => .ok number
  | none => .error (.invalidErrorNumber field)

/-- A check of a field that may be absent. -/
def optionally {α β : Type} (check : α → Except OperationError β) :
    Option α → Except OperationError (Option β)
  | none => .ok none
  | some value => (check value).map some

def normalizeError (error : IpcError JsNumber) :
    Except OperationError (IpcError Nat) := do
  let messageKey ← validMessageKey error.messageKey
  let operation ← validIdentity "error.operation" error.operation
  let requestId ← optionally (validIdentity "error.requestId") error.requestId
  let field ← optionally (validIdentity "error.field") error.field
  let limit ← optionally (boundedErrorNumber "error.limit") error.limit
  let actual ← optionally (boundedErrorNumber "error.actual") error.actual
  let retryAfterMs ← optionally (boundedErrorNumber "error.retryAfterMs") error.retryAfterMs
  .ok { code := error.code, messageKey, retryable := error.retryable, operation, requestId, field,
        limit, actual, retryAfterMs }

/-! ## The state -/

/-- `trail` is the history of the status: the statuses before the present one, the latest
first. -/
structure StoredOperation where
  sequence : Nat
  kind : OperationKind
  status : OperationStatus := .queued
  workspaceId : String
  sessionId : Option String
  progress : Option Progress
  messageKey : Option String
  error : Option (IpcError Nat) := none
  trail : List OperationStatus := []
  deriving DecidableEq

def StoredOperation.setStatus (record : StoredOperation) (status : OperationStatus) :
    StoredOperation :=
  { record with status, trail := record.status :: record.trail }

inductive InvocationPhase
  /-- The handler will be called. -/
  | scheduled
  /-- It was called, and its promise has not settled. -/
  | running
  | settled (fulfilled : Bool)
  /-- The `finally` of the invocation has run. -/
  | finished (fulfilled : Bool)
  deriving DecidableEq, Repr

/-- A promise of `invokeCancelHandler`. -/
structure Invocation where
  id : Nat
  operationId : String
  phase : InvocationPhase
  deriving DecidableEq, Repr

/-- The promise of a cancellation or an interruption. It is `settled` once it has looked at the
answer of the handler; its `finally` takes it out of its map. -/
structure StatusTransition where
  previousStatus : OperationStatus
  invocation : Nat
  settled : Bool := false
  deriving DecidableEq, Repr

/-- The two calls that take an operation down. -/
inductive TransitionKind
  | cancel
  | interrupt
  deriving DecidableEq, Repr

/-- The status that a call leads to. -/
def TransitionKind.target : TransitionKind → OperationStatus
  | cancel => .cancelled
  | interrupt => .interrupted

/-- `invocations` are all that were ever begun; `cancelInvocations` leads to those in the map. -/
structure OperationRegistry where
  records : OrderedMap String StoredOperation := []
  cancelHandlers : List String := []
  cancelInvocations : OrderedMap String Nat := []
  cancelTransitions : OrderedMap String StatusTransition := []
  interruptTransitions : OrderedMap String StatusTransition := []
  sequence : Nat := 0
  shuttingDown : Bool := false
  invocations : List Invocation := []

inductive OperationEvent
  | create (input : CreateOperationInput)
  | start (operationId : String)
  | complete (operationId : String)
  | fail (operationId : String) (error : IpcError JsNumber)
  | updateProgress (operationId : String) (update : OperationProgressUpdate)
  | cancel (operationId : String)
  | interrupt (operationId : String)
  | interruptActive
  | shutdown
  | invokeHandler (invocation : Nat)
  | handlerSettles (invocation : Nat) (fulfilled : Bool)
  | invocationEnds (invocation : Nat)
  | transitionSettles (kind : TransitionKind) (operationId : String)
  | transitionEnds (kind : TransitionKind) (operationId : String)

namespace OperationRegistry

variable (registry : OperationRegistry)

def assertOpen : Except OperationError Unit :=
  if registry.shuttingDown then .error .shutDown else .ok ()

def requireRecord (operationId : String) : Except OperationError StoredOperation :=
  match registry.records.get operationId with
  | some record => .ok record
  | none => .error (.unknownId operationId)

def assertTransition (operationId : String) (record : StoredOperation)
    (status : OperationStatus) : Except OperationError Unit :=
  if status ∈ LEGAL_TRANSITIONS record.status then .ok ()
  else .error (.illegalTransition operationId record.status status)

def setRecord (operationId : String) (record : StoredOperation) : OperationRegistry :=
  { registry with records := registry.records.set operationId record }

def releaseHandlerIfTerminal (operationId : String) (status : OperationStatus) :
    OperationRegistry :=
  if status ∈ TERMINAL_STATUSES then
    { registry with cancelHandlers := registry.cancelHandlers.filter (· ≠ operationId) }
  else registry

/-- The identity and the progress of a new operation. -/
def openOperation (input : CreateOperationInput) :
    Except OperationError (String × Option Progress) := do
  registry.assertOpen
  let operationId ← validIdentity "operationId" input.operationId
  if (registry.records.get operationId).isSome then .error (.duplicateId operationId)
  let progress ← optionally (fun progress : ProgressInput =>
    validateInitialProgress (progress.completedUnits.getD (.finite 0)) progress.totalUnits)
    input.progress
  .ok (operationId, progress)

def newRecord (input : CreateOperationInput) (sequence : Nat) (progress : Option Progress) :
    Except OperationError StoredOperation := do
  let workspaceId ← validIdentity "workspaceId" input.workspaceId
  let sessionId ← optionally (validIdentity "sessionId") input.sessionId
  let messageKey ← optionally validMessageKey input.messageKey
  .ok { sequence, kind := input.kind, workspaceId, sessionId, progress, messageKey }

/-- The number of the new record is taken before its other fields are checked. -/
def create (input : CreateOperationInput) : Except OperationError Unit × OperationRegistry :=
  match registry.openOperation input with
  | .error error => (.error error, registry)
  | .ok (operationId, progress) =>
    let numbered := { registry with sequence := registry.sequence + 1 }
    match newRecord input registry.sequence progress with
    | .error error => (.error error, numbered)
    | .ok record =>
      (.ok (), { numbered.setRecord operationId record with
          cancelHandlers :=
            if input.cancel then registry.cancelHandlers ++ [operationId]
            else registry.cancelHandlers })

def transition (operationId : String) (status : OperationStatus) :
    Except OperationError OperationRegistry := do
  registry.assertOpen
  let record ← registry.requireRecord operationId
  assertTransition operationId record status
  .ok ((registry.setRecord operationId (record.setStatus status)).releaseHandlerIfTerminal
    operationId status)

def start (operationId : String) : Except OperationError OperationRegistry :=
  registry.transition operationId .running

def complete (operationId : String) : Except OperationError OperationRegistry :=
  registry.transition operationId .completed

/-- The status is set before the error is checked. -/
def fail (operationId : String) (error : IpcError JsNumber) :
    Except OperationError Unit × OperationRegistry :=
  match registry.requireRecord operationId with
  | .error error => (.error error, registry)
  | .ok record =>
    match assertTransition operationId record .failed with
    | .error error => (.error error, registry)
    | .ok _ =>
      let failed := record.setStatus .failed
      match normalizeError error with
      | .error error => (.error error, registry.setRecord operationId failed)
      | .ok error =>
        (.ok (), releaseHandlerIfTerminal
            (registry.setRecord operationId { failed with error := some error }) operationId
            .failed)

/-- The total that an update is about. -/
def requestedTotal (update : OperationProgressUpdate) (existingTotal : Option Nat) :
    Except OperationError Nat :=
  match update.totalUnits, existingTotal with
  | some totalUnits, _ => validUnit "totalUnits" totalUnits false
  | none, some totalUnits => .ok totalUnits
  | none, none => .error .totalRequired

/-- What an update of the progress comes to. -/
def checkedProgress (operationId : String) (record : StoredOperation)
    (update : OperationProgressUpdate) : Except OperationError Progress := do
  if record.status ∈ TERMINAL_STATUSES then .error (.terminalProgress operationId)
  let existingTotal := record.progress.map (·.val.2)
  let totalUnits ← requestedTotal update existingTotal
  if existingTotal.isSome ∧ existingTotal ≠ some totalUnits then .error .totalImmutable
  let completedUnits ← validUnit "completedUnits" update.completedUnits true
  if h : completedUnits ≤ totalUnits then
    if record.progress.any fun progress => completedUnits < progress.val.1 then
      .error .notMonotonic
    else .ok ⟨(completedUnits, totalUnits), h⟩
  else .error .exceedsTotal

/-- The progress is set before the key of the message is checked. -/
def updateProgress (operationId : String) (update : OperationProgressUpdate) :
    Except OperationError Unit × OperationRegistry :=
  match registry.assertOpen.bind fun _ => registry.requireRecord operationId with
  | .error error => (.error error, registry)
  | .ok record =>
    match checkedProgress operationId record update with
    | .error error => (.error error, registry)
    | .ok progress =>
      let updated := { record with progress := some progress }
      match update.messageKey with
      | none => (.ok (), registry.setRecord operationId updated)
      | some messageKey =>
        match validMessageKey messageKey with
        | .error error => (.error error, registry.setRecord operationId updated)
        | .ok messageKey =>
          (.ok (), registry.setRecord operationId { updated with messageKey := some messageKey })

/-- An operation without a handler has an invocation that is fulfilled at once. -/
def invokeCancelHandler (operationId : String) : Nat × OperationRegistry :=
  match registry.cancelInvocations.get operationId with
  | some existing => (existing, registry)
  | none =>
    let id := registry.invocations.length
    let phase :=
      if operationId ∈ registry.cancelHandlers then .scheduled else .settled true
    (id, { registry with
        invocations := registry.invocations ++ [{ id, operationId, phase }]
        cancelInvocations := registry.cancelInvocations.set operationId id })

def transitions : TransitionKind → OrderedMap String StatusTransition
  | .cancel => registry.cancelTransitions
  | .interrupt => registry.interruptTransitions

def setTransitions (kind : TransitionKind) (transitions : OrderedMap String StatusTransition) :
    OperationRegistry :=
  match kind with
  | .cancel => { registry with cancelTransitions := transitions }
  | .interrupt => { registry with interruptTransitions := transitions }

/-- An operation is taken to `cancelling`, and its handler invoked. -/
def beginTransition (kind : TransitionKind) (operationId : String) (record : StoredOperation) :
    OperationRegistry :=
  let cancelling := registry.setRecord operationId (record.setStatus .cancelling)
  let (invocation, invoked) := cancelling.invokeCancelHandler operationId
  invoked.setTransitions kind ((invoked.transitions kind).set operationId
    { previousStatus := record.status, invocation })

/-- The body of `cancel` and `interrupt`: an operation that is over, or that one of them is taking
down, is left to what stands. Only `cancel` needs an open registry. -/
def takeDown (kind : TransitionKind) (operationId : String) :
    Except OperationError OperationRegistry := do
  let record ← registry.requireRecord operationId
  if record.status ∈ TERMINAL_STATUSES then .ok registry
  else if (registry.cancelTransitions.get operationId).isSome then .ok registry
  else if (registry.interruptTransitions.get operationId).isSome then .ok registry
  else
    match kind with
    | .cancel => registry.assertOpen
    | .interrupt => .ok ()
    assertTransition operationId record .cancelling
    .ok (registry.beginTransition kind operationId record)

def cancel (operationId : String) : Except OperationError OperationRegistry :=
  registry.takeDown .cancel operationId

def interrupt (operationId : String) : Except OperationError OperationRegistry :=
  registry.takeDown .interrupt operationId

/-- What a call leaves, also one that throws. -/
def behind (result : Except OperationError OperationRegistry) : OperationRegistry :=
  match result with
  | .ok after => after
  | .error _ => registry

def interruptActive : OperationRegistry :=
  let activeOperationIds :=
    (registry.records.filter fun entry => entry.2.status ∉ TERMINAL_STATUSES).map Prod.fst
  activeOperationIds.foldl
    (fun registry operationId => registry.behind (registry.interrupt operationId)) registry

def shutdown : OperationRegistry :=
  if registry.shuttingDown then registry
  else interruptActive { registry with shuttingDown := true }

def setPhase (id : Nat) (phase : InvocationPhase) : OperationRegistry :=
  { registry with
    invocations := modifyKey Invocation.id id (fun invocation => { invocation with phase })
      registry.invocations }

/-- What an event does to an invocation in its phase; in the other phases it cannot come. -/
def stepInvocation (invocation : Invocation) : OperationEvent → OperationRegistry
  | .invokeHandler _ =>
    match invocation.phase with
    | .scheduled => registry.setPhase invocation.id .running
    | _ => registry
  | .handlerSettles _ fulfilled =>
    match invocation.phase with
    | .running => registry.setPhase invocation.id (.settled fulfilled)
    | _ => registry
  | .invocationEnds _ =>
    match invocation.phase with
    | .settled fulfilled =>
      { registry.setPhase invocation.id (.finished fulfilled) with
        cancelInvocations := registry.cancelInvocations.delete invocation.operationId }
    | _ => registry
  | _ => registry

/-- How the promise of an invocation was settled, once its `finally` has run. -/
def answerOf (id : Nat) : Option Bool :=
  (registry.invocations.find? (·.id = id)).bind fun invocation =>
    match invocation.phase with
    | .finished fulfilled => some fulfilled
    | _ => none

/-- The `then` or `catch` of a transition, behind the answer of the handler. -/
def transitionSettles (kind : TransitionKind) (operationId : String) : OperationRegistry :=
  match (registry.transitions kind).get operationId with
  | none => registry
  | some transition =>
    match transition.settled, registry.answerOf transition.invocation,
        registry.records.get operationId with
    | false, some fulfilled, some record =>
      let settled := registry.setTransitions kind
        ((registry.transitions kind).set operationId { transition with settled := true })
      if record.status = .cancelling then
        if fulfilled then
          (settled.setRecord operationId (record.setStatus kind.target)).releaseHandlerIfTerminal
            operationId kind.target
        else settled.setRecord operationId (record.setStatus transition.previousStatus)
      else settled
    | _, _, _ => registry

def transitionEnds (kind : TransitionKind) (operationId : String) : OperationRegistry :=
  match (registry.transitions kind).get operationId with
  | none => registry
  | some transition =>
    if transition.settled then
      registry.setTransitions kind ((registry.transitions kind).delete operationId)
    else registry

def step (registry : OperationRegistry) (event : OperationEvent) : OperationRegistry :=
  match event with
  | .create input => (registry.create input).2
  | .start operationId => registry.behind (registry.start operationId)
  | .complete operationId => registry.behind (registry.complete operationId)
  | .fail operationId error => (registry.fail operationId error).2
  | .updateProgress operationId update => (registry.updateProgress operationId update).2
  | .cancel operationId => registry.behind (registry.cancel operationId)
  | .interrupt operationId => registry.behind (registry.interrupt operationId)
  | .interruptActive => registry.interruptActive
  | .shutdown => registry.shutdown
  | .invokeHandler id | .handlerSettles id _ | .invocationEnds id =>
    match registry.invocations.find? (·.id = id) with
    | none => registry
    | some invocation => registry.stepInvocation invocation event
  | .transitionSettles kind operationId => registry.transitionSettles kind operationId
  | .transitionEnds kind operationId => registry.transitionEnds kind operationId

end OperationRegistry

end bbcom.operation_registry
