-- The write epochs of the workspace coordinator (`workspace-write-epoch.ts`, and the part of
-- `workspace-coordinator.ts` that replaces the active document). Each asynchronous method is
-- cut at its one await: a step runs the code up to the call of the port, another takes the
-- answer up to the end. What waits on the tail of an epoch stands in its list, in order.
import Bbcom.Lib.Runs
import Bbcom.WorkspaceValidation

open bbcom.js bbcom.contracts

namespace bbcom.write_epoch

/-! ## Epochs, tickets and calls of the port -/

structure Ticket where
  workspaceId : String
  epoch : Nat
  mutations : List SequencedMutation
  clientBatchId : String

inductive Task
  | batch (ticket : Ticket)
  | flush

/-- The `ApplyWorkspaceBatchRequest` of the renderer. -/
structure WriteRequest where
  workspaceId : String
  clientBatchId : String
  baseRevision : Nat
  mutations : List SequencedMutation

structure WriteResponse where
  clientBatchId : String
  committedRevision : JsNumber

structure FlushResponse where
  committedRevision : JsNumber
  saveHealth : String

/-- Where a task of an epoch waits for the port. -/
inductive AwaitPoint
  | applying (ticket : Ticket) (baseRevision : Nat)
  | flushing (targetRevision : Nat)

structure WriteEpoch where
  workspaceId : String := ""
  aborted : Bool := false
  tail : List Task := []
  running : Option AwaitPoint := none
  pending : Nat := 0
  inFlight : Bool := false
  sequence : Nat := 0

/-- The request of a ticket. -/
def Ticket.request (ticket : Ticket) (baseRevision : Nat) : WriteRequest where
  workspaceId := ticket.workspaceId
  clientBatchId := ticket.clientBatchId
  baseRevision
  mutations := ticket.mutations

/-- What the books of the model note: tickets taken in, calls of the port and their ends, and
the committed revisions that an epoch has learned of. -/
inductive Note
  | submitted (ticket : Ticket)
  | sent (ticket : Ticket) (baseRevision : Nat)
  | flushSent (epoch : Nat) (targetRevision : Nat)
  | settled (epoch : Nat)
  | committed (epoch : Nat) (revision : Nat)

/-- The engine with the document of its host. Epochs go by their number. -/
structure Engine where
  epochs : Nat → WriteEpoch := fun _ => {}
  writeEpoch : Option Nat := none
  writeEpochNumber : Nat := 0
  active : Option MutableActiveWorkspace := none
  notes : List Note := []

/-- No workspace has been opened yet. -/
def Engine.new : Engine := {}

inductive WorkspaceActionOutcome
  | completed (active : MutableActiveWorkspace)
  | failed (messageKey : String) (code : Option String)
  | stale

def safeFailure (error : PortError) (fallbackMessageKey : String) : WorkspaceActionOutcome :=
  match stableIpcError error with
  | some (code, messageKey) => .failed messageKey (some code)
  | none => .failed fallbackMessageKey none

/-- `isSaveHealth`. -/
def parseSaveHealth (value : String) : Option WorkspaceSaveHealth :=
  if value = "clean" then some .clean
  else if value = "pending" then some .pending
  else if value = "saving" then some .saving
  else if value = "degraded" then some .degraded
  else if value = "readOnly" then some .readOnly
  else none

namespace Engine

variable (e : Engine)

def setEpoch (epoch : Nat) (value : WriteEpoch) : Engine :=
  { e with epochs := Function.update e.epochs epoch value }

def setSaveHealth (health : WorkspaceSaveHealth) : Engine :=
  { e with active := e.active.map fun active => { active with saveHealth := health } }

def note (entry : Note) : Engine := { e with notes := e.notes ++ [entry] }

def isReadOnly : Bool := e.active.any (·.saveHealth = .readOnly)

/-! ## The life of an epoch -/

def abort : Engine :=
  match e.writeEpoch with
  | some epoch => e.setEpoch epoch { e.epochs epoch with aborted := true }
  | none => e

def beginEpoch (workspaceId : String) : Engine :=
  let e := e.abort
  let number := e.writeEpochNumber + 1
  { e.setEpoch number { workspaceId } with writeEpoch := some number, writeEpochNumber := number }

def clearEpoch : Engine :=
  { e.abort with writeEpoch := none, writeEpochNumber := e.writeEpochNumber + 1 }

/-- `activateHeader`; `none` is the error for a revision that goes back. -/
def activateHeader (header : MutableActiveWorkspace) : Option Engine :=
  if e.active.any fun active =>
    active.workspaceId = header.workspaceId && header.revision < active.revision
  then none
  else
    let e := e.beginEpoch header.workspaceId
    some ({ e with active := some header }.note (.committed e.writeEpochNumber header.revision))

/-- What `deleteWorkspace` does once the active workspace is gone. -/
def removeActive : Engine := { e with active := none }.clearEpoch

def isCurrentEpoch (epoch : Nat) (workspaceId : String) : Bool :=
  e.writeEpoch = some epoch && e.active.any (·.workspaceId = workspaceId) &&
    !(e.epochs epoch).aborted

/-! ## Submission -/

def commitBatch (commands : List (MutationBody JsValue JsNumber)) (batchId : Option String) :
    Engine × Option WorkspaceActionOutcome :=
  match e.active, e.writeEpoch with
  | some active, some epoch =>
    if active.saveHealth = .readOnly then
      (e, some (.failed "error.workspace_read_only" (some "WORKSPACE_READ_ONLY")))
    else if commands = [] then (e, some (.failed "workspace.mutation.invalid" none))
    else
      match createSequencedMutations commands (e.epochs epoch).sequence,
        batchId.bind validateOpaqueId with
      | some mutations, some clientBatchId =>
        let ticket : Ticket :=
          { workspaceId := active.workspaceId, epoch, mutations, clientBatchId }
        let current := e.epochs epoch
        let e := e.setEpoch epoch { current with
          sequence := current.sequence + mutations.length
          pending := current.pending + 1
          tail := current.tail ++ [.batch ticket] }
        let e := if current.inFlight then e else e.setSaveHealth .pending
        (e.note (.submitted ticket), none)
      | _, _ => (e, some (.failed "workspace.mutation.invalid" none))
  | _, _ => (e, some (.failed "workspace.no_active_project" none))

def flush : Engine × Option WorkspaceActionOutcome :=
  match e.active, e.writeEpoch with
  | some active, some epoch =>
    if active.saveHealth = .readOnly then
      (e, some (.failed "error.workspace_read_only" (some "WORKSPACE_READ_ONLY")))
    else
      let current := e.epochs epoch
      (e.setEpoch epoch { current with tail := current.tail ++ [.flush] }, none)
  | _, _ => (e, some (.failed "workspace.no_active_project" none))

/-! ## A batch -/

def finishWrite (epoch : Nat) (terminalHealth : Option WorkspaceSaveHealth) : Engine :=
  let current := e.epochs epoch
  let e := e.setEpoch epoch { current with pending := current.pending - 1, inFlight := false }
  if e.writeEpoch ≠ some epoch then e
  else if terminalHealth = some .readOnly then e.setSaveHealth .readOnly
  else if terminalHealth = some .degraded then e.setSaveHealth .degraded
  else e.setSaveHealth (if 0 < (e.epochs epoch).pending then .pending
    else terminalHealth.getD .clean)

def applyCommittedDocumentMutation (active : MutableActiveWorkspace) :
    MutationBody JsValue JsNumber → Option MutableActiveWorkspace
  | .setMetadata payload => do
    let active := match payload.name with
      | some name => { active with name }
      | none => active
    match payload.layout with
    | some layout => do
      let layout ← sanitizeWorkspaceLayout layout
      pure { active with layout }
    | none => pure active
  | .setActiveSession sessionId => pure { active with activeSessionId := sessionId }
  | .upsertSession sessionId _ =>
    pure (if active.sessionIds.contains sessionId then active
      else { active with sessionIds := active.sessionIds ++ [sessionId] })
  | .removeSession sessionId =>
    pure { active with
      sessionIds := active.sessionIds.filter (· ≠ sessionId)
      activeSessionId :=
        if active.activeSessionId = some sessionId then none else active.activeSessionId }
  | _ => pure active

def applyCommittedDocumentMutations : MutableActiveWorkspace → List SequencedMutation →
    Option MutableActiveWorkspace
  | active, [] => some active
  | active, mutation :: mutations => do
    let active ← applyCommittedDocumentMutation active mutation.body
    applyCommittedDocumentMutations active mutations

/-- The document that the response of a batch leads to; `none` where the code throws. -/
def committedDocument (active : MutableActiveWorkspace) (ticket : Ticket) (baseRevision : Nat)
    (response : WriteResponse) : Option MutableActiveWorkspace := do
  let committedRevision ← validateRevision response.committedRevision
  if response.clientBatchId ≠ ticket.clientBatchId ∨ committedRevision ≠ baseRevision + 1 ∨
    committedRevision ≤ active.revision
  then none
  let document ← applyCommittedDocumentMutations active ticket.mutations
  pure { document with revision := committedRevision }

/-- The front part of `executeBatch`. -/
def executeBatch (ticket : Ticket) : Engine × Option WorkspaceActionOutcome :=
  match e.active with
  | none => (e.finishWrite ticket.epoch none, some .stale)
  | some active =>
    if !e.isCurrentEpoch ticket.epoch ticket.workspaceId then
      (e.finishWrite ticket.epoch none, some .stale)
    else if active.saveHealth = .readOnly then
      (e.finishWrite ticket.epoch (some .readOnly),
        some (.failed "error.workspace_read_only" (some "WORKSPACE_READ_ONLY")))
    else
      let current := e.epochs ticket.epoch
      let e := (e.setEpoch ticket.epoch { current with
        inFlight := true
        running := some (.applying ticket active.revision) }).setSaveHealth .saving
      (e.note (.sent ticket active.revision), none)

/-- The `catch` of `executeBatch`. -/
def failBatch (ticket : Ticket) (error : PortError) : Engine × Option WorkspaceActionOutcome :=
  if !e.isCurrentEpoch ticket.epoch ticket.workspaceId then
    (e.finishWrite ticket.epoch none, some .stale)
  else
    let readOnly := isWorkspaceReadOnlyError error
    (e.finishWrite ticket.epoch (some (if readOnly then .readOnly else .degraded)),
      some (safeFailure error
        (if readOnly then "error.workspace_read_only" else "workspace.save.failed")))

/-- `executeBatch` from the answer of the port on. -/
def afterApply (ticket : Ticket) (baseRevision : Nat) (answer : Except PortError WriteResponse) :
    Engine × Option WorkspaceActionOutcome :=
  match answer with
  | .error error => e.failBatch ticket error
  | .ok response =>
    match e.active with
    | none => (e.finishWrite ticket.epoch none, some .stale)
    | some active =>
      if !e.isCurrentEpoch ticket.epoch ticket.workspaceId then
        (e.finishWrite ticket.epoch none, some .stale)
      else
        match committedDocument active ticket baseRevision response with
        | none => e.failBatch ticket invalidWorkspaceResponseError
        | some document =>
          let e := { e with active := some document }.finishWrite ticket.epoch (some .clean)
          (e.note (.committed ticket.epoch document.revision), e.active.map .completed)

/-! ## A flush -/

/-- The revision and the health that a flush leaves behind; `none` where the code throws. -/
def applyFlushResponse (active : MutableActiveWorkspace) (targetRevision queuedMutations : Nat)
    (response : FlushResponse) : Option MutableActiveWorkspace := do
  let committedRevision ← validateRevision response.committedRevision
  if committedRevision < targetRevision ∨ committedRevision < active.revision then none
  let saveHealth ← parseSaveHealth response.saveHealth
  pure { active with
    revision := committedRevision
    saveHealth := if saveHealth = .clean ∧ 0 < queuedMutations then .pending else saveHealth }

/-- The front part of `executeFlush`. -/
def executeFlush (epoch : Nat) : Engine × Option WorkspaceActionOutcome :=
  match e.active with
  | none => (e, some .stale)
  | some active =>
    let current := e.epochs epoch
    if !e.isCurrentEpoch epoch current.workspaceId then (e, some .stale)
    else if active.saveHealth = .readOnly then
      (e, some (.failed "error.workspace_read_only" (some "WORKSPACE_READ_ONLY")))
    else
      let e := (e.setEpoch epoch { current with
        inFlight := true
        running := some (.flushing active.revision) }).setSaveHealth .saving
      (e.note (.flushSent epoch active.revision), none)

def failFlush (epoch : Nat) (error : PortError) : Engine × Option WorkspaceActionOutcome :=
  let current := e.epochs epoch
  if !e.isCurrentEpoch epoch current.workspaceId then (e, some .stale)
  else
    let readOnly := isWorkspaceReadOnlyError error
    let e := (e.setEpoch epoch { current with inFlight := false }).setSaveHealth
      (if readOnly then .readOnly else .degraded)
    (e, some (safeFailure error
      (if readOnly then "error.workspace_read_only" else "workspace.flush.failed")))

/-- `executeFlush` from the answer of the port on. -/
def afterFlush (epoch targetRevision : Nat) (answer : Except PortError FlushResponse) :
    Engine × Option WorkspaceActionOutcome :=
  match answer with
  | .error error => e.failFlush epoch error
  | .ok response =>
    match e.active with
    | none => (e, some .stale)
    | some active =>
      let current := e.epochs epoch
      if !e.isCurrentEpoch epoch current.workspaceId then (e, some .stale)
      else
        match applyFlushResponse active targetRevision current.pending response with
        | none => e.failFlush epoch invalidWorkspaceResponseError
        | some document =>
          let e := { e with active := some document }.setEpoch epoch
            { current with inFlight := false }
          (e.note (.committed epoch document.revision), some (.completed document))

/-! ## The tail of an epoch -/

/-- The continuation on the tail runs once nothing before it is under way. -/
def start (epoch : Nat) : Engine × Option WorkspaceActionOutcome :=
  let current := e.epochs epoch
  match current.running, current.tail with
  | none, task :: tail =>
    let e := e.setEpoch epoch { current with tail }
    match task with
    | .batch ticket => e.executeBatch ticket
    | .flush => e.executeFlush epoch
  | _, _ => (e, none)

/-- How the promise of the port settles. -/
inductive Answer
  | applied (answer : Except PortError WriteResponse)
  | flushed (answer : Except PortError FlushResponse)

/-- The await of an epoch ends. -/
def settle (epoch : Nat) (answer : Answer) : Engine × Option WorkspaceActionOutcome :=
  let current := e.epochs epoch
  let taken := (e.setEpoch epoch { current with running := none }).note (.settled epoch)
  match current.running, answer with
  | some (.applying ticket baseRevision), .applied answer =>
    taken.afterApply ticket baseRevision answer
  | some (.flushing targetRevision), .flushed answer =>
    taken.afterFlush epoch targetRevision answer
  | _, _ => (e, none)

end Engine

/-! ## Events -/

inductive Event
  | activate (header : MutableActiveWorkspace)
  | remove
  | commitBatch (commands : List (MutationBody JsValue JsNumber)) (batchId : Option String)
  | flush
  | start (epoch : Nat)
  | settle (epoch : Nat) (answer : Engine.Answer)

def step (e : Engine) : Event → Engine
  | .activate header => (e.activateHeader header).getD e
  | .remove => e.removeActive
  | .commitBatch commands batchId => (e.commitBatch commands batchId).1
  | .flush => e.flush.1
  | .start epoch => (e.start epoch).1
  | .settle epoch answer => (e.settle epoch answer).1

end bbcom.write_epoch
