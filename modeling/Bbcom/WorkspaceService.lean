-- The workspace service (`service.rs`): a new workspace, its header, and `apply_batch` with
-- the ledger of the batches that it committed.
import Bbcom.WorkspaceMutation

open bbcom.json bbcom.contracts

namespace bbcom.workspace

/-- Idempotency only needs to cover response loss around recent commits. -/
def COMMITTED_BATCH_RETENTION_ROWS : Nat := 1024
def COMMITTED_BATCH_PRUNE_INTERVAL : Nat := 64

structure WorkspaceService where
  db : Database
  readOnly : Bool
  saveHealth : WorkspaceSaveHealth

/-! ## A new workspace and its header -/

structure CreateWorkspaceRequest where
  workspaceId : String
  name : String
  createdAtMs : UInt64

/-- The part of `create` that decides what the new file holds. -/
def createWorkspace (request : CreateWorkspaceRequest) : Result WorkspaceService := do
  validateIdentifier request.workspaceId "workspaceId"
  refuseIf (request.name.toList = [] ∨ byteLength request.name > 256) (.invalidInput "name")
  let createdAtMs ← i64OfNat request.createdAtMs.toNat "createdAtMs"
  refuseIf (sqlLength request.name < 1) .database
  pure
    { db :=
        { workspaceMeta :=
            { workspaceId := request.workspaceId
              name := request.name
              createdAtMs
              updatedAtMs := createdAtMs
              revision := 0
              activeSessionId := none
              layoutJson := emptyObject } }
      readOnly := false
      saveHealth := .clean }

/-- `ORDER BY sort_order, id`. -/
def sessionOrder (a b : SessionRow) : Bool :=
  a.sortOrder < b.sortOrder || (a.sortOrder = b.sortOrder && decide (a.id ≤ b.id))

/-- `read_header`; `fromStr` is `serde_json::from_str`. -/
def readHeader (fromStr : List Char → Option Json) (db : Database) :
    Result WorkspaceDocumentHeader :=
  let sessionIds := (db.liveSessions.mergeSort sessionOrder).map SessionRow.id
  if db.workspaceMeta.activeSessionId.any (!sessionIds.contains ·) then
    .error (.corrupt "active_session_id")
  else
    match fromStr db.workspaceMeta.layoutJson with
    | none => .error (.corrupt "layout_json")
    | some layout =>
      .ok
        { workspaceId := db.workspaceMeta.workspaceId
          name := db.workspaceMeta.name
          revision := db.workspaceMeta.revision
          activeSessionId := db.workspaceMeta.activeSessionId
          sessionIds
          layout }

/-! ## What a batch has to satisfy before the database sees it -/

def validateSequences : List WorkspaceMutation → Result Unit
  | first :: second :: rest =>
    if second.sequence.toNat ≠ first.sequence.toNat + 1 then .error (.invalidInput "sequence")
    else validateSequences (second :: rest)
  | _ => .ok ()

def validateBatchEnvelope (request : ApplyWorkspaceBatchRequest) : Result Unit := do
  validateIdentifier request.workspaceId "workspaceId"
  validateIdentifier request.clientBatchId "clientBatchId"
  refuseIf request.mutations.isEmpty (.invalidInput "mutations")
  ensureLimit "mutations" request.mutations.length MAX_WORKSPACE_MUTATIONS_PER_BATCH
  validateSequences request.mutations

/-- The frames of a capture mutation. -/
def captureFrames {D V : Type} : MutationBody D V → Option (List WorkspaceFramePayload)
  | .appendFrames _ payload => some payload.frames
  | .replaceCapture _ payload => some payload.frames
  | _ => none

def frameCount {D V : Type} (body : MutationBody D V) : Nat :=
  ((captureFrames body).getD []).length

def frameBytes {D V : Type} (body : MutationBody D V) : Nat :=
  (((captureFrames body).getD []).map (·.data.length)).sum

/-- `serde_json::to_vec(mutation)` of a structured mutation; a capture mutation has none. -/
def structuredBytes (mutation : WorkspaceMutation) : Nat :=
  if (captureFrames mutation.body).isSome then 0 else bytes mutation.json.print

/-- The batch budget in domain bytes. A single frame may exceed it up to the limit of a
frame, but only alone. -/
def validateLogicalBatchSize (mutations : List WorkspaceMutation) : Result Unit := do
  let frames := (mutations.map (frameCount ·.body)).sum
  let framed := (mutations.map (frameBytes ·.body)).sum
  let structured := (mutations.map structuredBytes).sum
  ensureLimit "batchFrames" frames MAX_WORKSPACE_FRAMES_PER_BATCH
  let isSingleLargeFrame := mutations.length = 1 ∧ frames = 1 ∧ structured = 0 ∧
    framed ≤ MAX_WORKSPACE_FRAME_BYTES
  refuseIf (structured + framed > MAX_WORKSPACE_BATCH_BYTES ∧ ¬isSingleLargeFrame)
    (.limitExceeded "batchBytes" MAX_WORKSPACE_BATCH_BYTES (structured + framed))

/-! ## A batch -/

/-- What the machine around one call decides: the clock, the sizes of the files, and the
statements of SQLite that fail for reasons of their own. -/
structure Surroundings where
  beginFault : Option WorkspaceError
  writeFault : Option WorkspaceError
  now : Result Nat
  projectedSize : Nat
  physicalSize : Result Nat
  rollbackFault : Option WorkspaceError
  truncateFault : Option WorkspaceError
  commitFault : Option WorkspaceError
  checkpointOk : Bool
  finalSize : Result Nat

def fault : Option WorkspaceError → Result Unit
  | none => .ok ()
  | some error => .error error

def validateDatabaseSize (physicalSize : Result Nat) : Result Unit := do
  let actual ← physicalSize
  ensureLimit "databaseBytes" actual MAX_WORKSPACE_DATABASE_BYTES

/-- The size check in front of the commit. Where the rollback or the checkpoint after it
fails, that is the error. -/
def guardDatabaseSize (env : Surroundings) : Result Unit :=
  match validateDatabaseSize env.physicalSize with
  | .ok () => .ok ()
  | .error limitError => do
    fault env.rollbackFault
    fault env.truncateFault
    .error limitError

def insertCommittedBatch (db : Database) (row : CommittedBatchRow) : Result Database :=
  if db.committedBatches.any (·.clientBatchId = row.clientBatchId) then .error .database
  else .ok { db with committedBatches := db.committedBatches ++ [row] }

/-- `DELETE .. WHERE rowid NOT IN (SELECT rowid .. ORDER BY rowid DESC LIMIT ?1)`. -/
def pruneCommittedBatches (db : Database) : Database :=
  { db with committedBatches :=
      db.committedBatches.drop (db.committedBatches.length - COMMITTED_BATCH_RETENTION_ROWS) }

/-- The transaction of a batch that the ledger does not hold. -/
def commitBatch (hash : ApplyWorkspaceBatchRequest → List UInt8) (env : Surroundings)
    (db : Database) (request : ApplyWorkspaceBatchRequest) : Result Database := do
  let currentRevision := db.workspaceMeta.revision
  refuseIf (request.baseRevision.toNat ≠ currentRevision)
    (.revisionConflict request.baseRevision.toNat currentRevision)
  let applied ← applyMutations db request
  fault env.writeFault
  let committedRevision := currentRevision + 1
  refuseIf (2 ^ 63 ≤ committedRevision) (.corrupt "revision")
  let committedAtMs ← env.now
  let stamped := { applied with
    workspaceMeta := { applied.workspaceMeta with
      revision := committedRevision, updatedAtMs := committedAtMs } }
  let recorded ← insertCommittedBatch stamped
    { clientBatchId := request.clientBatchId
      requestHash := hash request
      baseRevision := request.baseRevision.toNat
      committedRevision
      mutationCount := request.mutations.length
      committedAtMs }
  let pruned := if committedRevision % COMMITTED_BATCH_PRUNE_INTERVAL = 0 then
    pruneCommittedBatches recorded else recorded
  ensureLimit "databaseBytes" env.projectedSize MAX_WORKSPACE_DATABASE_BYTES
  guardDatabaseSize env
  fault env.commitFault
  pure pruned

def validateBatch (service : WorkspaceService) (request : ApplyWorkspaceBatchRequest) :
    Result Unit := do
  refuseIf service.readOnly .readOnly
  validateBatchEnvelope request
  validateMutationPayloadLimits request
  validateLogicalBatchSize request.mutations

/-- What a call does inside its transaction: the response, and the database that it commits
where it commits one. -/
def runTransaction (hash : ApplyWorkspaceBatchRequest → List UInt8) (env : Surroundings)
    (db : Database) (request : ApplyWorkspaceBatchRequest) :
    Result (ApplyWorkspaceBatchResponse × Option Database) := do
  fault env.beginFault
  refuseIf (request.workspaceId ≠ db.workspaceMeta.workspaceId) (.invalidInput "workspaceId")
  match db.committedBatches.find? (·.clientBatchId = request.clientBatchId) with
  | some row => do
    refuseIf (row.requestHash ≠ hash request) .batchIdReuse
    pure (⟨request.clientBatchId, row.committedRevision⟩, none)
  | none => do
    let committed ← commitBatch hash env db request
    pure (⟨request.clientBatchId, committed.workspaceMeta.revision⟩, some committed)

/-- `apply_batch`. An error drops the transaction, which rolls it back. -/
def applyBatch (hash : ApplyWorkspaceBatchRequest → List UInt8) (env : Surroundings)
    (service : WorkspaceService) (request : ApplyWorkspaceBatchRequest) :
    Result ApplyWorkspaceBatchResponse × WorkspaceService :=
  match (do validateBatch service request; runTransaction hash env service.db request) with
  | .error error => (.error error, service)
  | .ok (response, none) => (.ok response, service)
  | .ok (response, some db) =>
    let healthy := env.checkpointOk && (validateDatabaseSize env.finalSize).toBool
    (.ok response, { service with db, saveHealth := if healthy then .clean else .degraded })

end bbcom.workspace
