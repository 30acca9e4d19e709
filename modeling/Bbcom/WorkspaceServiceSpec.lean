-- What a call of `apply_batch` can do: it fails and leaves the service as it was, it answers
-- from the ledger, or it commits one revision.
import Bbcom.Lib.Runs
import Bbcom.WorkspaceMutationSpec
import Bbcom.WorkspaceService

open bbcom.js bbcom.json bbcom.contracts

namespace bbcom.workspace

/-! ## What the mutations leave alone -/

/-- No mutation writes the identity, the revision or the ledger. -/
structure SameLedger (db db' : Database) : Prop where
  workspace_id : db'.workspaceMeta.workspaceId = db.workspaceMeta.workspaceId
  revision : db'.workspaceMeta.revision = db.workspaceMeta.revision
  committed_batches : db'.committedBatches = db.committedBatches

theorem SameLedger.refl (db : Database) : SameLedger db db := ⟨rfl, rfl, rfl⟩

theorem SameLedger.trans {a b c : Database} (h1 : SameLedger a b) (h2 : SameLedger b c) :
    SameLedger a c :=
  ⟨h2.workspace_id.trans h1.workspace_id, h2.revision.trans h1.revision,
    h2.committed_batches.trans h1.committed_batches⟩

variable {db db' : Database} {hash : ApplyWorkspaceBatchRequest → List UInt8}
  {request : ApplyWorkspaceBatchRequest}

variable {body : MutationBody Json F64}

/-- What a mutation does not write stays as it was. -/
structure Untouched (body : MutationBody Json F64) (db db' : Database) : Prop where
  ledger : db'.workspaceMeta.workspaceId = db.workspaceMeta.workspaceId ∧
    db'.workspaceMeta.revision = db.workspaceMeta.revision ∧
    db'.committedBatches = db.committedBatches
  metadata : (body matches .setMetadata _) = false →
    db'.workspaceMeta.name = db.workspaceMeta.name ∧
      db'.workspaceMeta.layoutJson = db.workspaceMeta.layoutJson
  sessions : (body matches .setActiveSession _ | .upsertSession _ _ | .removeSession _) = false →
    db'.sessions = db.sessions ∧
      db'.workspaceMeta.activeSessionId = db.workspaceMeta.activeSessionId
  ai_messages : (body matches .removeSession _ | .appendAiMessages _ _ | .clearAiMessages _) =
    false → db'.aiMessages = db.aiMessages
  samples : (body matches .removeSession _ | .replaceWaveformChannels _ _ |
    .appendWaveformSamples _ _) = false →
    db'.waveformSamples = db.waveformSamples ∧ db'.waveformChannels = db.waveformChannels

theorem applyMutation_untouched (ha : applyMutation db body = .ok db') :
    Untouched body db db' := by
  cases body with
  | setMetadata payload =>
    obtain ⟨_, _, rfl⟩ := setMetadata_ok ha
    constructor <;> simp
  | setActiveSession sessionId =>
    obtain ⟨_, rfl⟩ := setActiveSession_ok ha
    constructor <;> simp
  | upsertSession sessionId payload =>
    obtain ⟨_, _, _, he⟩ := upsertSession_ok ha
    rw [he]
    constructor <;> simp
  | removeSession sessionId =>
    rw [(removeSession_ok ha).2]
    constructor <;> simp [Database.clearActive, Database.deleteSessions]
  | appendFrames sessionId payload =>
    rw [appendFrames_ok ha]
    constructor <;> simp
  | replaceCapture sessionId payload =>
    rw [replaceCapture_ok ha]
    constructor <;> simp
  | trimCapture sessionId payload =>
    rw [trimCapture_ok ha]
    constructor <;> simp
  | upsertFeatureState entityId payload =>
    rw [upsertFeatureState_ok ha]
    constructor <;> simp
  | replaceSessionCollections sessionId payload =>
    rw [replaceSessionCollections_ok ha]
    constructor <;> simp
  | appendAiMessages sessionId payload =>
    obtain ⟨_, _, _, rfl⟩ := appendAiMessages_ok ha
    constructor <;> simp
  | clearAiMessages sessionId =>
    rw [clearAiMessages_ok ha]
    constructor <;> simp
  | replaceWaveformChannels sessionId payload =>
    obtain ⟨_, rfl⟩ := replaceWaveformChannels_ok ha
    constructor <;> simp [Database.deleteWaveformChannels]
  | appendWaveformSamples sessionId payload =>
    rw [(appendWaveformSamples_ok ha).2]
    constructor <;> simp [Database.deleteOldWaveformSamples]

theorem applyMutation_sameLedger (h : applyMutation db body = .ok db') : SameLedger db db' := by
  obtain ⟨hid, hrevision, hbatches⟩ := (applyMutation_untouched h).ledger
  exact ⟨hid, hrevision, hbatches⟩

theorem applyMutationList_sameLedger {mutations : List WorkspaceMutation}
    (h : applyMutationList db mutations = .ok db') : SameLedger db db' := by
  induction mutations generalizing db with
  | nil =>
    cases h
    exact .refl _
  | cons mutation mutations ih =>
    obtain ⟨next, hm, h⟩ := bind_eq_ok.1 h
    exact (applyMutation_sameLedger hm).trans (ih h)

/-! ## One commit -/

def ledgerRow (hash : ApplyWorkspaceBatchRequest → List UInt8)
    (request : ApplyWorkspaceBatchRequest) (committedRevision committedAtMs : Nat) :
    CommittedBatchRow where
  clientBatchId := request.clientBatchId
  requestHash := hash request
  baseRevision := request.baseRevision.toNat
  committedRevision
  mutationCount := request.mutations.length
  committedAtMs

/-- The ledger after a commit. -/
def ledgerAfter (rows : List CommittedBatchRow) (row : CommittedBatchRow) :
    List CommittedBatchRow :=
  if row.committedRevision % COMMITTED_BATCH_PRUNE_INTERVAL = 0 then
    (rows ++ [row]).drop ((rows ++ [row]).length - COMMITTED_BATCH_RETENTION_ROWS)
  else rows ++ [row]

/-- What a commit has seen and what it leaves behind. -/
structure Commits (hash : ApplyWorkspaceBatchRequest → List UInt8) (db : Database)
    (request : ApplyWorkspaceBatchRequest) (db' : Database) : Prop where
  base_revision : request.baseRevision.toNat = db.workspaceMeta.revision
  id_unused : ∀ row ∈ db.committedBatches, row.clientBatchId ≠ request.clientBatchId
  applied : ∃ applied now, applyMutations db request = .ok applied ∧ db' =
    { applied with
      workspaceMeta := { applied.workspaceMeta with
        revision := db.workspaceMeta.revision + 1, updatedAtMs := now }
      committedBatches := ledgerAfter db.committedBatches
        (ledgerRow hash request (db.workspaceMeta.revision + 1) now) }

theorem insertCommittedBatch_ok {row : CommittedBatchRow}
    (h : insertCommittedBatch db row = .ok db') :
    (∀ r ∈ db.committedBatches, r.clientBatchId ≠ row.clientBatchId) ∧
      db' = { db with committedBatches := db.committedBatches ++ [row] } := by
  unfold insertCommittedBatch at h
  split at h
  · cases h
  · rename_i hfree
    cases h
    exact ⟨by simpa using hfree, rfl⟩

variable {env : Surroundings}

theorem commitBatch_ok (h : commitBatch hash env db request = .ok db') :
    Commits hash db request db' := by
  obtain ⟨_, hbase, h⟩ := bind_eq_ok.1 h
  obtain ⟨applied, ha, h⟩ := bind_eq_ok.1 h
  replace h := passed h
  replace h := passed h
  obtain ⟨now, _, h⟩ := bind_eq_ok.1 h
  obtain ⟨recorded, hr, h⟩ := bind_eq_ok.1 h
  replace h := passed h
  replace h := passed h
  replace h := passed h
  obtain ⟨hfree, rfl⟩ := insertCommittedBatch_ok hr
  have hsame := (applyMutationList_sameLedger (applyMutations_ok ha).1).committed_batches
  simp only [hsame] at hfree h
  refine ⟨not_not.1 (refuseIf_ok.1 hbase), hfree, applied, now, ha, ?_⟩
  cases h
  unfold ledgerAfter
  by_cases hprune : (db.workspaceMeta.revision + 1) % COMMITTED_BATCH_PRUNE_INTERVAL = 0
  · simp only [ledgerRow, hprune, if_true, pruneCommittedBatches]
  · simp only [ledgerRow, hprune, if_false]

/-! ## One call -/

/-- The three ways in which a call of `apply_batch` ends. -/
inductive CallEnds (hash : ApplyWorkspaceBatchRequest → List UInt8) (service : WorkspaceService)
    (request : ApplyWorkspaceBatchRequest) :
    Result ApplyWorkspaceBatchResponse → WorkspaceService → Prop
  | refused (error : WorkspaceError) : CallEnds hash service request (.error error) service
  | known (row : CommittedBatchRow)
      (found : service.db.committedBatches.find? (·.clientBatchId = request.clientBatchId) =
        some row)
      (same : row.requestHash = hash request) :
      CallEnds hash service request (.ok ⟨request.clientBatchId, row.committedRevision⟩) service
  | committed (service' : WorkspaceService) (mode : service'.readOnly = service.readOnly)
      (commits : Commits hash service.db request service'.db) :
      CallEnds hash service request
        (.ok ⟨request.clientBatchId, service.db.workspaceMeta.revision + 1⟩) service'

theorem Commits.revision (h : Commits hash db request db') :
    db'.workspaceMeta.revision = db.workspaceMeta.revision + 1 := by
  obtain ⟨_, _, _, rfl⟩ := h.applied
  rfl

theorem runTransaction_ok {response : ApplyWorkspaceBatchResponse} {next : Option Database}
    (h : runTransaction hash env db request = .ok (response, next)) :
    (∃ row, db.committedBatches.find? (·.clientBatchId = request.clientBatchId) = some row ∧
      row.requestHash = hash request ∧
      response = ⟨request.clientBatchId, row.committedRevision⟩ ∧ next = none) ∨
    ∃ db', Commits hash db request db' ∧
      response = ⟨request.clientBatchId, db.workspaceMeta.revision + 1⟩ ∧ next = some db' := by
  replace h := passed h
  replace h := passed h
  cases hfind : db.committedBatches.find? (·.clientBatchId = request.clientBatchId) with
  | some row =>
    rw [hfind] at h
    obtain ⟨_, hhash, h⟩ := bind_eq_ok.1 h
    cases h
    exact .inl ⟨row, rfl, not_not.1 (refuseIf_ok.1 hhash), rfl, rfl⟩
  | none =>
    rw [hfind] at h
    obtain ⟨db', hcommit, h⟩ := bind_eq_ok.1 h
    cases h
    have hc := commitBatch_ok hcommit
    exact .inr ⟨db', hc, by rw [hc.revision], rfl⟩

theorem applyBatch_ends (hash : ApplyWorkspaceBatchRequest → List UInt8) (env : Surroundings)
    (service : WorkspaceService) (request : ApplyWorkspaceBatchRequest) :
    CallEnds hash service request (applyBatch hash env service request).1
      (applyBatch hash env service request).2 := by
  unfold applyBatch
  split
  · exact .refused _
  · rename_i response h
    replace h := passed h
    obtain ⟨row, hfind, hhash, rfl, _⟩ | ⟨_, _, _, hnext⟩ := runTransaction_ok h
    · exact .known row hfind hhash
    · cases hnext
  · rename_i response db h
    replace h := passed h
    obtain ⟨_, _, _, _, hnext⟩ | ⟨_, hc, rfl, hnext⟩ := runTransaction_ok h
    · cases hnext
    · cases hnext
      exact .committed _ rfl hc

/-! ## Runs -/

/-- A call: the request, and what the machine does meanwhile. -/
abbrev Call := Surroundings × ApplyWorkspaceBatchRequest

def callService (hash : ApplyWorkspaceBatchRequest → List UInt8) (service : WorkspaceService)
    (call : Call) : WorkspaceService :=
  (applyBatch hash call.1 service call.2).2

/-- The service after a list of calls. -/
def afterCalls (hash : ApplyWorkspaceBatchRequest → List UInt8) (service : WorkspaceService)
    (calls : List Call) : WorkspaceService :=
  runs.run (callService hash) service calls

theorem createWorkspace_ok {request : CreateWorkspaceRequest} {service : WorkspaceService}
    (h : createWorkspace request = .ok service) :
    ∃ createdAtMs, service.db =
      { workspaceMeta :=
          { workspaceId := request.workspaceId
            name := request.name
            createdAtMs
            updatedAtMs := createdAtMs
            revision := 0
            activeSessionId := none
            layoutJson := emptyObject } } ∧ service.readOnly = false := by
  replace h := passed h
  replace h := passed h
  obtain ⟨createdAtMs, _, h⟩ := bind_eq_ok.1 h
  replace h := passed h
  cases h
  exact ⟨createdAtMs, rfl, rfl⟩

end bbcom.workspace
