-- The ledger of committed batches over whole runs: what it holds at each revision, and from
-- that how often a request is applied and what its retries are answered.
import Bbcom.WorkspaceInvariant

open bbcom.js bbcom.contracts

namespace bbcom.workspace

open List CommittedBatchRow Char Nat

/-! ## What the ledger holds -/

/-- The revisions up to this one are pruned from the ledger at a revision. -/
@[irreducible] def prunedUpTo (revision : Nat) : Nat :=
  COMMITTED_BATCH_PRUNE_INTERVAL * (revision / COMMITTED_BATCH_PRUNE_INTERVAL) -
    COMMITTED_BATCH_RETENTION_ROWS

/-- One row for each revision that is not pruned, in order, each of a request that was sent. -/
structure LedgerSound (hash : ApplyWorkspaceBatchRequest → List UInt8)
    (sent : List ApplyWorkspaceBatchRequest) (db : Database) : Prop where
  revisions : db.committedBatches.map committedRevision =
    range' (prunedUpTo db.workspaceMeta.revision + 1)
      (db.workspaceMeta.revision - prunedUpTo db.workspaceMeta.revision)
  ids_distinct : (db.committedBatches.map clientBatchId).Nodup
  rows_sent : ∀ row ∈ db.committedBatches, ∃ request ∈ sent,
    row.clientBatchId = request.clientBatchId ∧ row.requestHash = hash request ∧
      row.committedRevision = request.baseRevision.toNat + 1

theorem prunedUpTo_le (revision : Nat) : prunedUpTo revision ≤ revision := by
  unfold prunedUpTo COMMITTED_BATCH_PRUNE_INTERVAL COMMITTED_BATCH_RETENTION_ROWS
  omega

theorem prunedUpTo_mono {a b : Nat} (h : a ≤ b) : prunedUpTo a ≤ prunedUpTo b := by
  unfold prunedUpTo COMMITTED_BATCH_PRUNE_INTERVAL COMMITTED_BATCH_RETENTION_ROWS
  omega

variable {revision : Nat} {rows : List CommittedBatchRow} {db db' : Database}
  {hash : ApplyWorkspaceBatchRequest → List UInt8} {sent : List ApplyWorkspaceBatchRequest}
  {request : ApplyWorkspaceBatchRequest} {row : CommittedBatchRow} {call : Call}
  {service : WorkspaceService}

/-- A commit drops the rows between the two pruning marks. -/
theorem ledgerAfter_eq_drop (row : CommittedBatchRow) (hrow : row.committedRevision = revision + 1)
    (hlength : rows.length = revision - prunedUpTo revision) :
    ledgerAfter rows row =
      (rows ++ [row]).drop (prunedUpTo (revision + 1) - prunedUpTo revision) := by
  have hlast : (rows ++ [row]).length = revision - prunedUpTo revision + 1 := by
    simp [hlength]
  unfold ledgerAfter
  rw [hrow, hlast]
  unfold prunedUpTo COMMITTED_BATCH_PRUNE_INTERVAL COMMITTED_BATCH_RETENTION_ROWS
  by_cases hprune : (revision + 1) % 64 = 0
  · have hcount : revision - (64 * (revision / 64) - 1024) + 1 - 1024 =
        64 * ((revision + 1) / 64) - 1024 - (64 * (revision / 64) - 1024) := by
      omega
    rw [if_pos hprune, hcount]
  · rw [if_neg hprune]
    have hnone : 64 * ((revision + 1) / 64) - 1024 - (64 * (revision / 64) - 1024) = 0 := by
      omega
    rw [hnone, drop_zero]

theorem LedgerSound.length (h : LedgerSound hash sent db) :
    db.committedBatches.length =
      db.workspaceMeta.revision - prunedUpTo db.workspaceMeta.revision := by
  have hlength := congrArg List.length h.revisions
  simpa using hlength

theorem LedgerSound.commit (h : LedgerSound hash sent db) (hsent : request ∈ sent)
    (hc : Commits hash db request db') : LedgerSound hash sent db' := by
  obtain ⟨applied, now, _, rfl⟩ := hc.applied
  have hafter := ledgerAfter_eq_drop
    (ledgerRow hash request (db.workspaceMeta.revision + 1) now) rfl h.length
  refine ⟨?_, ?_, ?_⟩
  · have hle := prunedUpTo_le db.workspaceMeta.revision
    have hle' := prunedUpTo_le (db.workspaceMeta.revision + 1)
    have hmono := prunedUpTo_mono (le_add_right db.workspaceMeta.revision 1)
    have hrange : range' (prunedUpTo db.workspaceMeta.revision + 1)
          (db.workspaceMeta.revision - prunedUpTo db.workspaceMeta.revision) ++
            [db.workspaceMeta.revision + 1] =
        range' (prunedUpTo db.workspaceMeta.revision + 1)
          (db.workspaceMeta.revision + 1 - prunedUpTo db.workspaceMeta.revision) := by
      rw [succ_sub hle, range'_concat]
      congr 2
      omega
    simp only [hafter, map_drop, map_append, map_cons, map_nil, h.revisions]
    rw [show (ledgerRow hash request (db.workspaceMeta.revision + 1) now).committedRevision =
      db.workspaceMeta.revision + 1 from rfl, hrange, drop_range']
    congr 1
    · omega
    · omega
  · simp only [hafter, map_drop, map_append, map_cons, map_nil]
    refine Nodup.sublist (drop_sublist _ _)
      (nodup_append.2 ⟨h.ids_distinct, by simp, ?_⟩)
    intro a ha b hb
    obtain ⟨row, hrow, rfl⟩ := mem_map.1 ha
    rw [mem_singleton.1 hb]
    exact hc.id_unused row hrow
  · intro row hrow
    simp only [hafter] at hrow
    rcases mem_append.1 (mem_of_mem_drop hrow) with hold | hnew
    · exact h.rows_sent row hold
    · rw [mem_singleton.1 hnew]
      exact ⟨request, hsent, rfl, rfl, by rw [hc.base_revision]; rfl⟩

/-- A row stays in the ledger until its revision is pruned. -/
structure Remembers (db : Database) (row : CommittedBatchRow) : Prop where
  committed : row.committedRevision ≤ db.workspaceMeta.revision
  held : prunedUpTo db.workspaceMeta.revision < row.committedRevision →
    row ∈ db.committedBatches

theorem Remembers.commit (h : LedgerSound hash sent db) (hr : Remembers db row)
    (hc : Commits hash db request db') : Remembers db' row := by
  obtain ⟨applied, now, _, rfl⟩ := hc.applied
  have hafter := ledgerAfter_eq_drop
    (ledgerRow hash request (db.workspaceMeta.revision + 1) now) rfl h.length
  refine ⟨hr.committed.trans (le_succ _), ?_⟩
  intro hkept
  simp only at hkept
  have hmono := prunedUpTo_mono (le_add_right db.workspaceMeta.revision 1)
  have hmem : row ∈ db.committedBatches := hr.held (by omega)
  obtain ⟨i, hi, rfl⟩ := mem_iff_getElem.1 hmem
  -- the row at place `i` has the revision `prunedUpTo + 1 + i`
  have hrevision : db.committedBatches[i].committedRevision =
      prunedUpTo db.workspaceMeta.revision + 1 + i := by
    have hmap := getElem_map committedRevision
      (l := db.committedBatches) (i := i) (h := by simpa using hi)
    rw [← hmap]
    simp only [h.revisions, getElem_range', one_mul]
  rw [hrevision] at hkept
  simp only [hafter]
  refine mem_iff_getElem.2
    ⟨i - (prunedUpTo (db.workspaceMeta.revision + 1) - prunedUpTo db.workspaceMeta.revision),
      ?_, ?_⟩
  · simp only [length_drop, length_append, length_cons, length_nil]
    omega
  · rw [getElem_drop, getElem_append_left (by omega)]
    congr 1
    omega

/-! ## Calls that commit -/

def commitsAt (hash : ApplyWorkspaceBatchRequest → List UInt8) (service : WorkspaceService)
    (call : Call) : Prop :=
  (callService hash service call).db.workspaceMeta.revision ≠ service.db.workspaceMeta.revision

instance (hash : ApplyWorkspaceBatchRequest → List UInt8) (service : WorkspaceService)
    (call : Call) : Decidable (commitsAt hash service call) :=
  inferInstanceAs (Decidable (_ ≠ _))

theorem callService_cases (hash : ApplyWorkspaceBatchRequest → List UInt8)
    (service : WorkspaceService) (call : Call) :
    callService hash service call = service ∨
      (Commits hash service.db call.2 (callService hash service call).db ∧
        (callService hash service call).readOnly = service.readOnly) := by
  have hends := applyBatch_ends hash call.1 service call.2
  unfold callService
  generalize applyBatch hash call.1 service call.2 = outcome at hends
  obtain ⟨result, next⟩ := outcome
  cases hends with
  | refused error => exact .inl rfl
  | known row found same => exact .inl rfl
  | committed service' mode commits => exact .inr ⟨commits, mode⟩

theorem commits_of_commitsAt (h : commitsAt hash service call) :
    Commits hash service.db call.2 (callService hash service call).db := by
  rcases callService_cases hash service call with hsame | ⟨hc, _⟩
  · exact (h (by rw [hsame])).elim
  · exact hc

/-- A call whose base revision is over changes nothing. -/
theorem callService_stale (h : call.2.baseRevision.toNat < service.db.workspaceMeta.revision) :
    callService hash service call = service := by
  rcases callService_cases hash service call with hsame | ⟨hc, _⟩
  · exact hsame
  · exact (h.ne hc.base_revision).elim

/-- An accepted call has passed the checks in front of the ledger. -/
theorem applyBatch_accepted {hash : ApplyWorkspaceBatchRequest → List UInt8}
    {env : Surroundings} {service : WorkspaceService} {request : ApplyWorkspaceBatchRequest}
    {response : ApplyWorkspaceBatchResponse}
    (h : (applyBatch hash env service request).1 = .ok response) :
    validateBatch service request = .ok () ∧
      request.workspaceId = service.db.workspaceMeta.workspaceId := by
  have hok : ∃ outcome, (do
      validateBatch service request
      runTransaction hash env service.db request) = Except.ok outcome := by
    unfold applyBatch at h
    split at h
    · cases h
    · exact ⟨_, by assumption⟩
    · exact ⟨_, by assumption⟩
  obtain ⟨outcome, hrun⟩ := hok
  obtain ⟨_, hvalid, hrun⟩ := bind_eq_ok.1 hrun
  obtain ⟨_, _, hrun⟩ := bind_eq_ok.1 hrun
  obtain ⟨_, hid, _⟩ := bind_eq_ok.1 hrun
  exact ⟨hvalid, not_not.1 (refuseIf_ok.1 hid)⟩

theorem accepted_of_commitsAt (h : commitsAt hash service call) :
    validateBatch service call.2 = .ok () ∧
      call.2.workspaceId = service.db.workspaceMeta.workspaceId := by
  have hends := applyBatch_ends hash call.1 service call.2
  unfold commitsAt callService at h
  refine @applyBatch_accepted hash call.1 service call.2
    ⟨call.2.clientBatchId, service.db.workspaceMeta.revision + 1⟩ ?_
  generalize applyBatch hash call.1 service call.2 = outcome at hends h
  obtain ⟨result, next⟩ := outcome
  cases hends with
  | refused error => exact (h rfl).elim
  | known row found same => exact (h rfl).elim
  | committed service' mode commits => rfl

/-! ## The answer from the ledger -/

theorem find_row (hids : (rows.map clientBatchId).Nodup) (hrow : row ∈ rows) :
    rows.find? (·.clientBatchId = row.clientBatchId) = some row := by
  induction rows with
  | nil => cases hrow
  | cons first rows ih =>
    rw [map_cons, nodup_cons] at hids
    rcases mem_cons.1 hrow with rfl | hrest
    · simp
    · have hne : first.clientBatchId ≠ row.clientBatchId := fun h =>
        hids.1 (h ▸ mem_map_of_mem hrest)
      rw [find?_cons_of_neg (by simpa using hne)]
      exact ih hids.2 hrest

/-- A request whose id is in the ledger: the first answer again, or a refusal. -/
theorem applyBatch_of_row (hash : ApplyWorkspaceBatchRequest → List UInt8) {env : Surroundings}
    (hvalid : validateBatch service request = .ok ()) (hbegin : env.beginFault = none)
    (hid : request.workspaceId = service.db.workspaceMeta.workspaceId)
    (hfind : service.db.committedBatches.find? (·.clientBatchId = request.clientBatchId) = some row)
    :
    (applyBatch hash env service request).1 =
      if row.requestHash = hash request then
        .ok ⟨request.clientBatchId, row.committedRevision⟩
      else .error .batchIdReuse := by
  have hrun : runTransaction hash env service.db request = if row.requestHash = hash request then
        .ok (⟨request.clientBatchId, row.committedRevision⟩, none)
      else .error .batchIdReuse := by
    unfold runTransaction
    rw [hbegin, hfind]
    by_cases hhash : row.requestHash = hash request
    · simp [fault, refuseIf, hid, hhash, bind, Except.bind, pure, Except.pure]
    · simp [fault, refuseIf, hid, hhash, bind, Except.bind]
  unfold applyBatch
  rw [hvalid]
  simp only [bind, Except.bind]
  rw [hrun]
  by_cases hhash : row.requestHash = hash request
  · simp only [hhash, if_true]
  · simp only [hhash, if_false]

/-! ## What holds along a run -/

theorem Commits.workspaceId (h : Commits hash db request db') :
    db'.workspaceMeta.workspaceId = db.workspaceMeta.workspaceId := by
  obtain ⟨_, _, ha, rfl⟩ := h.applied
  exact (applyMutationList_sameLedger (applyMutations_ok ha).1).workspace_id

theorem callService_ledger (hsent : call.2 ∈ sent) (h : LedgerSound hash sent service.db) :
    LedgerSound hash sent (callService hash service call).db := by
  rcases callService_cases hash service call with hsame | ⟨hc, _⟩
  · rw [hsame]
    exact h
  · exact h.commit hsent hc

theorem afterCalls_ledger (calls : List Call) (hsent : ∀ call ∈ calls, call.2 ∈ sent)
    (h : LedgerSound hash sent service.db) :
    LedgerSound hash sent (afterCalls hash service calls).db :=
  @runs.run_invariant_of_mem _ _ (callService hash) (fun s => LedgerSound hash sent s.db) calls _
    (fun _ call hcall hs => callService_ledger (hsent call hcall) hs) h

/-- What a later state has in common with the state behind a commit. -/
structure Later (row : CommittedBatchRow) (committed later : WorkspaceService) : Prop where
  remembers : Remembers later.db row
  mode : later.readOnly = committed.readOnly
  workspace_id : later.db.workspaceMeta.workspaceId = committed.db.workspaceMeta.workspaceId

theorem callService_later {committed later : WorkspaceService}
    (hledger : LedgerSound hash sent later.db) (h : Later row committed later) :
    Later row committed (callService hash later call) := by
  rcases callService_cases hash later call with hsame | ⟨hc, hmode⟩
  · rw [hsame]
    exact h
  · exact ⟨h.remembers.commit hledger hc, hmode.trans h.mode, hc.workspaceId.trans h.workspace_id⟩

theorem afterCalls_later {committed later : WorkspaceService} {calls : List Call}
    (hsent : ∀ call ∈ calls, call.2 ∈ sent) (hledger : LedgerSound hash sent later.db)
    (h : Later row committed later) : Later row committed (afterCalls hash later calls) :=
  (@runs.run_invariant_of_mem _ _ (callService hash)
    (fun s => LedgerSound hash sent s.db ∧ Later row committed s) calls _
    (fun _ call hcall hs =>
      ⟨callService_ledger (hsent call hcall) hs.1, callService_later hs.1 hs.2⟩)
    ⟨hledger, h⟩).2

/-- The row that a commit has written is there at its own revision. -/
theorem remembers_of_commits (h : LedgerSound hash sent db) (hc : Commits hash db request db') :
    ∃ row, Remembers db' row ∧ row.clientBatchId = request.clientBatchId ∧
      row.requestHash = hash request ∧ row.committedRevision = db.workspaceMeta.revision + 1 := by
  obtain ⟨applied, now, _, rfl⟩ := hc.applied
  refine ⟨ledgerRow hash request (db.workspaceMeta.revision + 1) now, ⟨le_refl _, ?_⟩, rfl, rfl,
    rfl⟩
  intro hkept
  have hafter := ledgerAfter_eq_drop
    (ledgerRow hash request (db.workspaceMeta.revision + 1) now) rfl h.length
  have hkept : prunedUpTo (db.workspaceMeta.revision + 1) < db.workspaceMeta.revision + 1 := hkept
  have hle := prunedUpTo_le db.workspaceMeta.revision
  simp only [hafter]
  rw [drop_append_of_le_length (by rw [h.length]; omega)]
  exact mem_append_right _ (mem_singleton_self _)

/-! ## Exactly once -/

/-- The requests that a run applies, in order. -/
def appliedRequests (hash : ApplyWorkspaceBatchRequest → List UInt8) :
    WorkspaceService → List Call → List ApplyWorkspaceBatchRequest
  | _, [] => []
  | service, call :: calls =>
    let rest := appliedRequests hash (callService hash service call) calls
    if commitsAt hash service call then call.2 :: rest else rest

/-- Each applied request was made for the revision that it was applied to. -/
theorem appliedRequests_bases (hash : ApplyWorkspaceBatchRequest → List UInt8)
    (service : WorkspaceService) (calls : List Call) :
    (appliedRequests hash service calls).map (·.baseRevision.toNat) =
        range' service.db.workspaceMeta.revision (appliedRequests hash service calls).length ∧
      (afterCalls hash service calls).db.workspaceMeta.revision =
        service.db.workspaceMeta.revision + (appliedRequests hash service calls).length := by
  induction calls generalizing service with
  | nil => exact ⟨rfl, rfl⟩
  | cons call calls ih =>
    obtain ⟨hbases, hrevision⟩ := ih (callService hash service call)
    have hrun : afterCalls hash service (call :: calls) =
        afterCalls hash (callService hash service call) calls := rfl
    unfold appliedRequests
    rw [hrun]
    by_cases hcommit : commitsAt hash service call
    · have hc := commits_of_commitsAt hcommit
      rw [hc.revision] at hbases hrevision
      simp only [if_pos hcommit, map_cons, length_cons, range'_succ, hbases, hc.base_revision]
      exact ⟨trivial, by omega⟩
    · have hsame := not_not.1 hcommit
      rw [hsame] at hbases hrevision
      simp only [if_neg hcommit]
      exact ⟨hbases, hrevision⟩

/-- A call fails and nothing happened, answers and nothing happened, or commits one revision. -/
def Atomic (hash : ApplyWorkspaceBatchRequest → List UInt8) (service : WorkspaceService)
    (call : Call) : Prop :=
  match (applyBatch hash call.1 service call.2).1 with
  | .error _ => callService hash service call = service
  | .ok response =>
    callService hash service call = service ∨
      ((callService hash service call).db.workspaceMeta.revision =
          service.db.workspaceMeta.revision + 1 ∧
        response.committedRevision = (callService hash service call).db.workspaceMeta.revision)

/-- What a run guarantees about every commit in it and about every call that comes later. -/
structure ExactlyOnce (hash : ApplyWorkspaceBatchRequest → List UInt8)
    (service : WorkspaceService) (calls : List Call) : Prop where
  atomic : ∀ before call after, calls = before ++ call :: after →
    Atomic hash (afterCalls hash service before) call
  at_most_once : (appliedRequests hash service calls).Nodup
  one_revision_each : (afterCalls hash service calls).db.workspaceMeta.revision =
    service.db.workspaceMeta.revision + (appliedRequests hash service calls).length
  -- a retry is never applied again; it gets its revision while the ledger has it
  retry : ∀ before call between again after,
    calls = before ++ call :: (between ++ again :: after) →
    commitsAt hash (afterCalls hash service before) call → again.2 = call.2 →
      let committed := callService hash (afterCalls hash service before) call
      let later := afterCalls hash committed between
      let reply := (applyBatch hash again.1 later again.2).1
      callService hash later again = later ∧
        (prunedUpTo later.db.workspaceMeta.revision < committed.db.workspaceMeta.revision →
          again.1.beginFault = none →
            reply = .ok ⟨call.2.clientBatchId, committed.db.workspaceMeta.revision⟩) ∧
        (committed.db.workspaceMeta.revision ≤ prunedUpTo later.db.workspaceMeta.revision →
          ∃ error, reply = .error error)
  -- the id of a commit that the ledger has cannot be used for another request
  reuse : ∀ before call between again after,
    calls = before ++ call :: (between ++ again :: after) →
    commitsAt hash (afterCalls hash service before) call → again.2 ≠ call.2 →
    again.2.clientBatchId = call.2.clientBatchId →
      let committed := callService hash (afterCalls hash service before) call
      let later := afterCalls hash committed between
      let reply := (applyBatch hash again.1 later again.2).1
      prunedUpTo later.db.workspaceMeta.revision < committed.db.workspaceMeta.revision →
        callService hash later again = later ∧ (∃ error, reply = .error error) ∧
          (again.1.beginFault = none → validateBatch later again.2 = .ok () →
            again.2.workspaceId = later.db.workspaceMeta.workspaceId →
            reply = .error .batchIdReuse)

theorem atomic (hash : ApplyWorkspaceBatchRequest → List UInt8) (service : WorkspaceService)
    (call : Call) : Atomic hash service call := by
  have hends := applyBatch_ends hash call.1 service call.2
  unfold Atomic callService
  generalize applyBatch hash call.1 service call.2 = outcome at hends
  obtain ⟨result, next⟩ := outcome
  cases hends with
  | refused error => rfl
  | known row found same => exact .inl rfl
  | committed service' mode commits => exact .inr ⟨commits.revision, commits.revision.symm⟩

/-- No two requests that were sent have one hash. -/
def CollisionFree (hash : ApplyWorkspaceBatchRequest → List UInt8)
    (sent : List ApplyWorkspaceBatchRequest) : Prop :=
  ∀ a ∈ sent, ∀ b ∈ sent, hash a = hash b → a = b

/-- The state some calls after a commit, as far as a repeated request meets it. -/
structure AfterCommit (hash : ApplyWorkspaceBatchRequest → List UInt8)
    (sent : List ApplyWorkspaceBatchRequest) (request : ApplyWorkspaceBatchRequest)
    (revision : Nat) (later : WorkspaceService) : Prop where
  ledger : LedgerSound hash sent later.db
  row : ∃ row, Remembers later.db row ∧ row.clientBatchId = request.clientBatchId ∧
    row.requestHash = hash request ∧ row.committedRevision = revision
  base : request.baseRevision.toNat + 1 = revision
  valid : validateBatch later request = .ok ()
  workspace_id : request.workspaceId = later.db.workspaceMeta.workspaceId

theorem afterCommit {between : List Call} (hledger : LedgerSound hash sent service.db)
    (hsent : call.2 ∈ sent) (hbetween : ∀ other ∈ between, other.2 ∈ sent)
    (hcommit : commitsAt hash service call) :
    AfterCommit hash sent call.2 (callService hash service call).db.workspaceMeta.revision
      (afterCalls hash (callService hash service call) between) := by
  have hc := commits_of_commitsAt hcommit
  have hnext := callService_ledger hsent hledger
  obtain ⟨hvalid, hid⟩ := accepted_of_commitsAt hcommit
  obtain ⟨row, hremembers, hrowid, hrowhash, hrowrevision⟩ := remembers_of_commits hledger hc
  have hmode : (callService hash service call).readOnly = service.readOnly := by
    rcases callService_cases hash service call with hsame | ⟨_, hmode⟩
    · rw [hsame]
    · exact hmode
  have hlater : Later row (callService hash service call)
      (afterCalls hash (callService hash service call) between) :=
    afterCalls_later hbetween hnext ⟨hremembers, rfl, rfl⟩
  refine ⟨afterCalls_ledger between hbetween hnext, ⟨row, hlater.remembers, hrowid, hrowhash, ?_⟩,
    ?_,
    ?_, ?_⟩
  · rw [hrowrevision, hc.revision]
  · rw [hc.revision, hc.base_revision]
  · unfold validateBatch
    rw [hlater.mode, hmode]
    exact hvalid
  · rw [hlater.workspace_id, hc.workspaceId]
    exact hid

variable {hash : ApplyWorkspaceBatchRequest → List UInt8}
  {sent : List ApplyWorkspaceBatchRequest} {request : ApplyWorkspaceBatchRequest} {revision : Nat}
  {later : WorkspaceService}

theorem AfterCommit.stale (h : AfterCommit hash sent request revision later) :
    request.baseRevision.toNat < later.db.workspaceMeta.revision := by
  obtain ⟨row, hremembers, _, _, hrevision⟩ := h.row
  have hle := hremembers.committed
  have hbase := h.base
  omega

/-- The row that answers while the revision is not pruned. -/
theorem AfterCommit.find (h : AfterCommit hash sent request revision later)
    (hkept : prunedUpTo later.db.workspaceMeta.revision < revision) :
    ∃ row, later.db.committedBatches.find? (·.clientBatchId = request.clientBatchId) = some row ∧
      row.requestHash = hash request ∧ row.committedRevision = revision := by
  obtain ⟨row, hremembers, hid, hhash, hrevision⟩ := h.row
  have hmem : row ∈ later.db.committedBatches := hremembers.held (by rw [hrevision]; exact hkept)
  refine ⟨row, ?_, hhash, hrevision⟩
  rw [← hid]
  exact find_row h.ledger.ids_distinct hmem

/-- A retry after the pruning is refused: no other row has its hash. -/
theorem AfterCommit.refused (h : AfterCommit hash sent request revision later)
    (hfree : CollisionFree hash sent) (hsent : request ∈ sent)
    (hpruned : revision ≤ prunedUpTo later.db.workspaceMeta.revision) (env : Surroundings) :
    ∃ error, (applyBatch hash env later request).1 = .error error := by
  have hends := applyBatch_ends hash env later request
  generalize applyBatch hash env later request = outcome at hends
  obtain ⟨result, next⟩ := outcome
  cases hends with
  | refused error => exact ⟨error, rfl⟩
  | known row found same =>
    have hmem := mem_of_find?_eq_some found
    obtain ⟨other, hother, _, hhash, hrevision⟩ := h.ledger.rows_sent row hmem
    have hsame : other = request := hfree other hother request hsent (hhash.symm.trans same)
    have hrange := mem_map_of_mem (f := committedRevision) hmem
    rw [h.ledger.revisions, mem_range'_1] at hrange
    have hbase := h.base
    rw [hsame] at hrevision
    omega
  | committed service' mode commits => exact (h.stale.ne commits.base_revision).elim

/-- Another request under the id of a row that is there. -/
theorem AfterCommit.idTaken (h : AfterCommit hash sent request revision later)
    (hfree : CollisionFree hash sent) (hsent : request ∈ sent)
    (hkept : prunedUpTo later.db.workspaceMeta.revision < revision) {again : Call}
    (hagain : again.2 ∈ sent) (hne : again.2 ≠ request)
    (hid : again.2.clientBatchId = request.clientBatchId) :
    callService hash later again = later ∧
      (∃ error, (applyBatch hash again.1 later again.2).1 = .error error) ∧
      (again.1.beginFault = none → validateBatch later again.2 = .ok () →
        again.2.workspaceId = later.db.workspaceMeta.workspaceId →
        (applyBatch hash again.1 later again.2).1 = .error .batchIdReuse) := by
  obtain ⟨row, hfind, hhash, _⟩ := h.find hkept
  have hdiffers : row.requestHash ≠ hash again.2 := fun hsame =>
    hne (hfree again.2 hagain request hsent (hsame.symm.trans hhash))
  rw [← hid] at hfind
  refine ⟨?_, ?_, ?_⟩
  · rcases callService_cases hash later again with hsame | ⟨hc, _⟩
    · exact hsame
    · exact (hc.id_unused row (mem_of_find?_eq_some hfind)
        (by simpa using find?_some hfind)).elim
  · have hends := applyBatch_ends hash again.1 later again.2
    generalize applyBatch hash again.1 later again.2 = outcome at hends
    obtain ⟨result, next⟩ := outcome
    cases hends with
    | refused error => exact ⟨error, rfl⟩
    | known other found same =>
      rw [hfind, Option.some.injEq] at found
      rw [← found] at same
      exact (hdiffers same).elim
    | committed service' mode commits =>
      exact (commits.id_unused row (mem_of_find?_eq_some hfind)
        (by simpa using find?_some hfind)).elim
  · intro hbegin hvalid hworkspace
    rw [applyBatch_of_row hash hvalid hbegin hworkspace hfind, if_neg hdiffers]

theorem createWorkspace_ledger {created : CreateWorkspaceRequest} {service : WorkspaceService}
    (h : createWorkspace created = .ok service) (hash : ApplyWorkspaceBatchRequest → List UInt8)
    (sent : List ApplyWorkspaceBatchRequest) : LedgerSound hash sent service.db := by
  obtain ⟨createdAtMs, hdb, _⟩ := createWorkspace_ok h
  rw [hdb]
  refine ⟨?_, nodup_nil, fun _ hr => (not_mem_nil hr).elim⟩
  simp

/-- Every run of calls on a new workspace applies each request at most once, whatever is
repeated in it, and answers a retry with the first revision while the ledger has it. -/
theorem applyBatch_exactly_once {created : CreateWorkspaceRequest} {service : WorkspaceService}
    (hcreate : createWorkspace created = .ok service)
    (hash : ApplyWorkspaceBatchRequest → List UInt8) (calls : List Call)
    (hfree : CollisionFree hash (calls.map Prod.snd)) : ExactlyOnce hash service calls := by
  have hstart := createWorkspace_ledger hcreate hash (calls.map Prod.snd)
  have hnodup : (appliedRequests hash service calls).Nodup := by
    have hbases := (appliedRequests_bases hash service calls).1
    apply Nodup.of_map (·.baseRevision.toNat)
    rw [hbases]
    exact nodup_range'
  -- the state at the repeated call, for each way to split the run
  have hafter : ∀ before call between again after,
      calls = before ++ call :: (between ++ again :: after) →
      commitsAt hash (afterCalls hash service before) call →
      call.2 ∈ calls.map Prod.snd ∧ again.2 ∈ calls.map Prod.snd ∧
        AfterCommit hash (calls.map Prod.snd) call.2
          (callService hash (afterCalls hash service before) call).db.workspaceMeta.revision
          (afterCalls hash (callService hash (afterCalls hash service before) call) between) := by
    intro before call between again after hcalls hcommit
    have hmem : ∀ other ∈ before ++ call :: (between ++ again :: after),
        other.2 ∈ calls.map Prod.snd := fun other hother =>
      mem_map_of_mem (hcalls ▸ hother)
    have hbefore := afterCalls_ledger before
      (fun other hother => hmem other (by simp [hother])) hstart
    exact ⟨hmem call (by simp), hmem again (by simp), afterCommit hbefore (hmem call (by simp))
        (fun other hother => hmem other (by simp [hother])) hcommit⟩
  refine ⟨fun before call after _ => atomic hash _ call, hnodup,
    (appliedRequests_bases hash service calls).2, ?_, ?_⟩
  · intro before call between again after hcalls hcommit hsame committed later reply
    obtain ⟨hsent, _, h⟩ := hafter before call between again after hcalls hcommit
    refine ⟨callService_stale (by rw [hsame]; exact h.stale), ?_, ?_⟩
    · intro hkept hbegin
      obtain ⟨row, hfind, hhash, hrevision⟩ := h.find hkept
      have hreply := applyBatch_of_row hash h.valid hbegin h.workspace_id hfind
      rw [if_pos hhash, hrevision] at hreply
      simpa only [reply, hsame] using hreply
    · intro hpruned
      obtain ⟨error, herror⟩ := h.refused hfree hsent hpruned again.1
      exact ⟨error, by simpa only [reply, hsame] using herror⟩
  · intro before call between again after hcalls hcommit hne hid committed later reply hkept
    obtain ⟨hsent, hagain, h⟩ := hafter before call between again after hcalls hcommit
    exact h.idTaken hfree hsent hkept hagain hne hid

/-- A lost response: the batch is sent again, and gets its revision. -/
theorem first_session_sent_again :
    (applyBatch (fun _ => []) quietSurroundings
      (callService (fun _ => []) newWorkspace (quietSurroundings, firstSession))
      firstSession).1 = .ok ⟨"b", 1⟩ := by
  have hrevision : (callService (fun _ => []) newWorkspace
      (quietSurroundings, firstSession)).db.workspaceMeta.revision = 1 := by decide +kernel
  have hcommit : commitsAt (fun _ => []) (afterCalls (fun _ => []) newWorkspace [])
      (quietSurroundings, firstSession) := by
    simp only [commitsAt, afterCalls, runs.run_nil, hrevision]
    decide
  have honce : ExactlyOnce (fun _ => []) newWorkspace
      [(quietSurroundings, firstSession), (quietSurroundings, firstSession)] :=
    @applyBatch_exactly_once ⟨"w", "w", 0⟩ newWorkspace rfl _ _ (by simp [CollisionFree])
  have hsplit : [(quietSurroundings, firstSession), (quietSurroundings, firstSession)] =
    [] ++ (quietSurroundings, firstSession) :: ([] ++ (quietSurroundings, firstSession) :: []) :=
    rfl
  obtain ⟨_, hretry, _⟩ := honce.retry _ _ _ _ _ hsplit hcommit rfl
  simp only [afterCalls, runs.run_nil, hrevision] at hretry
  have hkept : prunedUpTo 1 < 1 := by
    unfold prunedUpTo COMMITTED_BATCH_PRUNE_INTERVAL COMMITTED_BATCH_RETENTION_ROWS
    omega
  exact hretry hkept rfl

/-! ## A retry that comes too late -/

/-- A batch that only raises the revision. -/
def touch (id : String) (revision : Nat) : ApplyWorkspaceBatchRequest where
  workspaceId := "w"
  clientBatchId := id
  baseRevision := revision.toUInt64
  mutations := [⟨0, .setMetadata ⟨none, none, none⟩⟩]

def touchId (n : Nat) : String := String.singleton (ofNat (0x4e00 + n))

def touches (n : Nat) : List Call :=
  (range n).map fun i => (quietSurroundings, touch (touchId i) i)

def touched (revision : Nat) (rows : List CommittedBatchRow) : WorkspaceService where
  db :=
    { workspaceMeta := ⟨"w", "w", 0, 0, revision, none, emptyObject⟩
      committedBatches := rows }
  readOnly := false
  saveHealth := .clean

variable {n : Nat}

theorem toNat_touchId (hn : n ≤ 1088) :
    (ofNat (0x4e00 + n)).toNat = 0x4e00 + n := by
  rw [toNat_ofNat, if_pos]
  simp only [Nat.isValidChar]
  omega

theorem touchId_inj {m : Nat} (hm : m ≤ 1088) (hn : n ≤ 1088) (h : touchId m = touchId n) :
    m = n := by
  have hchar : ofNat (0x4e00 + m) = ofNat (0x4e00 + n) := by
    simpa [touchId] using h
  have hnat := congrArg toNat hchar
  rw [toNat_touchId hm, toNat_touchId hn] at hnat
  omega

theorem validate_touchId (hn : n ≤ 1088) (field : String) :
    validateIdentifier (touchId n) field = .ok () := by
  have hnat := toNat_touchId hn
  have hlist : (touchId n).toList = [ofNat (0x4e00 + n)] := by simp [touchId]
  have hsize : (ofNat (0x4e00 + n)).utf8Size ≤ 4 := utf8Size_le_four _
  unfold validateIdentifier
  rw [refuseIf_ok, byteLength, hlist]
  have hcontrol : isControl (ofNat (0x4e00 + n)) = false := by
    unfold isControl
    rw [hnat]
    simp
    omega
  simp [hcontrol]
  omega

theorem ok_of_toBool {result : Result Unit} (h : result.toBool = true) : result = .ok () := by
  cases result with
  | error error => cases h
  | ok u => rfl

variable {id : String}

theorem touch_valid (hid : validateIdentifier id "clientBatchId" = .ok ()) (revision base : Nat)
    (rows : List CommittedBatchRow) :
    validateBatch (touched revision rows) (touch id base) = .ok () := by
  have hworkspace : validateIdentifier "w" "workspaceId" = .ok () :=
    ok_of_toBool (by decide +kernel)
  have hpayload : validateMutationPayloadLimits (touch id base) = .ok () := rfl
  have hsize : validateLogicalBatchSize [⟨0, .setMetadata ⟨none, none, none⟩⟩] = .ok () :=
    ok_of_toBool (by decide +kernel)
  have henvelope : validateBatchEnvelope (touch id base) = .ok () := by
    unfold validateBatchEnvelope
    simp only [touch, hworkspace, hid, bind, Except.bind]
    rfl
  unfold validateBatch
  rw [henvelope, hpayload]
  exact hsize

theorem applyMutations_touch (id : String) (revision : Nat) (rows : List CommittedBatchRow) :
    applyMutations (touched revision rows).db (touch id revision) =
      .ok (touched revision rows).db := by
  have hlimits : validateWorkspaceLimits (touched revision rows).db = .ok () := ok_of_toBool rfl
  have hlist : applyMutationList (touched revision rows).db (touch id revision).mutations =
      .ok (touched revision rows).db := rfl
  unfold applyMutations
  rw [hlist]
  simp only [bind, Except.bind]
  rw [hlimits]
  rfl

@[simp] theorem touch_clientBatchId (id : String) (revision : Nat) :
    (touch id revision).clientBatchId = id := rfl

theorem insertCommittedBatch_free
    (hfree : ∀ r ∈ db.committedBatches, r.clientBatchId ≠ row.clientBatchId) :
    insertCommittedBatch db row =
      .ok { db with committedBatches := db.committedBatches ++ [row] } :=
  if_neg (by simpa using hfree)

theorem commitBatch_touch (hash : ApplyWorkspaceBatchRequest → List UInt8) (id : String)
    (hrevision : revision < 2 ^ 63 - 1) (hfree : ∀ row ∈ rows, row.clientBatchId ≠ id) :
    commitBatch hash quietSurroundings (touched revision rows).db (touch id revision) =
      .ok (touched (revision + 1)
        (ledgerAfter rows (ledgerRow hash (touch id revision) (revision + 1) 0))).db := by
  have hbase : (touch id revision).baseRevision.toNat = revision := by
    simp only [touch, toUInt64_eq, UInt64.toNat_ofNat']
    omega
  have hlt : ¬2 ^ 63 ≤ revision + 1 := by omega
  have hprojected : ensureLimit "databaseBytes" 0 MAX_WORKSPACE_DATABASE_BYTES = .ok () := rfl
  have hguard : guardDatabaseSize quietSurroundings = .ok () := rfl
  have hfault : fault none = .ok () := rfl
  have hwrite : quietSurroundings.writeFault = none := rfl
  have hcommit : quietSurroundings.commitFault = none := rfl
  have hnow : quietSurroundings.now = .ok 0 := rfl
  have hsize : quietSurroundings.projectedSize = 0 := rfl
  unfold commitBatch
  rw [applyMutations_touch, hbase]
  simp only [bind, Except.bind, refuseIf, touched, hlt, hprojected, hguard, hfault, hwrite,
    hcommit, hnow, hsize, touch_clientBatchId, ne_eq, not_true_eq_false, if_false]
  rw [insertCommittedBatch_free hfree]
  simp only [pruneCommittedBatches, ledgerAfter, ledgerRow, hbase, touch_clientBatchId]
  by_cases hprune : (revision + 1) % COMMITTED_BATCH_PRUNE_INTERVAL = 0
  · simp only [hprune, if_true]
    rfl
  · simp only [hprune, if_false]
    rfl

/-- A touch under a free id is a commit. -/
theorem applyBatch_touch (hash : ApplyWorkspaceBatchRequest → List UInt8)
    (hid : validateIdentifier id "clientBatchId" = .ok ()) (hrevision : revision < 2 ^ 63 - 1)
    (hfree : ∀ row ∈ rows, row.clientBatchId ≠ id) :
    applyBatch hash quietSurroundings (touched revision rows) (touch id revision) =
      (.ok ⟨id, revision + 1⟩, touched (revision + 1)
          (ledgerAfter rows (ledgerRow hash (touch id revision) (revision + 1) 0))) := by
  have hfind : rows.find? (·.clientBatchId = id) = none := by
    simpa using hfree
  have hrun : runTransaction hash quietSurroundings (touched revision rows).db
      (touch id revision) = .ok (⟨id, revision + 1⟩, some (touched (revision + 1)
        (ledgerAfter rows (ledgerRow hash (touch id revision) (revision + 1) 0))).db) := by
    have hrows : (touched revision rows).db.committedBatches.find?
        (·.clientBatchId = (touch id revision).clientBatchId) = none := hfind
    unfold runTransaction
    rw [hrows]
    simp only [commitBatch_touch hash id hrevision hfree]
    rfl
  unfold applyBatch
  rw [touch_valid hid]
  simp only [bind, Except.bind]
  rw [hrun]
  rfl

theorem applyBatch_stale_touch (hash : ApplyWorkspaceBatchRequest → List UInt8)
    (hid : validateIdentifier id "clientBatchId" = .ok ()) (hrevision : 0 < revision)
    (hfree : ∀ row ∈ rows, row.clientBatchId ≠ id) :
    (applyBatch hash quietSurroundings (touched revision rows) (touch id 0)).1 =
      .error (.revisionConflict 0 revision) := by
  have hfind : (touched revision rows).db.committedBatches.find?
      (·.clientBatchId = (touch id 0).clientBatchId) = none :=
    find?_eq_none.2 fun row hrow h => hfree row hrow (of_decide_eq_true h)
  have hrun : runTransaction hash quietSurroundings (touched revision rows).db (touch id 0) =
      .error (.revisionConflict 0 revision) := by
    have hrefuse : refuseIf (0 ≠ revision) (.revisionConflict 0 revision) =
        .error (.revisionConflict 0 revision) := if_pos hrevision.ne
    have hcommit : commitBatch hash quietSurroundings (touched revision rows).db (touch id 0) =
        .error (.revisionConflict 0 revision) := by
      change (do refuseIf (0 ≠ revision) (.revisionConflict 0 revision); _) = _
      rw [hrefuse]
      rfl
    unfold runTransaction
    rw [hfind]
    simp only [hcommit]
    rfl
  unfold applyBatch
  rw [touch_valid hid]
  simp only [bind, Except.bind]
  rw [hrun]

theorem touches_ledger (hash : ApplyWorkspaceBatchRequest → List UInt8) (n : Nat) :
    LedgerSound hash ((touches n).map Prod.snd) (afterCalls hash newWorkspace (touches n)).db :=
  afterCalls_ledger (touches n) (fun _ hcall => mem_map_of_mem hcall)
    (@createWorkspace_ledger ⟨"w", "w", 0⟩ newWorkspace rfl hash _)

/-- The rows of the first touches are those of ids below `n`, each with its revision. -/
theorem touches_row (hn : n ≤ 1088)
    (hrow : row ∈ (afterCalls hash newWorkspace (touches n)).db.committedBatches) :
    ∃ i < n, row.clientBatchId = touchId i ∧ row.committedRevision = i + 1 := by
  obtain ⟨request, hsent, hid, _, hrevision⟩ := (touches_ledger hash n).rows_sent row hrow
  simp only [touches, map_map, mem_map, mem_range, Function.comp_apply] at hsent
  obtain ⟨i, hi, rfl⟩ := hsent
  refine ⟨i, hi, hid, ?_⟩
  rw [hrevision]
  simp only [touch, toUInt64_eq, UInt64.toNat_ofNat']
  omega

theorem afterCalls_touches (hash : ApplyWorkspaceBatchRequest → List UInt8) (hn : n ≤ 1088) :
    ∃ rows, afterCalls hash newWorkspace (touches n) = touched n rows := by
  induction n with
  | zero => exact ⟨[], rfl⟩
  | succ n ih =>
    obtain ⟨rows, hrows⟩ := ih (by omega)
    have hfree : ∀ row ∈ rows, row.clientBatchId ≠ touchId n := by
      intro row hrow hid
      have hmem : row ∈ (afterCalls hash newWorkspace (touches n)).db.committedBatches := by
        rw [hrows]
        exact hrow
      obtain ⟨i, hi, hrowid, _⟩ := touches_row (by omega) hmem
      have hsame := touchId_inj (by omega) (by omega) (hrowid.symm.trans hid)
      omega
    have hstep := applyBatch_touch hash (validate_touchId (by omega) "clientBatchId")
      (by omega : n < 2 ^ 63 - 1) hfree
    refine ⟨ledgerAfter rows (ledgerRow hash (touch (touchId n) n) (n + 1) 0), ?_⟩
    rw [touches, range_succ, map_append, afterCalls, runs.run_append]
    have hfirst : runs.run (callService hash) newWorkspace
        ((range n).map fun i => (quietSurroundings, touch (touchId i) i)) =
        touched n rows := hrows
    rw [hfirst]
    exact congrArg Prod.snd hstep

/-- A hash that tells the batches of a run apart: no two of them have one base revision. -/
def baseRevisionHash (request : ApplyWorkspaceBatchRequest) : List UInt8 :=
  (Nat.digits 256 request.baseRevision.toNat).map Nat.toUInt8

/-- The rows that are left after 1088 commits are those from revision 65 on. -/
theorem first_touch_pruned {row : CommittedBatchRow}
    (hrow : row ∈ (afterCalls baseRevisionHash newWorkspace (touches 1088)).db.committedBatches) :
    row.clientBatchId ≠ touchId 0 := by
  intro hid
  obtain ⟨rows, hrows⟩ := afterCalls_touches baseRevisionHash (le_refl 1088)
  obtain ⟨i, _, hrowid, hrevision⟩ := touches_row (le_refl 1088) hrow
  have hfirst : i = 0 := touchId_inj (by omega) (by omega) (hrowid.symm.trans hid)
  have hrange := mem_map_of_mem (f := committedRevision) hrow
  rw [(touches_ledger baseRevisionHash 1088).revisions, mem_range'_1, hrevision, hrows]
    at hrange
  have hpruned : prunedUpTo 1088 = 64 := by
    unfold prunedUpTo COMMITTED_BATCH_PRUNE_INTERVAL COMMITTED_BATCH_RETENTION_ROWS
    omega
  simp only [touched, hpruned] at hrange
  omega

/-- After 1088 commits the ledger has forgotten the first one: its retry is refused though it
was committed, and its id can carry another request. -/
theorem first_of_1088_forgotten :
    createWorkspace ⟨"w", "w", 0⟩ = .ok newWorkspace ∧
      (applyBatch baseRevisionHash quietSurroundings newWorkspace (touch (touchId 0) 0)).1 =
        .ok ⟨touchId 0, 1⟩ ∧
      (applyBatch baseRevisionHash quietSurroundings
        (afterCalls baseRevisionHash newWorkspace (touches 1088)) (touch (touchId 0) 0)).1 =
        .error (.revisionConflict 0 1088) ∧
      (applyBatch baseRevisionHash quietSurroundings
        (afterCalls baseRevisionHash newWorkspace (touches 1088)) (touch (touchId 0) 1088)).1 =
        .ok ⟨touchId 0, 1089⟩ := by
  have hid := validate_touchId (zero_le 1088) "clientBatchId"
  have hfree := @first_touch_pruned
  obtain ⟨rows, hrows⟩ := afterCalls_touches baseRevisionHash (le_refl 1088)
  rw [hrows] at hfree ⊢
  refine ⟨rfl, ?_, ?_, ?_⟩
  · exact congrArg Prod.fst (applyBatch_touch baseRevisionHash hid (by omega : 0 < 2 ^ 63 - 1)
      (fun _ hrow => (not_mem_nil hrow).elim))
  · exact applyBatch_stale_touch baseRevisionHash hid (by omega) fun _ hrow => hfree hrow
  · exact congrArg Prod.fst (applyBatch_touch baseRevisionHash hid
      (by omega : 1088 < 2 ^ 63 - 1) fun _ hrow => hfree hrow)

end bbcom.workspace
