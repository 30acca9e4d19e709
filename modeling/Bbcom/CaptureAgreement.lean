-- The books of the application follow what an observer of the session store writes down, as long
-- as the application accepts saves: each registered session has as many frames and bytes there as
-- it retains in the store.
import Bbcom.WorkspaceCapture
import Bbcom.CaptureSessions

open bbcom.serial bbcom.contracts bbcom.write_epoch

namespace bbcom.capture

open CaptureApplication CaptureAccountingStore CaptureRecord

open CaptureAccountingStore CaptureApplication WorkspaceCapture

/-- The books of the application, for an observer who has written down these records. -/
structure Follows (store : SessionStore) (application : CaptureApplication)
    (records : String → CaptureRecord) : Prop where
  summed : application.captureAccounting.Summed
  registered : ∀ id, application.captureAccounting.hasSession id = true ↔
    id ∈ sessionIds store.sessions ∧ id ∉ store.runtimeSessionIds
  rows : ∀ id row, application.captureAccounting.sessionTotals id = some row →
    row.frameCount = (records id).captured.length - (records id).dropped.droppedFrames ∧
      row.captureBytes =
        framesByteLength (records id).captured - (records id).dropped.droppedBytes
  bounded : application.captureAccounting.workspaceFrameCount ≤ MAX_WORKSPACE_FRAMES

/-- While saves are accepted, the application follows the store. -/
def FollowsWhileAccepting (store : SessionStore) (application : CaptureApplication)
    (records : String → CaptureRecord) : Prop :=
  application.acceptingSaveContext = true → Follows store application records

variable {store : SessionStore} {application : CaptureApplication}
  {records : String → CaptureRecord} {id : String}

theorem rejectPersistence_closed (messageKey : String) :
    (application.rejectPersistence messageKey).acceptingSaveContext = false := by
  unfold rejectPersistence
  split
  · rename_i hfailed
    simp [acceptingSaveContext, hfailed]
  · simp [acceptingSaveContext, latchSaveFailure]

theorem settle_error_follows (messageKey : String) :
    FollowsWhileAccepting store (settle application (.error messageKey)) records := by
  intro haccepting
  change (application.rejectPersistence messageKey).acceptingSaveContext = true at haccepting
  rw [rejectPersistence_closed] at haccepting
  cases haccepting

/-! ## What an accepted change does -/

variable {row : CaptureAccountingRow} {after : CaptureApplication}

theorem hasSession_of_totals {accounting : CaptureAccountingStore}
    (h : accounting.sessionTotals id = some row) : accounting.hasSession id = true := by
  simp [hasSession, h]

variable {records' : String → CaptureRecord}

/-- The books with one row written. -/
theorem Follows.write (h : Follows store application records)
    (hsummed : after.captureAccounting.Summed)
    (hself : after.captureAccounting.sessionTotals id = some row)
    (hothers : ∀ other ≠ id, after.captureAccounting.sessionTotals other =
      application.captureAccounting.sessionTotals other)
    (hhas : application.captureAccounting.hasSession id = true) (hrow : row.frameCount =
        (records' id).captured.length - (records' id).dropped.droppedFrames ∧
      row.captureBytes =
        framesByteLength (records' id).captured - (records' id).dropped.droppedBytes)
    (hrecords : ∀ other ≠ id, records' other = records other)
    (hbounded : after.captureAccounting.workspaceFrameCount ≤ MAX_WORKSPACE_FRAMES) :
    Follows store after records' where
  summed := hsummed
  registered other := by
    rw [← h.registered other]
    by_cases hid : other = id
    · subst hid
      rw [hhas, hasSession_of_totals hself]
    · unfold hasSession
      rw [hothers other hid]
  rows other row' hrow' := by
    by_cases hid : other = id
    · subst hid
      cases hself.symm.trans hrow'
      exact hrow
    · rw [hothers other hid] at hrow'
      rw [hrecords other hid]
      exact h.rows other row' hrow'
  bounded := hbounded

/-- What happens to a session that is not stored is no matter of the application. -/
theorem FollowsWhileAccepting.unstored (h : FollowsWhileAccepting store application records)
    (hruntime : ¬ isPersistentSession store id = true)
    (hrecords : ∀ other ≠ id, records' other = records other) :
    FollowsWhileAccepting store application records' := by
  intro haccepting
  have hfollows := h haccepting
  refine ⟨hfollows.summed, hfollows.registered, ?_, hfollows.bounded⟩
  intro other row hrow
  have hne : other ≠ id := by
    rintro rfl
    have hknown := ((hfollows.registered other).1 (hasSession_of_totals hrow)).2
    simp [isPersistentSession, hknown] at hruntime
  rw [hrecords other hne]
  exact hfollows.rows other row hrow

variable (accounting : CaptureAccountingStore)

theorem sessionTotals_recordFrames (h : accounting.sessionTotals id = some row)
    (count bytes : Int) :
    (accounting.recordFrames id count bytes).sessionTotals id =
      some { row with
        frameCount := row.frameCount + count
        captureBytes := row.captureBytes + bytes } := by
  unfold recordFrames
  dsimp only
  rw [sessionTotals_addWorkspaceFrames, sessionTotals_setRow_self, sessionRow_of_some _ h]

theorem sessionTotals_recordFrames_of_ne {other : String} (hne : other ≠ id) (count bytes : Int) :
    (accounting.recordFrames id count bytes).sessionTotals other = accounting.sessionTotals other :=
  sessionTotals_setRow_of_ne accounting _ hne

theorem frameCountOf_eq (h : application.captureAccounting.sessionTotals id = some row) :
    application.frameCountOf id = row.frameCount := by
  simp [frameCountOf, h]

variable {frame : DataFrame}

/-- What goes through the queue of captured frames. -/
theorem queueCapturedFrame_ok (h : application.queueCapturedFrame id frame = .ok after) :
    ∃ totals payload, application.captureAccounting.sessionTotals id = some totals ∧
      totals.nextSequence + 1 ≤ MAX_SAFE_INTEGER ∧ projectWorkspaceFrame frame = some payload ∧
      application.exceedsLimits id payload.data.length = false ∧
      after = { application with
        captureAccounting := (application.captureAccounting.setNextFrameSequence id
          (totals.nextSequence + 1)).recordFrames id 1 payload.data.length
        accepted := application.accepted ++
          [.appendFrame ⟨id, totals.nextSequence, payload⟩] } := by
  unfold queueCapturedFrame at h
  split at h
  · cases h
  split at h
  · cases h
  rename_i totals htotals
  split at h
  · cases h
  rename_i hsequence
  split at h
  · cases h
  rename_i payload hpayload
  split at h
  · cases h
  rename_i hlimits
  cases h
  exact ⟨totals, payload, htotals, Nat.le_of_not_lt hsequence, hpayload,
    Bool.eq_false_iff.2 hlimits, rfl⟩

theorem queueCaptureTrim_ok {droppedFrames droppedBytes : Nat}
    (h : application.queueCaptureTrim id droppedFrames droppedBytes = .ok after) :
    ∃ totals, application.captureAccounting.sessionTotals id = some totals ∧
      droppedFrames ≤ totals.frameCount ∧ droppedBytes ≤ totals.captureBytes ∧
      after = { application with
        captureAccounting := application.captureAccounting.recordFrames id
          (-droppedFrames) (-droppedBytes)
        accepted := application.accepted ++ [.trimCapture id droppedFrames] } := by
  unfold queueCaptureTrim at h
  split at h
  · cases h
  split at h
  · cases h
  rename_i totals htotals
  split at h
  · cases h
  rename_i hvalid
  simp only [not_or, not_lt, gt_iff_lt] at hvalid
  cases h
  exact ⟨totals, htotals, hvalid.2.1, hvalid.2.2.2, rfl⟩

theorem projectWorkspaceFrame_data {payload : WorkspaceQueuedFramePayload}
    (h : projectWorkspaceFrame frame = some payload) : payload.data = frame.data := by
  unfold projectWorkspaceFrame at h
  split at h
  · split at h
    · cases h
    split at h
    · cases h
    split at h
    · cases h
    cases h
    rfl
  · cases h

theorem exceedsLimits_false {bytes : Nat} :
    application.exceedsLimits id bytes = false ↔
      application.frameCountOf id + 1 ≤ MAX_WORKSPACE_FRAMES_PER_SESSION ∧
        application.captureAccounting.workspaceFrameCount + 1 ≤ MAX_WORKSPACE_FRAMES ∧
        application.captureAccounting.workspaceCaptureBytes + bytes ≤
          MAX_WORKSPACE_CAPTURE_BYTES := by
  simp [exceedsLimits, and_assoc]

/-! ## Frames and trims -/

theorem sessionTotals_setNextFrameSequence (h : accounting.sessionTotals id = some row)
    (next : Nat) :
    (accounting.setNextFrameSequence id next).sessionTotals id =
      some { row with nextSequence := next } := by
  unfold setNextFrameSequence
  rw [sessionTotals_setRow_self, sessionRow_of_some _ h]

theorem frameAdded_follows (id : String) (h : FollowsWhileAccepting store application records)
    (frame : DataFrame) :
    FollowsWhileAccepting store (onChange store application (.frameAdded id frame))
      (fun other => (records other).observe other (.frameAdded id frame)) := by
  change FollowsWhileAccepting store (if isPersistentSession store id then
    settle application (application.queueCapturedFrame id frame) else application) _
  split
  · cases hqueue : application.queueCapturedFrame id frame with
    | error messageKey => exact settle_error_follows messageKey
    | ok after =>
      obtain ⟨totals, payload, htotals, _, hpayload, hlimits, rfl⟩ := queueCapturedFrame_ok hqueue
      intro haccepting
      have hfollows := h haccepting
      obtain ⟨_, hframes, _⟩ := exceedsLimits_false.1 hlimits
      have hset := sessionTotals_setNextFrameSequence application.captureAccounting htotals
        (totals.nextSequence + 1)
      have hsummed := hfollows.summed.setNextFrameSequence id (totals.nextSequence + 1)
      obtain ⟨hpos, _, hbytespos, _⟩ := hsummed.row_le id
      have hrow := hfollows.rows id totals htotals
      refine hfollows.write (hsummed.recordFrames (by omega) (by omega))
        (sessionTotals_recordFrames _ hset 1 payload.data.length) ?_
        (hasSession_of_totals htotals) ?_ ?_ ?_
      · intro other hne
        exact (sessionTotals_recordFrames_of_ne _ hne _ _).trans
          (sessionTotals_setRow_of_ne _ _ hne)
      · simp only [CaptureRecord.observe, if_true, CaptureRecord.addFrame, List.length_append,
          List.length_singleton, framesByteLength_append, framesByteLength_cons,
          framesByteLength_nil, projectWorkspaceFrame_data hpayload]
        push_cast
        omega
      · intro other hne
        simp [CaptureRecord.observe, Ne.symm hne]
      · obtain ⟨_, _, _, _⟩ := hfollows.summed.row_le id
        have htotal : (application.captureAccounting.setNextFrameSequence id
            (totals.nextSequence + 1)).workspaceFrameCount =
            application.captureAccounting.workspaceFrameCount := rfl
        change max 0 ((application.captureAccounting.setNextFrameSequence id
          (totals.nextSequence + 1)).workspaceFrameCount + 1) ≤ _
        omega
  · rename_i hruntime
    refine h.unstored hruntime ?_
    intro other hne
    simp [CaptureRecord.observe, Ne.symm hne]

theorem captureTrimmed_follows (h : FollowsWhileAccepting store application records)
    (droppedFrames droppedBytes : Nat) :
    FollowsWhileAccepting store
      (onChange store application (.captureTrimmed id droppedFrames droppedBytes))
      (fun other => (records other).observe other
        (.captureTrimmed id droppedFrames droppedBytes)) := by
  change FollowsWhileAccepting store (if isPersistentSession store id then
    settle application (application.queueCaptureTrim id droppedFrames droppedBytes)
    else application) _
  split
  · cases hqueue : application.queueCaptureTrim id droppedFrames droppedBytes with
    | error messageKey => exact settle_error_follows messageKey
    | ok after =>
      obtain ⟨totals, htotals, hframes, hbytes, rfl⟩ := queueCaptureTrim_ok hqueue
      intro haccepting
      have hfollows := h haccepting
      have hrow := hfollows.rows id totals htotals
      have htotalsRow := sessionRow_of_some _ htotals
      obtain ⟨_, hle, _, _⟩ := hfollows.summed.row_le id
      refine hfollows.write
        (hfollows.summed.recordFrames (by rw [htotalsRow]; omega) (by rw [htotalsRow]; omega))
        (sessionTotals_recordFrames _ htotals (-droppedFrames) (-droppedBytes)) ?_
        (hasSession_of_totals htotals) ?_ ?_ ?_
      · intro other hne
        exact sessionTotals_recordFrames_of_ne _ hne _ _
      · simp only [observe, if_true, drop, FrameDrop.plus]
        push_cast
        omega
      · intro other hne
        simp [observe, Ne.symm hne]
      · change max 0 (application.captureAccounting.workspaceFrameCount + -droppedFrames) ≤ _
        have hbounded := hfollows.bounded
        omega
  · rename_i hruntime
    refine h.unstored hruntime ?_
    intro other hne
    simp [observe, Ne.symm hne]

end bbcom.capture
