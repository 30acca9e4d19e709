-- Sessions that leave the store, and sessions that join it: new ones, a removed one that comes
-- back, and those of a workspace that is opened.
import Bbcom.CaptureKeeps

open bbcom.serial bbcom.ordered_map

namespace bbcom.capture

open SessionStore CaptureAccountingStore List OrderedMap CaptureRun

variable {store : SessionStore} {records : String → CaptureRecord} {id : String}

theorem bytesInAll_perm {sessions sessions' : List SerialSession} (h : sessions.Perm sessions') :
    bytesInAll sessions = bytesInAll sessions' :=
  (h.map _).sum_eq

@[simp] theorem bytesInAll_cons (s : SerialSession) (sessions : List SerialSession) :
    bytesInAll (s :: sessions) = framesByteLength s.contents + bytesInAll sessions := by
  simp [bytesInAll]

theorem bytesInAll_nonneg (sessions : List SerialSession) : 0 ≤ bytesInAll sessions := by
  induction sessions with
  | nil => exact le_rfl
  | cons s sessions ih =>
    rw [bytesInAll_cons]
    omega

/-! ## Leaving -/

theorem removeSession_exact (h : Exact store records) :
    Exact (store.removeSession id) records ∧ Shrinks store (store.removeSession id) := by
  unfold SessionStore.removeSession
  cases hs : store.findSession id with
  | none => exact ⟨h, .refl store⟩
  | some s =>
    obtain ⟨hid, row, rxQueue, frameBuffer, hbooks, hin⟩ := h.booked hs
    have hmem : s ∈ store.sessions := (find_mem hs).1
    have hperm := perm_filter_key h.distinct hmem
    rw [hid] at hperm
    have hbytes : bytesInAll store.sessions =
        framesByteLength s.contents + bytesInAll (store.sessions.filter (·.id ≠ id)) := by
      rw [← bytesInAll_cons]
      exact bytesInAll_perm hperm
    have hdistinct : (sessionIds (store.sessions.filter (·.id ≠ id))).Nodup :=
      h.distinct.sublist (filter_sublist.map _)
    have hrow : store.accounting.sessionTotals id = some row := congrArg SessionBooks.row hbooks
    have hsnapshot : ∀ snapshot : DeletedSessionSnapshot, (if id ∈ store.runtimeSessionIds then none
          else some (⟨SessionStore.cloneStoppedSession s, store.sessions.findIdx (·.id = id)⟩ :
            DeletedSessionSnapshot)) = some snapshot →
        snapshot.session = SessionStore.cloneStoppedSession s := by
      intro snapshot heq
      split at heq
      · cases heq
      · cases heq
        rfl
    refine ⟨⟨hdistinct, ?_, ?_, ?_⟩, ⟨?_, ?_, ?_⟩⟩
    · have hpos := bytesInAll_nonneg (store.sessions.filter (·.id ≠ id))
      change (store.accounting.removeSession id).workspaceCaptureBytes =
        bytesInAll (store.sessions.filter (·.id ≠ id))
      unfold CaptureAccountingStore.removeSession
      rw [hrow]
      change max 0 (store.accounting.workspaceCaptureBytes + -row.captureBytes) = _
      rw [h.total, hin.bytes, hbytes]
      omega
    · intro snapshot heq
      rw [hsnapshot snapshot heq]
      exact hin.paused_only
    · intro t ht
      obtain ⟨htmem, htid⟩ := mem_filter.1 ht
      have hne : t.id ≠ id := by simpa using htid
      obtain ⟨trow, trx, tfb, htbooks, htin⟩ := h.each t htmem
      refine ⟨trow, trx, tfb, ?_, htin⟩
      unfold SessionStore.books at htbooks ⊢
      simp only [SessionBooks.mk.injEq] at htbooks ⊢
      obtain ⟨_, h2, h3, h4⟩ := htbooks
      refine ⟨find_of_mem hdistinct ht, ?_, ?_, ?_⟩
      · exact (CaptureAccountingStore.sessionTotals_removeSession_of_ne _ hne).trans h2
      · exact (get_delete_of_ne _ hne).trans h3
      · exact (get_delete_of_ne _ hne).trans h4
    · intro t ht
      exact ⟨t, (mem_filter.1 ht).1, rfl, suffix_refl _⟩
    · rw [hbytes]
      exact le_add_of_nonneg_left (Int.natCast_nonneg _)
    · intro snapshot heq
      refine .inr ⟨s, hmem, ?_⟩
      rw [hsnapshot snapshot heq]
      rfl

/-! ## Joining -/

/-- The books that a session gets when it joins. -/
def joinedRow (s : SerialSession) : CaptureAccountingRow where
  nextSequence := sequenceAfter s.contents
  captureBytes := frameBuffersByteLength s

/-- The store with one session more, wherever it stands. -/
structure Joined (before after : SessionStore) (s : SerialSession) : Prop where
  sessions : after.sessions.Perm (s :: before.sessions)
  accounting : after.accounting = before.accounting.registerSession s.id (joinedRow s)
  rxQueue : after.rxQueueDroppedBytes = before.rxQueueDroppedBytes.set s.id 0
  frameBuffer : after.frameBufferDroppedBytes = before.frameBufferDroppedBytes.set s.id 0
  snapshot : after.lastDeletedSession = before.lastDeletedSession ∨ after.lastDeletedSession = none

theorem joinedRow_bytes (s : SerialSession) :
    (joinedRow s).captureBytes = framesByteLength s.contents := by
  rw [← frameBuffersByteLength_eq]
  rfl

theorem Joined.exact {after : SessionStore} {s : SerialSession} (hjoin : Joined store after s)
    (h : Exact store records) (hfresh : s.id ∉ sessionIds store.sessions) (hpaused : PausedOnly s)
    (hcounter : s.droppedBytes = 0) :
    Exact after (fun other => joinRecord [s] other (records other)) where
  distinct := by
    have hperm : (sessionIds after.sessions).Perm (s.id :: sessionIds store.sessions) :=
      hjoin.sessions.map SerialSession.id
    exact hperm.nodup_iff.2 (nodup_cons.2 ⟨hfresh, h.distinct⟩)
  total := by
    rw [hjoin.accounting, bytesInAll_perm hjoin.sessions, bytesInAll_cons, ← h.total]
    change store.accounting.workspaceCaptureBytes + (joinedRow s).captureBytes = _
    rw [joinedRow_bytes]
    exact add_comm _ _
  snapshot snapshot hsnapshot := by
    rcases hjoin.snapshot with hsame | hnone
    · exact h.snapshot snapshot (hsame ▸ hsnapshot)
    · rw [hnone] at hsnapshot
      cases hsnapshot
  each := by
    have hdistinct : (sessionIds after.sessions).Nodup := by
      have hperm : (sessionIds after.sessions).Perm (s.id :: sessionIds store.sessions) :=
        hjoin.sessions.map SerialSession.id
      exact hperm.nodup_iff.2 (nodup_cons.2 ⟨hfresh, h.distinct⟩)
    intro t ht
    have hfind := find_of_mem hdistinct ht
    rcases mem_cons.1 (hjoin.sessions.mem_iff.1 ht) with rfl | hmem
    · refine ⟨joinedRow t, 0, 0, ?_, joinedRow_bytes t, hcounter, hpaused, ?_, ?_⟩
      · unfold books
        simp only [SessionBooks.mk.injEq]
        rw [hjoin.accounting, hjoin.rxQueue, hjoin.frameBuffer]
        exact ⟨hfind, sessionTotals_registerSession_self _ _ _,
          get_set_self _ _ _, get_set_self _ _ _⟩
      · refine ⟨[], ?_, ?_⟩
        · simp [joinRecord]
        · simp [joinRecord]
      · simp [joinRecord]
    · have hne : t.id ≠ s.id := fun e => hfresh (e ▸ mem_map_of_mem hmem)
      obtain ⟨row, rxQueue, frameBuffer, hbooks, hin⟩ := h.each t hmem
      refine ⟨row, rxQueue, frameBuffer, ?_, ?_⟩
      · unfold books at hbooks ⊢
        simp only [SessionBooks.mk.injEq] at hbooks ⊢
        obtain ⟨_, h2, h3, h4⟩ := hbooks
        rw [hjoin.accounting, hjoin.rxQueue, hjoin.frameBuffer]
        refine ⟨hfind, ?_, ?_, ?_⟩
        · exact (sessionTotals_registerSession_of_ne _ _ hne).trans h2
        · exact (get_set_of_ne _ _ hne).trans h3
        · exact (get_set_of_ne _ _ hne).trans h4
      · simpa [joinRecord, Ne.symm hne] using hin

theorem addSession_exact (h : Exact store records) (hfresh : id ∉ sessionIds store.sessions)
    (runtimeOnly : Bool) :
    Exact (store.addSession id runtimeOnly)
      (fun other => joinRecord [{ id }] other (records other)) := by
  have hjoin : Joined store (store.addSession id runtimeOnly) { id } :=
    ⟨perm_append_singleton _ _, rfl, rfl, rfl, .inl rfl⟩
  exact hjoin.exact h hfresh (fun hne => absurd rfl hne) rfl

/-- An undo does nothing, or the removed session is back. -/
theorem undoLastRemovedSession_joined (store : SessionStore) (admitted : Bool) :
    (store.undoLastRemovedSession admitted = store ∧
        store.joins (.undoLastRemovedSession admitted) = []) ∨
      ∃ snapshot, store.lastDeletedSession = some snapshot ∧
        store.findSession snapshot.session.id = none ∧
        store.joins (.undoLastRemovedSession admitted) =
          [cloneStoppedSession snapshot.session] ∧
        Joined store (store.undoLastRemovedSession admitted)
          (cloneStoppedSession snapshot.session) := by
  unfold undoLastRemovedSession joins
  cases hlast : store.lastDeletedSession with
  | none => exact .inl ⟨rfl, rfl⟩
  | some snapshot =>
    dsimp only
    by_cases hrefused : ((store.findSession snapshot.session.id).isSome || !admitted) = true
    · rw [if_pos hrefused, if_pos hrefused]
      exact .inl ⟨rfl, rfl⟩
    · rw [if_neg hrefused, if_neg hrefused]
      rw [Bool.or_eq_true, not_or, Option.not_isSome_iff_eq_none] at hrefused
      exact .inr ⟨snapshot, rfl, hrefused.1, rfl,
        ⟨perm_insertIdx _ _ (Nat.min_le_right _ _), rfl, rfl, rfl, .inr rfl⟩⟩

theorem undoLastRemovedSession_exact (h : Exact store records) (admitted : Bool) :
    Exact (store.undoLastRemovedSession admitted) (fun other =>
      joinRecord (store.joins (.undoLastRemovedSession admitted)) other
        (records other)) := by
  rcases undoLastRemovedSession_joined store admitted with
    ⟨hsame, hnone⟩ | ⟨snapshot, hlast, habsent, hjoins, hjoin⟩
  · rw [hsame, hnone]
    exact h
  · rw [hjoins]
    have hfresh : snapshot.session.id ∉ sessionIds store.sessions := by
      intro hmem
      obtain ⟨s, hs, hid⟩ := mem_map.1 hmem
      have hfind := find_of_mem h.distinct hs
      rw [hid] at hfind
      exact absurd (hfind.symm.trans habsent) (Option.some_ne_none s)
    exact hjoin.exact h hfresh (h.snapshot snapshot hlast) rfl

/-! ## A workspace is opened -/

theorem foldl_countFrame (frames : List DataFrame) (s : SerialSession) :
    (frames.foldl countFrame s).id = s.id ∧ (frames.foldl countFrame s).frames = s.frames ∧
      (frames.foldl countFrame s).pausedFrames = s.pausedFrames := by
  induction frames generalizing s with
  | nil => exact ⟨rfl, rfl, rfl⟩
  | cons frame frames ih =>
    obtain ⟨hid, hframes, hpaused, _⟩ := countFrame_fields s frame
    obtain ⟨h1, h2, h3⟩ := ih (countFrame s frame)
    exact ⟨h1.trans hid, h2.trans hframes, h3.trans hpaused⟩

/-- A hydrated session holds its stored frames, and none of them waits. -/
theorem hydratedSession_fields (entry : HydratedWorkspaceSession) :
    (hydratedSession entry).id = entry.id ∧
      (hydratedSession entry).contents = entry.frames ∧
      (hydratedSession entry).pausedFrames = [] := by
  obtain ⟨hid, hframes, hpaused⟩ := foldl_countFrame entry.frames
    { id := entry.id, frames := entry.frames }
  refine ⟨hid, ?_, hpaused⟩
  unfold SerialSession.contents hydratedSession
  rw [hframes, hpaused, append_nil]

/-- The books after the sessions of a list have joined one after the other. -/
theorem initializeSessions_books {sessions : List SerialSession}
    (hids : (sessionIds sessions).Nodup) (store : SessionStore) :
    (sessions.foldl initializeSession store).accounting.workspaceCaptureBytes =
        store.accounting.workspaceCaptureBytes + bytesInAll sessions ∧
      (∀ other ∉ sessionIds sessions,
        (sessions.foldl initializeSession store).accounting.sessionTotals other =
            store.accounting.sessionTotals other ∧
          (sessions.foldl initializeSession store).rxQueueDroppedBytes.get other =
            store.rxQueueDroppedBytes.get other ∧
          (sessions.foldl initializeSession store).frameBufferDroppedBytes.get other =
            store.frameBufferDroppedBytes.get other) ∧
      ∀ s ∈ sessions,
        (sessions.foldl initializeSession store).accounting.sessionTotals s.id =
            some (joinedRow s) ∧
          (sessions.foldl initializeSession store).rxQueueDroppedBytes.get s.id =
            some 0 ∧
          (sessions.foldl initializeSession store).frameBufferDroppedBytes.get s.id =
            some 0 := by
  induction sessions generalizing store with
  | nil => exact ⟨(add_zero _).symm, fun _ _ => ⟨rfl, rfl, rfl⟩, by simp⟩
  | cons s sessions ih =>
    have hcons : s.id ∉ sessionIds sessions ∧ (sessionIds sessions).Nodup := nodup_cons.1 hids
    obtain ⟨htotal, hothers, hmembers⟩ := ih hcons.2 (store.initializeSession s)
    rw [foldl_cons]
    refine ⟨?_, ?_, ?_⟩
    · rw [htotal, bytesInAll_cons, ← joinedRow_bytes]
      change store.accounting.workspaceCaptureBytes + (joinedRow s).captureBytes + _ = _
      ring
    · intro other hother
      have hne : other ≠ s.id ∧ other ∉ sessionIds sessions := by
        simpa [sessionIds] using hother
      obtain ⟨h1, h2, h3⟩ := hothers other hne.2
      refine ⟨h1.trans ?_, h2.trans ?_, h3.trans ?_⟩
      · exact sessionTotals_registerSession_of_ne _ _ hne.1
      · exact get_set_of_ne _ _ hne.1
      · exact get_set_of_ne _ _ hne.1
    · intro t ht
      rcases mem_cons.1 ht with rfl | ht
      · obtain ⟨h1, h2, h3⟩ := hothers t.id hcons.1
        refine ⟨h1.trans ?_, h2.trans ?_, h3.trans ?_⟩
        · exact sessionTotals_registerSession_self _ _ _
        · exact get_set_self _ _ _
        · exact get_set_self _ _ _
      · exact hmembers t ht

theorem replaceWorkspaceSessions_exact (h : Exact store records)
    (entries : List HydratedWorkspaceSession) :
    Exact (store.replaceWorkspaceSessions entries) (fun other =>
      joinRecord (store.joins (.replaceWorkspaceSessions entries)) other
        (records other)) := by
  unfold replaceWorkspaceSessions joins
  dsimp only
  by_cases hvalid : (entries.map (·.id)).Nodup ∧ ∀ entry ∈ entries, entry.id ≠ ""
  swap
  · rw [if_neg hvalid, if_neg hvalid]
    exact h
  rw [if_pos hvalid, if_pos hvalid]
  obtain ⟨sessions, hsessions⟩ : ∃ sessions, sessions = entries.map fun entry =>
    cloneStoppedSession (hydratedSession entry) := ⟨_, rfl⟩
  have hids : (sessionIds sessions).Nodup := by
    have hsame : sessionIds sessions = entries.map (·.id) := by
      rw [hsessions]
      unfold sessionIds
      rw [map_map]
      apply map_congr_left
      intro entry _
      exact (hydratedSession_fields entry).1
    rw [hsame]
    exact hvalid.1
  have hstopped : ∀ s ∈ sessions, PausedOnly s ∧ s.droppedBytes = 0 := by
    rw [hsessions]
    intro s hs
    obtain ⟨entry, _, rfl⟩ := mem_map.1 hs
    exact ⟨fun hne => absurd (hydratedSession_fields entry).2.2 hne, rfl⟩
  rw [← hsessions]
  obtain ⟨htotal, _, hmembers⟩ := initializeSessions_books hids
    { store with accounting := {}, rxQueueDroppedBytes := [], frameBufferDroppedBytes := [] }
  refine ⟨hids, ?_, ?_, ?_⟩
  · refine Eq.trans htotal ?_
    exact zero_add _
  · intro snapshot hsnapshot
    cases hsnapshot
  · intro s hs
    obtain ⟨hrow, hrx, hfb⟩ := hmembers s hs
    have hfind := find_of_mem hids hs
    obtain ⟨hpaused, hcounter⟩ := hstopped s hs
    have hrecord : joinRecord sessions s.id (records s.id) =
        { captured := s.contents } := by
      unfold joinRecord
      rw [hfind]
    refine ⟨joinedRow s, 0, 0, ?_, joinedRow_bytes s, hcounter, hpaused, ?_, ?_⟩
    · unfold books
      simp only [SessionBooks.mk.injEq]
      exact ⟨hfind, hrow, hrx, hfb⟩
    · dsimp only
      rw [hrecord]
      exact ⟨[], rfl, rfl⟩
    · dsimp only
      rw [hrecord]

end bbcom.capture
