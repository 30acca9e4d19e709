-- The books of the capture are exact in every state that a run reaches, and bounded once a frame
-- went in: bytes, drops and what is retained agree with what an observer of the store wrote down.
import Bbcom.CaptureRuns

open bbcom.js bbcom.serial bbcom.ordered_map

namespace bbcom.capture

open SessionStore SessionBooks List FrameDrop

/-! ## The invariant -/

/-- The books of one session say what it retains and what it dropped. -/
structure InBooks (record : CaptureRecord) (s : SerialSession) (row : CaptureAccountingRow)
    (rxQueue frameBuffer : Nat) : Prop where
  bytes : row.captureBytes = framesByteLength s.contents
  counter : s.droppedBytes = rxQueue + frameBuffer
  paused_only : PausedOnly s
  accounts : record.Accounts s.contents
  reported : frameBuffer = record.droppedInAll

/-- The session of that id, with books that are right. -/
def BookedAt (store : SessionStore) (records : String → CaptureRecord) (id : String)
    (s : SerialSession) : Prop :=
  ∃ row rxQueue frameBuffer,
    store.books id = ⟨some s, some row, some rxQueue, some frameBuffer⟩ ∧
      InBooks (records id) s row rxQueue frameBuffer

structure Exact (store : SessionStore) (records : String → CaptureRecord) : Prop where
  distinct : (sessionIds store.sessions).Nodup
  total : store.accounting.workspaceCaptureBytes = bytesInAll store.sessions
  snapshot : ∀ snapshot, store.lastDeletedSession = some snapshot →
    PausedOnly snapshot.session
  each : ∀ s ∈ store.sessions, BookedAt store records s.id s

variable {id : String} {records : String → CaptureRecord} {s s' : SerialSession}
  {store : SessionStore} {dropped whole : List DataFrame} {trim : FrameBufferTrimResult}

theorem Exact.booked (h : Exact store records) (hs : store.findSession id = some s) :
    s.id = id ∧ BookedAt store records id s := by
  obtain ⟨hmem, rfl⟩ := find_mem hs
  exact ⟨rfl, h.each s hmem⟩

theorem BookedAt.found (h : BookedAt store records id s) : store.findSession id = some s := by
  obtain ⟨_, _, _, hbooks, _⟩ := h
  exact congrArg session hbooks

variable {after : SessionStore}

/-- A step of one session keeps the books of all if it keeps those of the one. -/
theorem Exact.step {records' : String → CaptureRecord} {bytes : Int} (h : Exact store records)
    (hstep : SessionStep id bytes store after)
    (hrecords : ∀ other ≠ id, records' other = records other)
    (hbooked : BookedAt after records' id s') : Exact after records' where
  distinct := hstep.ids ▸ h.distinct
  total := by rw [hstep.counted, hstep.retained, h.total]
  snapshot snapshot hsnapshot := h.snapshot snapshot (hstep.snapshot ▸ hsnapshot)
  each t ht := by
    have hfind := find_of_mem (hstep.ids ▸ h.distinct : (sessionIds after.sessions).Nodup) ht
    by_cases hid : t.id = id
    · rw [hid] at hfind ⊢
      have hsame : some s' = some t := hbooked.found.symm.trans hfind
      cases hsame
      exact hbooked
    · have hbooks := hstep.others t.id hid
      have hbefore : store.findSession t.id = some t :=
        (congrArg session hbooks).symm.trans hfind
      obtain ⟨row, rxQueue, frameBuffer, hold, hin⟩ := (h.booked hbefore).2
      exact ⟨row, rxQueue, frameBuffer, hbooks.trans hold, hrecords t.id hid ▸ hin⟩

/-! ## The trim over all sessions -/

/-- The store behind a trim over all sessions. -/
def afterGlobalTrim (store : SessionStore) (result : GlobalFrameTrimResult) : SessionStore :=
  let counted := result.dropped.foldl applyGlobalDrop
    { store with sessions := result.sessions }
  { counted with accounting := counted.accounting.setWorkspaceBytes result.retainedBytes }

theorem enforceGlobalFrameByteLimit_cases (h : Exact store records) :
    (store.enforceGlobalFrameByteLimit = (store, []) ∧
      bytesInAll store.sessions ≤ MAX_GLOBAL_FRAME_BYTES) ∨
    ∃ result : GlobalFrameTrimResult,
      store.enforceGlobalFrameByteLimit = (afterGlobalTrim store result, result.dropped) ∧
        TrimmedAll store.sessions result.sessions (bytesInAll store.sessions)
          result.retainedBytes result.dropped ∧
        result.retainedBytes ≤ MAX_GLOBAL_FRAME_BYTES := by
  unfold enforceGlobalFrameByteLimit
  rw [h.total]
  by_cases hfits : bytesInAll store.sessions ≤ MAX_GLOBAL_FRAME_BYTES
  · rw [if_pos hfits]
    exact .inl ⟨rfl, hfits⟩
  · rw [if_neg hfits]
    obtain ⟨htrim, hmax⟩ := trimSessionsToGlobalByteLimit_spec h.distinct
      MAX_GLOBAL_FRAME_BYTES (Int.natCast_nonneg _)
    exact .inr ⟨_, rfl, htrim, hmax⟩

theorem afterGlobalTrim_rest (store : SessionStore) (result : GlobalFrameTrimResult) :
    sessionIds (afterGlobalTrim store result).sessions = sessionIds result.sessions ∧
      bytesInAll (afterGlobalTrim store result).sessions = bytesInAll result.sessions ∧
      (afterGlobalTrim store result).lastDeletedSession = store.lastDeletedSession :=
  applyGlobalDrops_rest result.dropped { store with sessions := result.sessions }

variable {t : SerialSession}

/-- What a session has behind the trim: less of its oldest frames, and the books of that. -/
theorem afterGlobalTrim_books (h : Exact store records) {result : GlobalFrameTrimResult}
    (htrim : TrimmedAll store.sessions result.sessions (bytesInAll store.sessions)
      result.retainedBytes result.dropped) (ht : t ∈ (afterGlobalTrim store result).sessions) :
    ∃ s ∈ store.sessions, s.id = t.id ∧ t.contents <:+ s.contents ∧
      BookedAt (afterGlobalTrim store result)
        (fun id => (records id).drop (dropOf result.dropped id)) t.id t := by
  obtain ⟨hids, _, _⟩ := afterGlobalTrim_rest store result
  have hdistinct : (sessionIds (afterGlobalTrim store result).sessions).Nodup := by
    rw [hids, htrim.same_ids]
    exact h.distinct
  have hid : t.id ∈ sessionIds store.sessions := by
    rw [← htrim.same_ids, ← hids]
    exact mem_map_of_mem ht
  obtain ⟨s, hs, hst⟩ := mem_map.1 hid
  obtain ⟨row, rxQueue, frameBuffer, hbooks, hin⟩ := h.each s hs
  rw [hst] at hbooks hin
  have hfind : store.sessions.find? (·.id = t.id) = some s := hst ▸ find_of_mem h.distinct hs
  obtain ⟨s', d, hs', hdrops, hdrop⟩ := htrim.each t.id s hfind
  have hmid : books { store with sessions := result.sessions } t.id =
      ⟨some s', some row, some rxQueue, some frameBuffer⟩ := by
    unfold books at hbooks ⊢
    simp only [SessionBooks.mk.injEq] at hbooks ⊢
    exact ⟨hs', hbooks.2⟩
  have hrow : row.captureBytes - (dropOf result.dropped t.id).droppedBytes =
      framesByteLength s'.contents := by
    have hbytes := hdrops.bytes
    rw [hin.bytes, hdrop]
    simp only [addAll]
    omega
  have hafter : (afterGlobalTrim store result).books t.id = _ :=
    applyGlobalDrops_books htrim.keys_distinct hmid
      (hdrops.same_counter.trans hin.counter) (by omega)
  rw [hrow, hdrop] at hafter
  have hfound : (afterGlobalTrim store result).findSession t.id = some t := find_of_mem hdistinct ht
  have hsame := (congrArg SessionBooks.session hafter).symm.trans hfound
  simp only [Option.some.injEq] at hsame
  rw [hsame] at hafter
  have hcontents : t.contents = s'.contents := by rw [← hsame]; rfl
  have hcounter : t.droppedBytes =
      rxQueue + (frameBuffer + (addAll {} d).droppedBytes) := by rw [← hsame]
  have hpaused : PausedOnly t := by
    rw [← hsame]
    exact hdrops.pausedOnly hin.paused_only
  have haccounts := hin.accounts.drop hdrops.contents
  refine ⟨s, hs, hst, ?_, _, _, _, hafter, ?_, hcounter, hpaused, ?_, ?_⟩
  · rw [hcontents, hdrops.contents]
    exact suffix_append _ _
  · rw [hcontents]
  · dsimp only
    rw [hdrop, hcontents]
    simpa [addAll] using haccounts
  · dsimp only
    rw [hdrop, hin.reported]
    rfl

/-- The limit over all sessions holds behind its trim, and the books are exact. -/
theorem enforceGlobalFrameByteLimit_exact (h : Exact store records) :
    Exact store.enforceGlobalFrameByteLimit.1
        (fun id => (records id).drop (dropOf store.enforceGlobalFrameByteLimit.2 id)) ∧
      bytesInAll store.enforceGlobalFrameByteLimit.1.sessions ≤ MAX_GLOBAL_FRAME_BYTES ∧
      (store.enforceGlobalFrameByteLimit.2.map Prod.fst).Nodup ∧
      (∀ entry ∈ store.enforceGlobalFrameByteLimit.2, 0 < entry.2.droppedFrames) ∧
      ∀ t ∈ store.enforceGlobalFrameByteLimit.1.sessions,
        ∃ s ∈ store.sessions, s.id = t.id ∧ t.contents <:+ s.contents := by
  rcases enforceGlobalFrameByteLimit_cases h with ⟨heq, hfits⟩ | ⟨result, heq, htrim, hmax⟩
  · rw [heq]
    exact ⟨h, hfits, nodup_nil, by simp, fun t ht => ⟨t, ht, rfl, suffix_refl _⟩⟩
  · rw [heq]
    obtain ⟨hids, hbytes, hsnapshot⟩ := afterGlobalTrim_rest store result
    refine ⟨⟨?_, ?_, ?_, ?_⟩, ?_, htrim.keys_distinct, htrim.positive, ?_⟩
    · rw [hids, htrim.same_ids]
      exact h.distinct
    · rw [hbytes]
      exact htrim.retained
    · rw [hsnapshot]
      exact h.snapshot
    · intro t ht
      obtain ⟨_, _, _, _, hbooked⟩ := afterGlobalTrim_books h htrim ht
      exact hbooked
    · rw [hbytes, ← htrim.retained]
      exact hmax
    · intro t ht
      obtain ⟨s, hs, hid, hsuffix, _⟩ := afterGlobalTrim_books h htrim ht
      exact ⟨s, hs, hid, hsuffix⟩

/-- Only sessions that are there are trimmed. -/
theorem enforceGlobalFrameByteLimit_known (h : Exact store records) :
    ∀ id ∈ store.enforceGlobalFrameByteLimit.2.map Prod.fst, id ∈ sessionIds store.sessions := by
  rcases enforceGlobalFrameByteLimit_cases h with ⟨heq, _⟩ | ⟨result, heq, htrim, _⟩
  · rw [heq]
    simp
  · rw [heq]
    exact htrim.keys_known

/-! ## What does not grow -/

/-- Each session retains a suffix of what it did, and all of them no more bytes. -/
structure Shrinks (before after : SessionStore) : Prop where
  each : ∀ t ∈ after.sessions, ∃ s ∈ before.sessions, s.id = t.id ∧ t.contents <:+ s.contents
  total : bytesInAll after.sessions ≤ bytesInAll before.sessions
  snapshot : ∀ snapshot, after.lastDeletedSession = some snapshot →
    before.lastDeletedSession = some snapshot ∨
      ∃ s ∈ before.sessions, snapshot.session.contents = s.contents

theorem Shrinks.refl (store : SessionStore) : Shrinks store store where
  each t ht := ⟨t, ht, rfl, suffix_refl _⟩
  total := le_rfl
  snapshot _ h := .inl h

theorem Shrinks.step {bytes : Int} (h : Exact store records)
    (hstep : SessionStep id bytes store after) (hbytes : bytes ≤ 0)
    (hs : store.findSession id = some s) (ht : after.findSession id = some t)
    (hsuffix : t.contents <:+ s.contents) : Shrinks store after where
  each u hu := by
    have hfind := find_of_mem (hstep.ids ▸ h.distinct : (sessionIds after.sessions).Nodup) hu
    by_cases hid : u.id = id
    · rw [hid] at hfind
      cases ht.symm.trans hfind
      exact ⟨s, (find_mem hs).1, (find_mem hs).2.trans hid.symm, hsuffix⟩
    · have hbefore : store.findSession u.id = some u :=
        (congrArg session (hstep.others u.id hid)).symm.trans hfind
      exact ⟨u, (find_mem hbefore).1, rfl, suffix_refl _⟩
  total := by
    rw [hstep.retained]
    omega
  snapshot _ hsnapshot := .inl (hstep.snapshot ▸ hsnapshot)

theorem framesByteLength_suffix {front back : List DataFrame} (h : back <:+ front) :
    framesByteLength back ≤ framesByteLength front := by
  obtain ⟨dropped, rfl⟩ := h
  rw [framesByteLength_append]
  omega

/-! ## A session behind its own trim -/

theorem Trimmed.retained_bytes {maxBytes : Int}
    (h : Trimmed whole (framesByteLength whole) maxBytes s s' trim dropped) :
    trim.retainedBytes = framesByteLength s'.contents := by
  rw [h.retained, h.contents, framesByteLength_append]
  push_cast
  ring

theorem Trimmed.within
    (h : Trimmed whole (framesByteLength whole) MAX_SESSION_FRAME_BYTES s s' trim dropped) :
    framesByteLength s'.contents ≤ MAX_SESSION_FRAME_BYTES := by
  have hretained := h.retained_bytes
  rcases h.fits with hfits | hempty
  · omega
  · rw [hempty]
    exact Nat.zero_le _

/-- The books of a session behind a trim, for an observer who has heard of the whole contents
before it and of the drop. -/
theorem settleTrim_booked (records : String → CaptureRecord) (record : CaptureRecord)
    {row : CaptureAccountingRow} {rxQueue frameBuffer : Nat} {maxBytes : Int}
    (hbooks : store.books id = ⟨some s, some row, some rxQueue, some frameBuffer⟩)
    (hcounter : s.droppedBytes = rxQueue + frameBuffer) (haccounts : record.Accounts whole)
    (hreported : frameBuffer = record.droppedInAll)
    (htrim : Trimmed whole (framesByteLength whole) maxBytes s s' trim dropped) (hid : s'.id = id)
    (hrecord : records id = record.drop trim.toFrameDrop) :
    ∃ t, BookedAt (store.settleTrim s' trim) records id t ∧ t.contents = s'.contents := by
  have hafter := settleTrim_books trim hbooks hid (htrim.same_counter.trans hcounter)
  refine ⟨_, ⟨_, _, _, hafter, ?_, rfl, htrim.paused_only, ?_, ?_⟩, rfl⟩
  · exact htrim.retained_bytes
  · have hdropped : trim.toFrameDrop = ⟨dropped.length, framesByteLength dropped⟩ := by
      rw [← htrim.dropped_frames, ← htrim.dropped_bytes]
    rw [hrecord, hdropped]
    exact haccounts.drop htrim.contents
  · rw [hrecord, hreported]
    rfl

end bbcom.capture
