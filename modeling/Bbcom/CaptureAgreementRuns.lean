-- The application follows the store in every state that a run of an open workspace reaches,
-- whatever the order of frames, pauses, clears, removals and undos.
import Bbcom.CaptureAgreement

open bbcom.js bbcom.serial bbcom.write_epoch bbcom.ordered_map

namespace bbcom.capture

open SessionStore CaptureRecord List

open CaptureAccountingStore CaptureApplication WorkspaceCapture

variable {store : SessionStore} {application : CaptureApplication}
  {records : String → CaptureRecord} {id : String}

/-! ## The sessions stay -/

/-- No session came or went. -/
structure SameSessions (before after : SessionStore) : Prop where
  ids : sessionIds after.sessions = sessionIds before.sessions
  runtime : after.runtimeSessionIds = before.runtimeSessionIds

theorem SameSessions.refl (store : SessionStore) : SameSessions store store := ⟨rfl, rfl⟩

theorem SameSessions.trans {a b c : SessionStore} (h1 : SameSessions a b)
    (h2 : SameSessions b c) : SameSessions a c :=
  ⟨h2.ids.trans h1.ids, h2.runtime.trans h1.runtime⟩

theorem SameSessions.follows {after : SessionStore} (hsame : SameSessions store after)
    (h : FollowsWhileAccepting store application records) :
    FollowsWhileAccepting after application records := by
  intro haccepting
  obtain ⟨hsummed, hregistered, hrows, hbounded⟩ := h haccepting
  refine ⟨hsummed, ?_, hrows, hbounded⟩
  rw [hsame.ids, hsame.runtime]
  exact hregistered

theorem updateSession_same {update : SerialSession → SerialSession}
    (hid : ∀ s, s.id = id → (update s).id = id) :
    SameSessions store (store.updateSession id update) :=
  ⟨updateSession_ids hid, rfl⟩

theorem addFrameBufferDrop_same (droppedBytes : Nat) :
    SameSessions store (store.addFrameBufferDrop id droppedBytes) := by
  refine ⟨addFrameBufferDrop_ids droppedBytes, ?_⟩
  unfold addFrameBufferDrop
  split <;> rfl

theorem settleTrim_same (s : SerialSession) (trim : FrameBufferTrimResult) :
    SameSessions store (store.settleTrim s trim) := by
  have hupdate : SameSessions store (store.updateSession s.id fun _ => s) :=
    updateSession_same (by exact fun _ _ => rfl)
  have hbytes : SameSessions (store.updateSession s.id fun _ => s)
      ((store.updateSession s.id fun _ => s).setRetainedFrameBytes s.id trim.retainedBytes) :=
    ⟨rfl, rfl⟩
  exact (hupdate.trans hbytes).trans (addFrameBufferDrop_same trim.droppedBytes)

theorem applyGlobalDrops_same (drops : OrderedMap String FrameDrop) (store : SessionStore) :
    SameSessions store (drops.foldl SessionStore.applyGlobalDrop store) := by
  induction drops generalizing store with
  | nil => exact .refl store
  | cons entry drops ih =>
    have hbytes : SameSessions store (store.setRetainedFrameBytes entry.1
        (max 0 ((store.accounting.sessionRow entry.1).captureBytes - entry.2.droppedBytes))) :=
      ⟨rfl, rfl⟩
    exact (hbytes.trans (addFrameBufferDrop_same entry.2.droppedBytes)).trans (ih _)

theorem enforceGlobalFrameByteLimit_same (h : Exact store records) :
    SameSessions store store.enforceGlobalFrameByteLimit.1 := by
  rcases enforceGlobalFrameByteLimit_cases h with ⟨heq, _⟩ | ⟨result, heq, htrim, _⟩
  · rw [heq]
    exact .refl store
  · rw [heq]
    have hcut : SameSessions store { store with sessions := result.sessions } :=
      ⟨htrim.same_ids, rfl⟩
    have hdrops := applyGlobalDrops_same result.dropped { store with sessions := result.sessions }
    exact ⟨hdrops.ids.trans hcut.ids, hdrops.runtime⟩

theorem takeCaptureSeq_same (frame : CapturedFrame) :
    SameSessions store (store.takeCaptureSeq id frame).2 := by
  unfold takeCaptureSeq
  split <;> exact ⟨rfl, rfl⟩

theorem addFrame_same (h : Exact store records) (id : String) (frame : CapturedFrame)
    (createId : String)
    (now : JsNumber) (admitted : Bool) :
    SameSessions store (store.addFrame id frame createId now admitted).1 := by
  unfold SessionStore.addFrame
  split
  swap
  · exact .refl store
  cases hs : store.findSession id with
  | none => exact .refl store
  | some s =>
    obtain ⟨hseq, hsessions, _⟩ := takeCaptureSeq_exact h hs frame
    have hs' : (store.takeCaptureSeq id frame).2.findSession id = some s := by
      unfold SessionStore.findSession
      rw [hsessions]
      exact hs
    have happend := (appendFrame_exact hseq hs'
      (SessionStore.fullFrame frame (store.takeCaptureSeq id frame).1 createId now)).1
    exact ((takeCaptureSeq_same frame).trans (settleTrim_same _ _)).trans
      (enforceGlobalFrameByteLimit_same happend)

theorem updateDroppedBytes_same (store : SessionStore) (id : String) (total : JsNumber) :
    SameSessions store (store.updateDroppedBytes id total) := by
  unfold updateDroppedBytes
  split
  · exact .refl store
  · exact ⟨updateSession_ids (by exact fun _ hid => hid), rfl⟩

theorem clearFrames_same (store : SessionStore) (id : String) (admitted : Bool) :
    SameSessions store (store.clearFrames id admitted).1 := by
  unfold clearFrames
  split
  swap
  · exact .refl store
  split
  · exact .refl store
  split
  swap
  · exact .refl store
  rename_i s _ _
  have hbytes : SameSessions store (if s.frames.length > 0 ∨ s.pausedFrames.length > 0 then
      store.setRetainedFrameBytes id 0 else store) := by
    split <;> exact ⟨rfl, rfl⟩
  have hreset : ∀ counted : SessionStore,
      SameSessions counted (counted.updateSession id resetSessionFrames) :=
    fun _ => updateSession_same (by exact fun _ hid => hid)
  have hupdate := hbytes.trans (hreset _)
  exact ⟨hupdate.ids, hupdate.runtime⟩

theorem setCapturePaused_same (store : SessionStore) (id : String) (paused admitted : Bool) :
    SameSessions store (store.setCapturePaused id paused admitted).1 := by
  unfold setCapturePaused
  split
  swap
  · exact .refl store
  split
  · exact .refl store
  split
  · exact .refl store
  have hupdate : SameSessions store (store.updateSession id ({ · with capturePaused := paused })) :=
    updateSession_same (by exact fun _ hid => hid)
  dsimp only
  split
  · exact hupdate.trans (settleTrim_same _ _)
  · exact hupdate

/-! ## What is heard of a change -/

/-- Frames and trims. -/
def IsFrameOrTrim : CaptureChange → Prop
  | .frameAdded _ _ => True
  | .captureTrimmed _ _ _ => True
  | _ => False

theorem heard_follows {changes : List CaptureChange} (hchanges : ∀ c ∈ changes, IsFrameOrTrim c)
    (h : FollowsWhileAccepting store application records) :
    FollowsWhileAccepting store (changes.foldl (onChange store) application)
      (fun other => changes.foldl (observe · other) (records other)) := by
  induction changes generalizing application records with
  | nil => exact h
  | cons c changes ih =>
    rw [forall_mem_cons] at hchanges
    cases c with
    | frameAdded sessionId frame => exact ih hchanges.2 (frameAdded_follows sessionId h frame)
    | captureTrimmed sessionId droppedFrames droppedBytes =>
      exact ih hchanges.2 (captureTrimmed_follows h droppedFrames droppedBytes)
    | framesCleared sessionId => exact hchanges.1.elim
    | captureCleared sessionId => exact hchanges.1.elim

theorem trimEvents_kind (drops : OrderedMap String FrameDrop) :
    ∀ c ∈ SessionStore.trimEvents drops, IsFrameOrTrim c := by
  intro c hc
  obtain ⟨entry, _, rfl⟩ := mem_map.1 hc
  trivial

theorem addFrame_kind (frame : CapturedFrame) (createId : String) (now : JsNumber)
    (admitted : Bool) :
    ∀ c ∈ (store.addFrame id frame createId now admitted).2, IsFrameOrTrim c := by
  unfold SessionStore.addFrame
  split
  swap
  · simp
  split
  · simp
  · intro c hc
    rcases mem_cons.1 hc with rfl | hc
    · trivial
    · exact trimEvents_kind _ c hc

theorem setCapturePaused_kind (paused admitted : Bool) :
    ∀ c ∈ (store.setCapturePaused id paused admitted).2, IsFrameOrTrim c := by
  unfold setCapturePaused
  split
  swap
  · simp
  split
  · simp
  split
  · simp
  dsimp only
  split
  swap
  · simp
  intro c hc
  unfold resumeCapture at hc
  dsimp only at hc
  split at hc
  · rw [mem_singleton] at hc
    subst hc
    trivial
  · cases hc

/-! ## Clearing -/

/-- What a session retains is what its record says. -/
theorem Exact.retained (h : Exact store records) {s : SerialSession}
    (hs : store.findSession id = some s) :
    ((records id).captured.length : Int) - (records id).dropped.droppedFrames = s.contents.length ∧
      (framesByteLength (records id).captured : Int) - (records id).dropped.droppedBytes =
        framesByteLength s.contents := by
  obtain ⟨_, _, _, _, _, hin⟩ := h.booked hs
  obtain ⟨dropped, hcaptured, hdropped⟩ := hin.accounts
  rw [hcaptured, hdropped, length_append, framesByteLength_append]
  dsimp only
  omega

variable {row : CaptureAccountingRow}

/-- A row of the application is what its session retains. -/
theorem Follows.row_eq (h : Follows store application records) (hexact : Exact store records)
    (hrow : application.captureAccounting.sessionTotals id = some row) :
    ∃ s, store.findSession id = some s ∧ row.frameCount = s.contents.length ∧
      row.captureBytes = framesByteLength s.contents := by
  obtain ⟨hmem, _⟩ := (h.registered id).1 (hasSession_of_totals hrow)
  obtain ⟨s, hs, rfl⟩ := mem_map.1 hmem
  have hfind : store.findSession s.id = some s := find_of_mem hexact.distinct hs
  obtain ⟨hframes, hbytes⟩ := hexact.retained hfind
  obtain ⟨hcount, hlength⟩ := h.rows _ row hrow
  exact ⟨s, hfind, hcount.trans hframes, hlength.trans hbytes⟩

theorem sessionTotals_resetSession {accounting : CaptureAccountingStore}
    (h : accounting.sessionTotals id = some row) :
    (accounting.resetSession id).sessionTotals id = some {} ∧
      (∀ other ≠ id, (accounting.resetSession id).sessionTotals other =
        accounting.sessionTotals other) ∧
      (accounting.resetSession id).workspaceFrameCount =
        max 0 (accounting.workspaceFrameCount - row.frameCount) := by
  unfold CaptureAccountingStore.resetSession
  rw [h]
  refine ⟨?_, ?_, rfl⟩
  · exact sessionTotals_setRow_self _ _ _
  · intro other hne
    exact sessionTotals_setRow_of_ne _ _ hne

/-- The books of a session that has nothing left start anew. -/
theorem captureCleared_follows (h : FollowsWhileAccepting store application records) :
    FollowsWhileAccepting store (onChange store application (.captureCleared id))
      (fun other => (records other).observe other (.framesCleared id)) := by
  change FollowsWhileAccepting store (if isPersistentSession store id then
    settle application (application.queueCaptureReset id) else application) _
  split
  · unfold CaptureApplication.queueCaptureReset
    split
    · exact settle_error_follows _
    rename_i haccepts
    intro haccepting
    have hfollows := h haccepting
    have hhas : application.captureAccounting.hasSession id = true := by
      simp only [not_or, Bool.not_eq_true', Bool.not_eq_false] at haccepts
      exact haccepts.2
    obtain ⟨row, hrow⟩ := Option.isSome_iff_exists.1 hhas
    obtain ⟨hself, hothers, htotal⟩ := sessionTotals_resetSession hrow
    refine hfollows.write (hfollows.summed.resetSession id) hself hothers hhas ?_ ?_ ?_
    · simp [observe, clear]
    · intro other hne
      simp [observe, Ne.symm hne]
    · have hbounded := hfollows.bounded
      obtain ⟨hpos, _⟩ := hfollows.summed.row_le id
      rw [sessionRow_of_some _ hrow] at hpos
      change (application.captureAccounting.resetSession id).workspaceFrameCount ≤ _
      rw [htotal]
      omega
  · rename_i hruntime
    refine h.unstored hruntime ?_
    intro other hne
    simp [observe, Ne.symm hne]

end bbcom.capture
