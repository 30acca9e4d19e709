-- Each event of the capture keeps the books exact. Only a frame and a session that joins make
-- what is retained grow.
import Bbcom.CaptureLedger

open bbcom.js bbcom.serial bbcom.ordered_map

namespace bbcom.capture

open CaptureRecord CaptureChange SessionStore OrderedMap SerialSession

open SessionStore CaptureAccountingStore SessionBooks CaptureRecord

variable {store : SessionStore} {records : String → CaptureRecord} {id : String}

/-! ## A frame -/

variable {s : SerialSession}

/-- A row that changes in its sequence only. -/
theorem setRow_step (row' : CaptureAccountingRow) {row : CaptureAccountingRow}
    (hbytes : row'.captureBytes = row.captureBytes) (h : BookedAt store records id s)
    (hrow : store.accounting.sessionTotals id = some row) :
    SessionStep id 0 store { store with
        accounting := store.accounting.setRow id row' } ∧
      BookedAt { store with accounting := store.accounting.setRow id row' } records id s := by
  refine ⟨⟨rfl, ?_, (add_zero _).symm, (add_zero _).symm, rfl⟩, ?_⟩
  · intro other hne
    unfold books
    congr 1
    exact sessionTotals_setRow_of_ne _ _ hne
  · obtain ⟨row0, rxQueue, frameBuffer, hbooks, hin⟩ := h
    have hsame : row0 = row := by
      have hrow0 : store.accounting.sessionTotals id = some row0 := congrArg SessionBooks.row hbooks
      exact Option.some.inj (hrow0.symm.trans hrow)
    subst hsame
    refine ⟨row', rxQueue, frameBuffer, ?_, ?_⟩
    · unfold books at hbooks ⊢
      simp only [SessionBooks.mk.injEq] at hbooks ⊢
      exact ⟨hbooks.1, sessionTotals_setRow_self _ _ _, hbooks.2.2⟩
    · exact ⟨hbytes.trans hin.bytes, hin.counter, hin.paused_only, hin.accounts, hin.reported⟩

theorem takeCaptureSeq_exact (h : Exact store records) (hs : store.findSession id = some s)
    (frame : CapturedFrame) :
    Exact (store.takeCaptureSeq id frame).2 records ∧
      (store.takeCaptureSeq id frame).2.sessions = store.sessions ∧
      (store.takeCaptureSeq id frame).2.lastDeletedSession = store.lastDeletedSession := by
  unfold takeCaptureSeq
  split
  · exact ⟨h, rfl, rfl⟩
  · obtain ⟨row, _, _, hbooks, _⟩ := (h.booked hs).2
    have hrow : store.accounting.sessionTotals id = some row := congrArg SessionBooks.row hbooks
    obtain ⟨hstep, hafter⟩ := setRow_step
      { store.accounting.sessionRow id with
        nextSequence := (store.accounting.sessionRow id).nextSequence + 1 }
      (by rw [sessionRow_of_some _ hrow]) (h.booked hs).2 hrow
    exact ⟨h.step hstep (fun _ _ => rfl) hafter, rfl, rfl⟩

/-- What an observer has written down once it has heard of the frame and of the trim that the
frame brought about. -/
def recordFrame (records : String → CaptureRecord) (id : String) (frame : DataFrame)
    (trim : FrameDrop) (other : String) : CaptureRecord :=
  if other = id then ((records other).addFrame frame).drop trim else records other

theorem retainedSessionBytes_eq (h : Exact store records) (hs : store.findSession id = some s) :
    store.retainedSessionBytes s = framesByteLength s.contents := by
  obtain ⟨rfl, row, _, _, hbooks, hin⟩ := h.booked hs
  have hrow : store.accounting.sessionTotals s.id = some row := congrArg SessionBooks.row hbooks
  unfold retainedSessionBytes
  rw [hrow]
  exact hin.bytes

theorem appendFrame_exact (h : Exact store records) (hs : store.findSession id = some s)
    (frame : DataFrame) :
    Exact (store.appendFrame s frame).1
        (recordFrame records id frame (store.appendFrame s frame).2.toFrameDrop) ∧
      ((store.appendFrame s frame).2.droppedFrames = 0 →
        (store.appendFrame s frame).2.toFrameDrop = {}) ∧
      (∀ t ∈ (store.appendFrame s frame).1.sessions,
        framesByteLength t.contents ≤ MAX_SESSION_FRAME_BYTES ∨
          t.id ≠ id ∧ t ∈ store.sessions) ∧
      (store.appendFrame s frame).1.lastDeletedSession = store.lastDeletedSession := by
  obtain ⟨hid, hbooked⟩ := h.booked hs
  obtain ⟨row, rxQueue, frameBuffer, hbooks, hin⟩ := hbooked
  unfold appendFrame
  rw [retainedSessionBytes_eq h hs]
  obtain ⟨dropped, htrim⟩ := appendFrameToSession_spec hin.paused_only frame store.maxBufferFrames
    (framesByteLength s.contents) MAX_SESSION_FRAME_BYTES
  generalize appendFrameToSession s frame store.maxBufferFrames
    (framesByteLength s.contents) MAX_SESSION_FRAME_BYTES = appended at htrim
  obtain ⟨s', trim⟩ := appended
  dsimp only at htrim ⊢
  have hwhole : ((framesByteLength s.contents : ℤ) + frame.data.length) =
      (framesByteLength (s.contents ++ [frame]) : ℤ) := by simp
  rw [hwhole] at htrim
  have hid' : s'.id = id := htrim.same_id.trans hid
  have hstep := settleTrim_step trim h.distinct hs
    (congrArg SessionBooks.row hbooks) hid' hin.bytes htrim.retained_bytes
  obtain ⟨t, ht, hcontents⟩ := settleTrim_booked
    (recordFrame records id frame trim.toFrameDrop) _ hbooks hin.counter
    (hin.accounts.addFrame frame) hin.reported htrim hid' (by simp [recordFrame])
  refine ⟨?_, ?_, ?_, hstep.snapshot⟩
  · exact h.step hstep (fun other hne => by simp [recordFrame, hne]) ht
  · intro hzero
    have hnil : dropped = [] := by
      rw [← List.length_eq_zero_iff, ← htrim.dropped_frames]
      exact hzero
    have hbytes := htrim.dropped_bytes
    rw [hnil, framesByteLength_nil] at hbytes
    exact FrameDrop.ext hzero hbytes
  · intro u hu
    by_cases huid : u.id = id
    · have hfind := find_of_mem
        (hstep.ids ▸ h.distinct : (sessionIds (store.settleTrim s' trim).sessions).Nodup) hu
      rw [huid] at hfind
      cases ht.found.symm.trans hfind
      refine .inl ?_
      rw [hcontents]
      exact htrim.within
    · have hfind := find_of_mem
        (hstep.ids ▸ h.distinct : (sessionIds (store.settleTrim s' trim).sessions).Nodup) hu
      have hbefore : store.findSession u.id = some u :=
        (congrArg SessionBooks.session (hstep.others u.id huid)).symm.trans hfind
      exact .inr ⟨huid, (find_mem hbefore).1⟩

/-! ## What is heard of it -/

variable {global : OrderedMap String FrameDrop}

theorem mergeDrops_keys (sessionId : String) (trim : FrameDrop)
    (hkeys : (global.map Prod.fst).Nodup) (hpositive : ∀ entry ∈ global, 0 < entry.2.droppedFrames)
    :
    ((mergeDrops sessionId trim global).map Prod.fst).Nodup ∧
      ∀ entry ∈ mergeDrops sessionId trim global, 0 < entry.2.droppedFrames := by
  unfold mergeDrops
  split
  · rename_i htrim
    refine ⟨(keys_set _ _ _ hkeys).1, ?_⟩
    intro entry hentry
    rcases mem_set hentry with rfl | hentry
    · exact Nat.add_pos_left htrim _
    · exact hpositive entry hentry
  · exact ⟨hkeys, hpositive⟩

variable {sessionId : String}

theorem mergeDrops_dropOf {trim : FrameDrop} (hzero : trim.droppedFrames = 0 → trim = {})
    (global : OrderedMap String FrameDrop) (other : String) :
    dropOf (mergeDrops sessionId trim global) other =
      if other = sessionId then trim.plus (dropOf global other) else dropOf global other := by
  unfold mergeDrops
  by_cases htrim : trim.droppedFrames > 0
  · rw [if_pos htrim]
    by_cases hid : other = sessionId
    · subst hid
      rw [if_pos rfl]
      conv_lhs => rw [dropOf, get_set_self, Option.getD_some]
      rfl
    · rw [if_neg hid, dropOf, get_set_of_ne _ _ hid]
      rfl
  · rw [if_neg htrim, hzero (by omega)]
    split
    · simp [FrameDrop.plus]
    · rfl

theorem observe_frame {trim : FrameDrop} (hzero : trim.droppedFrames = 0 → trim = {})
    (hkeys : (global.map Prod.fst).Nodup) (hpositive : ∀ entry ∈ global, 0 < entry.2.droppedFrames)
    (frame : DataFrame) (other : String) :
    (frameAdded sessionId frame ::
        trimEvents (mergeDrops sessionId trim global)).foldl
        (observe · other) (records other) =
      (recordFrame records sessionId frame trim other).drop (dropOf global other) := by
  obtain ⟨hnodup, hpos⟩ := mergeDrops_keys sessionId trim hkeys hpositive
  rw [List.foldl_cons, observe_trimEvents hnodup hpos, mergeDrops_dropOf hzero]
  unfold recordFrame
  by_cases hid : other = sessionId
  · subst hid
    rw [if_pos rfl, if_pos rfl, drop_drop]
    simp [observe]
  · rw [if_neg hid, if_neg hid]
    simp [observe, Ne.symm hid]

/-- A frame that went in leaves its session and the sum of all within their limits. -/
structure FrameWentIn (id : String) (before after : SessionStore) : Prop where
  total : bytesInAll after.sessions ≤ MAX_GLOBAL_FRAME_BYTES
  each : ∀ t ∈ after.sessions, framesByteLength t.contents ≤ MAX_SESSION_FRAME_BYTES ∨
    t.id ≠ id ∧ ∃ s ∈ before.sessions, s.id = t.id ∧ t.contents <:+ s.contents
  snapshot : after.lastDeletedSession = before.lastDeletedSession

theorem enforceGlobalFrameByteLimit_snapshot (h : Exact store records) :
    store.enforceGlobalFrameByteLimit.1.lastDeletedSession = store.lastDeletedSession := by
  rcases enforceGlobalFrameByteLimit_cases h with ⟨heq, _⟩ | ⟨result, heq, _, _⟩
  · rw [heq]
  · rw [heq]
    exact (afterGlobalTrim_rest store result).2.2

theorem addFrame_exact (h : Exact store records) (frame : CapturedFrame) (createId : String)
    (now : JsNumber) (admitted : Bool) :
    Exact (store.addFrame id frame createId now admitted).1
        (fun other => (store.addFrame id frame createId now admitted).2.foldl
          (observe · other) (records other)) ∧
      (store.addFrame id frame createId now admitted = (store, []) ∨
        FrameWentIn id store (store.addFrame id frame createId now admitted).1) := by
  unfold SessionStore.addFrame
  by_cases hcan : store.canAddRuntimeFrame id admitted = true
  swap
  · rw [if_neg hcan]
    exact ⟨h, .inl rfl⟩
  rw [if_pos hcan]
  cases hs : store.findSession id with
  | none => exact ⟨h, .inl rfl⟩
  | some s =>
    dsimp only
    obtain ⟨hseq, hsessions, hseqsnap⟩ := takeCaptureSeq_exact h hs frame
    generalize store.takeCaptureSeq id frame = taken at hseq hsessions hseqsnap
    obtain ⟨captureSeq, taken⟩ := taken
    dsimp only at hseq hsessions hseqsnap ⊢
    have hs' : taken.findSession id = some s := by
      unfold SessionStore.findSession
      rw [hsessions]
      exact hs
    obtain ⟨happ, hzero, heach, hsnap⟩ :=
      appendFrame_exact hseq hs' (SessionStore.fullFrame frame captureSeq createId now)
    generalize taken.appendFrame s (SessionStore.fullFrame frame captureSeq createId now) =
      appended at happ hzero heach hsnap
    obtain ⟨appended, trim⟩ := appended
    dsimp only at happ hzero heach hsnap ⊢
    obtain ⟨hglobal, htotal, hkeys, hpositive, hsuffix⟩ := enforceGlobalFrameByteLimit_exact happ
    have hgsnap := enforceGlobalFrameByteLimit_snapshot happ
    generalize appended.enforceGlobalFrameByteLimit = enforced
      at hglobal htotal hkeys hpositive hsuffix hgsnap
    obtain ⟨enforced, global⟩ := enforced
    dsimp only at hglobal htotal hkeys hpositive hsuffix hgsnap ⊢
    refine ⟨?_, .inr ⟨htotal, ?_, hgsnap.trans (hsnap.trans hseqsnap)⟩⟩
    · simp only [observe_frame hzero hkeys hpositive]
      exact hglobal
    · intro t ht
      obtain ⟨u, hu, hut, hback⟩ := hsuffix t ht
      rcases heach u hu with hbytes | ⟨hne, hmem⟩
      · exact .inl ((framesByteLength_suffix hback).trans hbytes)
      · exact .inr ⟨hut ▸ hne, u, hsessions ▸ hmem, hut, hback⟩

/-! ## Drops of the receive queue -/

theorem updateDroppedBytes_exact (h : Exact store records) (total : JsNumber) :
    Exact (store.updateDroppedBytes id total) records ∧
      Shrinks store (store.updateDroppedBytes id total) := by
  unfold updateDroppedBytes
  cases hs : store.findSession id with
  | none => exact ⟨h, .refl store⟩
  | some s =>
    dsimp only
    obtain ⟨_, row, rxQueue, frameBuffer, hbooks, hin⟩ := h.booked hs
    have hfb : store.frameBufferDroppedBytes.get id = some frameBuffer :=
      congrArg SessionBooks.frameBuffer hbooks
    rw [hfb, Option.getD_some]
    obtain ⟨mid, hmid⟩ : ∃ mid : SessionStore, mid = { store with
        rxQueueDroppedBytes := store.rxQueueDroppedBytes.set id (floorOr total 0).toNat } :=
      ⟨_, rfl⟩
    rw [← hmid]
    have hmidbooks : mid.books id =
        ⟨some s, some row, some (floorOr total 0).toNat, some frameBuffer⟩ := by
      rw [hmid]
      unfold books at hbooks ⊢
      simp only [SessionBooks.mk.injEq] at hbooks ⊢
      exact ⟨hbooks.1, hbooks.2.1, get_set_self _ _ _, hbooks.2.2.2⟩
    have hmidothers : SameBut id store mid := by
      intro other hne
      rw [hmid]
      unfold books
      congr 1
      exact get_set_of_ne _ _ hne
    have hupdate := updateSession_books (fun session : SerialSession =>
      { session with droppedBytes := (floorOr total 0).toNat + frameBuffer })
      (fun _ hid => hid) hmidbooks rfl
    have hstep : SessionStep id 0 store (mid.updateSession id fun session =>
        { session with droppedBytes := (floorOr total 0).toNat + frameBuffer }) := by
      refine ⟨?_, ?_, ?_, ?_, ?_⟩
      · refine (updateSession_ids (by exact fun _ hid => hid)).trans ?_
        rw [hmid]
      · exact hmidothers.trans (updateSession_sameBut (fun _ hid => hid))
      · refine (updateSession_bytes_same (by exact fun _ => rfl)).trans ?_
        rw [hmid, add_zero]
      · rw [hmid]
        exact (add_zero _).symm
      · rw [hmid]
        rfl
    have hbooked : BookedAt (mid.updateSession id fun session =>
        { session with droppedBytes := (floorOr total 0).toNat + frameBuffer }) records id
        { s with droppedBytes := (floorOr total 0).toNat + frameBuffer } :=
      ⟨_, _, _, hupdate, hin.bytes, rfl, hin.paused_only, hin.accounts, hin.reported⟩
    exact ⟨h.step hstep (fun _ _ => rfl) hbooked,
      .step h hstep le_rfl hs hbooked.found (List.suffix_refl _)⟩

/-! ## Clearing -/

/-- A session that has nothing to clear retains nothing. -/
theorem contents_of_not_clearable (h : sessionHasClearableCapture s = false) : s.contents = [] := by
  unfold sessionHasClearableCapture at h
  simp only [Bool.or_eq_false_iff, Bool.not_eq_false', List.isEmpty_iff] at h
  unfold contents
  rw [h.1.1.1.1.1, h.1.1.1.1.2]
  rfl

/-- The store without the capture of one session. -/
def clearedStore (store : SessionStore) (id : String) (s : SerialSession) : SessionStore :=
  let counted := if s.frames.length > 0 ∨ s.pausedFrames.length > 0 then
    store.setRetainedFrameBytes id 0 else store
  { counted.updateSession id resetSessionFrames with
    accounting := counted.accounting.resetFrameSequence id }

theorem clearedStore_booked (h : Exact store records) (hs : store.findSession id = some s)
    (records' : String → CaptureRecord) (hrecord : records' id = (records id).clear) :
    SessionStep id (-framesByteLength s.contents) store (clearedStore store id s) ∧
      BookedAt (clearedStore store id s) records' id (resetSessionFrames s) := by
  obtain ⟨_, row, rxQueue, frameBuffer, hbooks, hin⟩ := h.booked hs
  have hrow : store.accounting.sessionTotals id = some row := congrArg SessionBooks.row hbooks
  unfold clearedStore
  obtain ⟨counted, hcounted⟩ : ∃ counted : SessionStore, counted =
    if s.frames.length > 0 ∨ s.pausedFrames.length > 0 then
      store.setRetainedFrameBytes id 0 else store := ⟨_, rfl⟩
  rw [← hcounted]
  -- without retained frames the row says zero already
  have hbooked : counted.books id =
      ⟨some s, some { row with captureBytes := 0 }, some rxQueue, some frameBuffer⟩ := by
    rw [hcounted]
    split
    · exact setRetainedFrameBytes_books 0 hbooks rfl
    · rename_i hnone
      have hzero : framesByteLength s.contents = 0 := by
        simp only [not_or, Nat.not_lt, Nat.le_zero, List.length_eq_zero_iff, gt_iff_lt] at hnone
        simp [contents, hnone.1, hnone.2]
      have hbytes := hin.bytes
      rw [hzero] at hbytes
      rw [hbooks]
      cases row
      simp_all
  have hothers : SameBut id store counted := by
    rw [hcounted]
    split
    · exact setRetainedFrameBytes_sameBut 0
    · exact SameBut.refl store id
  have hrest : counted.sessions = store.sessions ∧
      counted.lastDeletedSession = store.lastDeletedSession ∧
      counted.accounting.workspaceCaptureBytes =
        store.accounting.workspaceCaptureBytes + -framesByteLength s.contents := by
    rw [hcounted]
    split
    · refine ⟨rfl, rfl, ?_⟩
      change store.accounting.workspaceCaptureBytes +
        (0 - (store.accounting.sessionRow id).captureBytes) = _
      rw [sessionRow_of_some _ hrow, hin.bytes, zero_sub]
    · rename_i hnone
      simp only [not_or, Nat.not_lt, Nat.le_zero, List.length_eq_zero_iff, gt_iff_lt] at hnone
      simp [contents, hnone.1, hnone.2]
  obtain ⟨hsessions, hsnapshot, htotal⟩ := hrest
  have hkeep : ∀ t : SerialSession, t.id = id → (resetSessionFrames t).id = id := fun _ ht => ht
  have hupdate := updateSession_books _ hkeep hbooked rfl
  have hcrow : counted.accounting.sessionRow id = { row with captureBytes := 0 } :=
    sessionRow_of_some _ (congrArg SessionBooks.row hbooked)
  refine ⟨⟨?_, ?_, ?_, htotal, hsnapshot⟩, ?_⟩
  · refine (updateSession_ids hkeep).trans ?_
    rw [hsessions]
  · refine hothers.trans ((updateSession_sameBut hkeep).trans ?_)
    intro other hne
    unfold books
    congr 1
    exact sessionTotals_setRow_of_ne _ _ hne
  · refine (updateSession_bytes (hsessions ▸ h.distinct)
      (congrArg SessionBooks.session hbooked)).trans ?_
    rw [hsessions]
    simp [resetSessionFrames, contents]
  · refine ⟨{ row with captureBytes := 0, nextSequence := 0 }, rxQueue, frameBuffer, ?_, ?_⟩
    · unfold books at hupdate ⊢
      simp only [SessionBooks.mk.injEq] at hupdate ⊢
      refine ⟨hupdate.1, ?_, hupdate.2.2⟩
      unfold resetFrameSequence setNextFrameSequence
      rw [sessionTotals_setRow_self, hcrow]
    · refine ⟨rfl, hin.counter, fun hne => absurd rfl hne, ?_, ?_⟩
      · rw [hrecord]
        exact Accounts.clear
      · rw [hrecord]
        exact hin.reported

theorem clearFrames_exact (h : Exact store records) (admitted : Bool) :
    Exact (store.clearFrames id admitted).1
        (fun other => (store.clearFrames id admitted).2.foldl
          (observe · other) (records other)) ∧
      Shrinks store (store.clearFrames id admitted).1 := by
  unfold clearFrames
  cases admitted with
  | false => exact ⟨h, .refl store⟩
  | true =>
    rw [if_pos rfl]
    cases hs : store.findSession id with
    | none => exact ⟨h, .refl store⟩
    | some s =>
      dsimp only
      cases hclear : sessionHasClearableCapture s with
      | false =>
        -- nothing is retained, so the record may start anew
        obtain ⟨_, row, rxQueue, frameBuffer, hbooks, hin⟩ := h.booked hs
        have hnil := contents_of_not_clearable hclear
        have hstep : SessionStep id 0 store store :=
          ⟨rfl, .refl store id, (add_zero _).symm, (add_zero _).symm, rfl⟩
        have hbooked : BookedAt store (fun other => [framesCleared id].foldl
            (observe · other) (records other)) id s := by
          refine ⟨row, rxQueue, frameBuffer, hbooks, hin.bytes, hin.counter, hin.paused_only, ?_,
            ?_⟩
          · simp only [List.foldl_cons, List.foldl_nil, observe, if_true, hnil]
            exact Accounts.clear
          · simp only [List.foldl_cons, List.foldl_nil, observe, if_true]
            exact hin.reported
        refine ⟨h.step hstep (fun other hne => ?_) hbooked, .refl store⟩
        simp [observe, Ne.symm hne]
      | true =>
        rw [if_pos rfl]
        obtain ⟨hstep, hbooked⟩ := clearedStore_booked h hs (fun other =>
          [framesCleared id, captureCleared id].foldl
            (observe · other) (records other))
          (by simp [observe])
        refine ⟨h.step hstep (fun other hne => ?_) hbooked,
          .step h hstep (by omega) hs hbooked.found (List.nil_suffix)⟩
        simp [observe, Ne.symm hne]

/-! ## Pausing -/

/-- The store with a session paused, or not paused. -/
def pausedStore (store : SessionStore) (id : String) (paused : Bool) : SessionStore :=
  store.updateSession id ({ · with capturePaused := paused })

theorem pausedStore_step (hs : store.findSession id = some s) (paused : Bool) :
    SessionStep id 0 store (pausedStore store id paused) ∧
      (pausedStore store id paused).books id =
        { store.books id with session := some { s with capturePaused := paused } } := by
  refine ⟨⟨?_, ?_, ?_, ?_, rfl⟩, ?_⟩
  · exact updateSession_ids (by exact fun _ hid => hid)
  · exact updateSession_sameBut (by exact fun _ hid => hid)
  · rw [add_zero]
    exact updateSession_bytes_same (by exact fun _ => rfl)
  · rw [add_zero]
    rfl
  · exact updateSession_books _ (by exact fun _ hid => hid) rfl hs

theorem SessionStore.SessionStep.trans {a b c : SessionStore} {first second : Int}
    (h1 : SessionStep id first a b) (h2 : SessionStep id second b c) :
    SessionStep id (first + second) a c where
  ids := h2.ids.trans h1.ids
  others := h1.others.trans h2.others
  retained := by rw [h2.retained, h1.retained, add_assoc]
  counted := by rw [h2.counted, h1.counted, add_assoc]
  snapshot := h2.snapshot.trans h1.snapshot

theorem resumeCapture_exact (h : Exact store records) (hs : store.findSession id = some s)
    (hpaused : s.pausedFrames ≠ []) :
    Exact ((pausedStore store id false).resumeCapture { s with capturePaused := false }).1
        (fun other =>
          ((pausedStore store id false).resumeCapture { s with capturePaused := false }).2.foldl
            (observe · other) (records other)) ∧
      Shrinks store
        ((pausedStore store id false).resumeCapture { s with capturePaused := false }).1 := by
  obtain ⟨hid, row, rxQueue, frameBuffer, hbooks, hin⟩ := h.booked hs
  obtain ⟨hpause, hpbooks⟩ := pausedStore_step hs false
  rw [hbooks] at hpbooks
  dsimp only at hpbooks
  generalize pausedStore store id false = mid at hpause hpbooks
  obtain ⟨running, hrunning⟩ : ∃ running : SerialSession, running =
    { s with capturePaused := false } := ⟨_, rfl⟩
  rw [← hrunning] at hpbooks ⊢
  have hcontents : running.contents = s.contents := by rw [hrunning]; rfl
  have hrid : running.id = id := by rw [hrunning]; exact hid
  have hcounter : running.droppedBytes = rxQueue + frameBuffer := by
    rw [hrunning]
    exact hin.counter
  have hbytes : row.captureBytes = framesByteLength running.contents := by
    rw [hcontents]
    exact hin.bytes
  have hrow : mid.accounting.sessionTotals running.id = some row := by
    rw [hrid]
    exact congrArg SessionBooks.row hpbooks
  obtain ⟨dropped, htrim⟩ := flushPausedFramesToLive_spec (s := running)
    (by rw [hrunning]; exact hpaused) mid.maxBufferFrames (framesByteLength running.contents)
    MAX_SESSION_FRAME_BYTES
  unfold resumeCapture retainedSessionBytes
  rw [hrow]
  dsimp only
  rw [hbytes]
  generalize flushPausedFramesToLive running mid.maxBufferFrames
    (framesByteLength running.contents) MAX_SESSION_FRAME_BYTES = flushed at htrim
  obtain ⟨s', trim⟩ := flushed
  dsimp only at htrim ⊢
  have hid' : s'.id = id := htrim.same_id.trans hrid
  have hsettle := settleTrim_step trim (hpause.ids ▸ h.distinct)
    (congrArg SessionBooks.session hpbooks) (congrArg SessionBooks.row hpbooks) hid' hbytes
    htrim.retained_bytes
  have hstep := hpause.trans hsettle
  have hdropped : trim.toFrameDrop = ⟨dropped.length, framesByteLength dropped⟩ := by
    rw [← htrim.dropped_frames, ← htrim.dropped_bytes]
  -- a trim that took no frame took no byte, and nothing is heard of it
  have hheard : ∀ other, (if trim.droppedFrames > 0 then
      [captureTrimmed running.id trim.droppedFrames trim.droppedBytes]
      else []).foldl (observe · other) (records other) =
      if other = id then (records other).drop trim.toFrameDrop else records other := by
    intro other
    rw [hrid]
    by_cases hzero : trim.droppedFrames > 0
    · rw [if_pos hzero]
      by_cases hother : other = id
      · simp [observe, hother]
      · simp [observe, hother, Ne.symm hother]
    · rw [if_neg hzero]
      have hnil : dropped = [] := by
        rw [← List.length_eq_zero_iff, ← htrim.dropped_frames]
        omega
      rw [hdropped, hnil]
      split <;> rfl
  simp only [hheard]
  obtain ⟨t, ht, htcontents⟩ := settleTrim_booked (fun other =>
      if other = id then (records other).drop trim.toFrameDrop else records other)
    (records id) hpbooks hcounter (hcontents ▸ hin.accounts) hin.reported htrim hid'
    (by simp)
  refine ⟨h.step hstep (fun other hne => by simp [hne]) ht, .step h hstep ?_ hs ht.found ?_⟩
  · have hsuffix := framesByteLength_suffix
      (⟨dropped, htrim.contents.symm⟩ : s'.contents <:+ running.contents)
    omega
  · rw [htcontents, ← hcontents]
    exact ⟨dropped, htrim.contents.symm⟩

theorem setCapturePaused_exact (h : Exact store records) (paused admitted : Bool) :
    Exact (store.setCapturePaused id paused admitted).1
        (fun other => (store.setCapturePaused id paused admitted).2.foldl
          (observe · other) (records other)) ∧
      Shrinks store (store.setCapturePaused id paused admitted).1 := by
  unfold setCapturePaused
  cases admitted with
  | false => exact ⟨h, .refl store⟩
  | true =>
    rw [if_pos rfl]
    cases hs : store.findSession id with
    | none => exact ⟨h, .refl store⟩
    | some s =>
      dsimp only
      by_cases hsame : s.capturePaused = paused
      · rw [if_pos hsame]
        exact ⟨h, .refl store⟩
      rw [if_neg hsame]
      by_cases hflush : (!paused) = true ∧ s.pausedFrames.length > 0
      · rw [if_pos hflush]
        obtain ⟨hrun, hlength⟩ := hflush
        cases paused with
        | true => cases hrun
        | false => exact resumeCapture_exact h hs (List.length_pos_iff.1 hlength)
      · rw [if_neg hflush]
        obtain ⟨hstep, hbooks⟩ := pausedStore_step hs paused
        obtain ⟨_, row, rxQueue, frameBuffer, hold, hin⟩ := h.booked hs
        rw [hold] at hbooks
        have hpaused : PausedOnly { s with capturePaused := paused } := by
          intro hne
          cases paused with
          | true => rfl
          | false => exact absurd ⟨rfl, List.length_pos_iff.2 hne⟩ hflush
        have hbooked : BookedAt (pausedStore store id paused) records id
            { s with capturePaused := paused } :=
          ⟨_, _, _, hbooks, hin.bytes, hin.counter, hpaused, hin.accounts, hin.reported⟩
        exact ⟨h.step hstep (fun _ _ => rfl) hbooked,
          .step h hstep le_rfl hs hbooked.found (List.suffix_refl _)⟩

end bbcom.capture
