-- Whether the capture can go on behind a frame that went in: it can as long as the trims of the
-- store leave room below the limits of the workspace, and these are the limits of the store.
import Bbcom.CaptureRoom

open bbcom.js bbcom.serial bbcom.contracts bbcom.write_epoch bbcom.ordered_map bbcom.runs

namespace bbcom.capture

open CaptureApplication SessionStore List PipelineFrame WorkspaceCapture CaptureAccountingStore Nat

open CaptureAccountingStore CaptureApplication WorkspaceCapture

variable {store : SessionStore} {application : CaptureApplication}
  {records : String → CaptureRecord} {id : String}

/-! ## Room and admission -/

variable {s : SerialSession} {other : String} {frame : PipelineFrame}

theorem Follows.registered_of_stored (h : Follows store application records)
    (hs : s ∈ storedSessions store) : application.captureAccounting.hasSession s.id = true := by
  obtain ⟨hmem, hstored⟩ := mem_filter.1 hs
  rw [h.registered]
  exact ⟨mem_map_of_mem hmem, by simpa [isPersistentSession] using hstored⟩

/-- An application that follows the store admits every frame just when there is room. -/
theorem Follows.admits_iff (h : Follows store application records) (hexact : Exact store records)
    (haccepting : application.acceptingSaveContext = true)
    (hsome : application.captureAccounting.hasSession id = true) :
    AdmitsEveryFrame application ↔ HasRoom (storedContents store) := by
  obtain ⟨hcount, hbytes⟩ := h.totals hexact
  constructor
  · intro hadmits
    have hlimits : ∀ other, application.captureAccounting.hasSession other = true →
        application.frameCountOf other + 1 ≤ MAX_WORKSPACE_FRAMES_PER_SESSION ∧
          application.captureAccounting.workspaceFrameCount + 1 ≤ MAX_WORKSPACE_FRAMES ∧
          application.captureAccounting.workspaceCaptureBytes + MAX_WORKSPACE_FRAME_BYTES ≤
            MAX_WORKSPACE_CAPTURE_BYTES := by
      intro other hother
      have hlength : (List.replicate MAX_WORKSPACE_FRAME_BYTES (0 : UInt8)).length =
          MAX_WORKSPACE_FRAME_BYTES := length_replicate
      have hok := hadmits other hother (List.replicate MAX_WORKSPACE_FRAME_BYTES 0)
        (le_of_eq hlength)
      have hroom := exceedsLimits_false.1 (preflightCapturedFrame_ok.1 hok).2.2.2
      rwa [hlength] at hroom
    refine ⟨?_, ?_, ?_⟩
    · intro frames hframes
      obtain ⟨s, hs, rfl⟩ := mem_map.1 hframes
      have hhas := h.registered_of_stored hs
      obtain ⟨row, hrow⟩ := Option.isSome_iff_exists.1 hhas
      obtain ⟨t, ht, hrows, _⟩ := h.row_eq hexact hrow
      have hfind : store.findSession s.id = some s :=
        find_of_mem hexact.distinct (mem_filter.1 hs).1
      cases hfind.symm.trans ht
      have hlimit := (hlimits s.id hhas).1
      rw [frameCountOf_eq hrow, hrows] at hlimit
      omega
    · have hlimit := (hlimits id hsome).2.1
      rw [hcount] at hlimit
      omega
    · have hlimit := (hlimits id hsome).2.2
      rw [hbytes] at hlimit
      exact_mod_cast hlimit
  · intro hroom other hother data hdata
    refine preflightCapturedFrame_ok.2 ⟨haccepting, hother, hdata, exceedsLimits_false.2 ?_⟩
    obtain ⟨row, hrow⟩ := Option.isSome_iff_exists.1 hother
    obtain ⟨s, hs, hrows, _⟩ := h.row_eq hexact hrow
    obtain ⟨hmem, hid⟩ := find_mem hs
    have hstored : s ∈ storedSessions store := by
      refine mem_filter.2 ⟨hmem, ?_⟩
      have hknown := ((h.registered other).1 hother).2
      simpa [isPersistentSession, hid] using hknown
    have heach := hroom.each s.contents (mem_map_of_mem hstored)
    have hframes := hroom.count
    have hlength := hroom.bytes
    rw [frameCountOf_eq hrow, hrows, hcount, hbytes]
    refine ⟨?_, ?_, ?_⟩ <;> omega

/-! ## A closed application -/

theorem settle_closed {messageKey : String} :
    (settle application (.error messageKey)).acceptingSaveContext = false :=
  rejectPersistence_closed messageKey

/-- Once saves are refused, no change is taken. -/
theorem onChange_closed (hclosed : application.acceptingSaveContext = false)
    (change : CaptureChange) :
    (onChange store application change).acceptingSaveContext = false := by
  unfold onChange
  cases change with
  | frameAdded sessionId frame =>
    dsimp only
    split
    · unfold queueCapturedFrame
      rw [if_pos (by simp [hclosed])]
      exact settle_closed
    · exact hclosed
  | captureTrimmed sessionId droppedFrames droppedBytes =>
    dsimp only
    split
    · unfold queueCaptureTrim
      rw [if_pos (by simp [hclosed])]
      exact settle_closed
    · exact hclosed
  | framesCleared sessionId => exact hclosed
  | captureCleared sessionId =>
    dsimp only
    split
    · unfold queueCaptureReset
      rw [if_pos (by simp [hclosed])]
      exact settle_closed
    · exact hclosed

theorem onChanges_closed (hclosed : application.acceptingSaveContext = false)
    (changes : List CaptureChange) :
    (changes.foldl (onChange store) application).acceptingSaveContext = false := by
  induction changes generalizing application with
  | nil => exact hclosed
  | cons change changes ih => exact ih (onChange_closed hclosed change)

/-! ## The rows stay -/

theorem hasSession_setRow {accounting : CaptureAccountingStore} (row : CaptureAccountingRow)
    (h : accounting.hasSession other = true) :
    (accounting.setRow id row).hasSession other = true := by
  unfold hasSession at h ⊢
  by_cases hid : other = id
  · subst hid
    simp
  · rwa [sessionTotals_setRow_of_ne _ _ hid]

section

variable (h : application.captureAccounting.hasSession other = true)
include h

theorem settle_hasSession {outcome : WorkspaceQueueOutcome CaptureApplication}
    (hok : ∀ after, outcome = .ok after → after.captureAccounting.hasSession other = true) :
    (settle application outcome).captureAccounting.hasSession other = true := by
  cases outcome with
  | ok after => exact hok after rfl
  | error messageKey =>
    change (application.rejectPersistence messageKey).captureAccounting.hasSession other = true
    unfold rejectPersistence
    split <;> exact h

/-- No change takes a session out of the books of the application. -/
theorem onChange_hasSession (change : CaptureChange) :
    (onChange store application change).captureAccounting.hasSession other = true := by
  unfold onChange
  cases change with
  | frameAdded sessionId frame =>
    dsimp only
    split
    · refine settle_hasSession h fun after hafter => ?_
      obtain ⟨totals, payload, _, _, _, _, rfl⟩ := queueCapturedFrame_ok hafter
      exact hasSession_setRow _ (hasSession_setRow _ h)
    · exact h
  | captureTrimmed sessionId droppedFrames droppedBytes =>
    dsimp only
    split
    · refine settle_hasSession h fun after hafter => ?_
      obtain ⟨totals, _, _, _, rfl⟩ := queueCaptureTrim_ok hafter
      exact hasSession_setRow _ h
    · exact h
  | framesCleared sessionId => exact h
  | captureCleared sessionId =>
    dsimp only
    split
    · refine settle_hasSession h fun after hafter => ?_
      unfold queueCaptureReset at hafter
      split at hafter
      · cases hafter
      · cases hafter
        unfold resetSession
        dsimp only
        split
        · exact h
        · exact hasSession_setRow _ h
    · exact h

theorem onChanges_hasSession (changes : List CaptureChange) :
    (changes.foldl (onChange store) application).captureAccounting.hasSession other = true := by
  induction changes generalizing application with
  | nil => exact h
  | cons change changes ih => exact ih (onChange_hasSession h change)

end

/-! ## The frame -/

theorem validNonNegativeInteger_natCast {n : Nat} (h : n ≤ MAX_SAFE_INTEGER) :
    validNonNegativeInteger (.finite n) = some n := by
  unfold validNonNegativeInteger integerBetween
  simpa using h

/-- A frame of the pipelines that fits a workspace has a stored form. -/
theorem projectWorkspaceFrame_ok (frame : PipelineFrame) (stamp : FrameStamp) (captureSeq : Nat)
    (hlength : frame.captured.data.length ≤ MAX_WORKSPACE_FRAME_BYTES) :
    ∃ payload, projectWorkspaceFrame (fullFrame frame.captured captureSeq
      stamp.createId.val (.finite stamp.now.val)) = some payload := by
  obtain ⟨createId, hid⟩ := stamp.createId
  obtain ⟨now, hnow⟩ := stamp.now
  have htime := validNonNegativeInteger_natCast hnow
  cases frame with
  | rx data =>
    simp only [captured] at hlength
    simp [projectWorkspaceFrame, fullFrame, captured, hid, htime,
      optionalNonNegativeInteger, not_lt.2 hlength]
  | tx data complete requestedBytes =>
    obtain ⟨requested, hless, hsafe⟩ := requestedBytes
    have hrequested := validNonNegativeInteger_natCast hsafe
    simp only [captured] at hlength
    simp [projectWorkspaceFrame, fullFrame, captured, hid, htime,
      hrequested, optionalNonNegativeInteger, not_lt.2 hlength, not_lt.2 hless]

variable {row : CaptureAccountingRow}

/-- The frame is taken, unless the sequence of its session has come to its end. -/
theorem frameAdded_accepting (store : SessionStore) {frame : DataFrame}
    {payload : WorkspaceQueuedFramePayload} (haccepting : application.acceptingSaveContext = true)
    (hstored : isPersistentSession store id = true)
    (hrow : application.captureAccounting.sessionTotals id = some row)
    (hpayload : projectWorkspaceFrame frame = some payload)
    (hlimits : application.exceedsLimits id frame.data.length = false) :
    (onChange store application (.frameAdded id frame)).acceptingSaveContext = true ↔
      row.nextSequence + 1 ≤ MAX_SAFE_INTEGER := by
  change (if isPersistentSession store id then
    settle application (application.queueCapturedFrame id frame) else application
    ).acceptingSaveContext = true ↔ _
  rw [if_pos hstored]
  unfold queueCapturedFrame
  rw [if_neg (by simp [haccepting]), hrow]
  dsimp only
  by_cases hsequence : row.nextSequence + 1 > MAX_SAFE_INTEGER
  · rw [if_pos hsequence, settle_closed]
    simp only [Bool.false_eq_true, false_iff]
    omega
  · rw [if_neg hsequence, hpayload]
    dsimp only
    rw [projectWorkspaceFrame_data hpayload, if_neg (by simp [hlimits])]
    simp only [not_lt, gt_iff_lt] at hsequence
    exact ⟨fun _ => hsequence, fun _ => haccepting⟩

/-! ## The trims -/

/-- An application whose rows cover the trims takes them all. -/
theorem trims_accepting {drops : OrderedMap String FrameDrop} (hkeys : (drops.map Prod.fst).Nodup)
    (hfit : ∀ entry ∈ drops, 0 < entry.2.droppedFrames ∧
      (isPersistentSession store entry.1 = true → ∃ row,
        application.captureAccounting.sessionTotals entry.1 = some row ∧
          entry.2.droppedFrames ≤ row.frameCount ∧ entry.2.droppedBytes ≤ row.captureBytes ∧
          row.frameCount ≤ MAX_WORKSPACE_FRAMES))
    (haccepting : application.acceptingSaveContext = true) :
    ((trimEvents drops).foldl (onChange store) application).acceptingSaveContext =
      true := by
  rw [trimEvents_eq fun entry hentry => (hfit entry hentry).1]
  induction drops generalizing application with
  | nil => exact haccepting
  | cons entry drops ih =>
    rw [map_cons, nodup_cons] at hkeys
    rw [forall_mem_cons] at hfit
    rw [map_cons, foldl_cons]
    change ((drops.map _).foldl (onChange store) (if isPersistentSession store entry.1 then
      settle application (application.queueCaptureTrim entry.1 entry.2.droppedFrames
        entry.2.droppedBytes) else application)).acceptingSaveContext = true
    by_cases hstored : isPersistentSession store entry.1 = true
    swap
    · rw [if_neg hstored]
      exact ih hkeys.2 hfit.2 haccepting
    rw [if_pos hstored]
    obtain ⟨hpositive, hcovered⟩ := hfit.1
    obtain ⟨row, hrow, hframes, hbytes, hsmall⟩ := hcovered hstored
    unfold MAX_WORKSPACE_FRAMES at hsmall
    unfold queueCaptureTrim
    rw [if_neg (by simp [haccepting]), hrow]
    dsimp only
    rw [if_neg (by omega)]
    refine @ih { application with
      captureAccounting := application.captureAccounting.recordFrames entry.1
        (-entry.2.droppedFrames) (-entry.2.droppedBytes)
      accepted := application.accepted ++ [.trimCapture entry.1 entry.2.droppedFrames] }
      hkeys.2 ?_ haccepting
    intro other hother
    refine ⟨(hfit.2 other hother).1, fun hother' => ?_⟩
    obtain ⟨row', hrow', hrest⟩ := (hfit.2 other hother).2 hother'
    have hne : other.1 ≠ entry.1 := fun heq => hkeys.1 (heq ▸ mem_map_of_mem hother)
    refine ⟨row', ?_, hrest⟩
    exact (sessionTotals_recordFrames_of_ne _ hne _ _).trans hrow'

theorem mem_mergeDrops {sessionId : String} {trim : FrameDrop}
    {global : OrderedMap String FrameDrop} {entry : String × FrameDrop}
    (h : entry ∈ mergeDrops sessionId trim global) :
    entry.1 = sessionId ∨ entry.1 ∈ global.map Prod.fst := by
  unfold mergeDrops at h
  split at h
  · rcases OrderedMap.mem_set h with rfl | h
    · exact .inl rfl
    · exact .inr (mem_map_of_mem h)
  · exact .inr (mem_map_of_mem h)

/-- Which drops are heard of behind a frame, and that they are no more than was captured. -/
theorem addFrame_drops (h : Exact store records) (hs : store.findSession id = some s)
    (frame : CapturedFrame) (createId : String) (now : JsNumber) {full : DataFrame}
    (hfull : full = SessionStore.fullFrame frame (store.takeCaptureSeq id frame).1 createId now) :
    ∃ drops : OrderedMap String FrameDrop, (store.addFrame id frame createId now true).2 =
        .frameAdded id full :: SessionStore.trimEvents drops ∧
      (drops.map Prod.fst).Nodup ∧
      ∀ entry ∈ drops, 0 < entry.2.droppedFrames ∧ entry.1 ∈ sessionIds store.sessions ∧
        ∀ record, record = (records entry.1).observe entry.1 (.frameAdded id full) →
          record.dropped.droppedFrames + entry.2.droppedFrames ≤ record.captured.length ∧
          record.dropped.droppedBytes + entry.2.droppedBytes ≤
            framesByteLength record.captured := by
  obtain ⟨hexact, _⟩ : Exact (store.addFrame id frame createId now true).1 _ ∧ _ :=
    addFrame_exact h frame createId now true
  have hsame := addFrame_same h id frame createId now true
  obtain ⟨hseq, hsessions, _⟩ := takeCaptureSeq_exact h hs frame
  unfold SessionStore.addFrame SessionStore.canAddRuntimeFrame at hexact hsame ⊢
  rw [Bool.or_true, if_pos rfl, hs] at hexact hsame ⊢
  dsimp only at hexact hsame ⊢
  rw [← hfull] at hexact hsame ⊢
  generalize (store.takeCaptureSeq id frame).2 = taken at hseq hsessions hexact hsame ⊢
  have hs' : taken.findSession id = some s := by
    unfold SessionStore.findSession
    rw [hsessions]
    exact hs
  obtain ⟨happ, _⟩ := appendFrame_exact hseq hs' full
  have happsame : SameSessions taken (taken.appendFrame s full).1 := settleTrim_same _ _
  obtain ⟨_, _, hkeys, hpositive, _⟩ := enforceGlobalFrameByteLimit_exact happ
  have hknown := enforceGlobalFrameByteLimit_known happ
  obtain ⟨hnodup, hpos⟩ := mergeDrops_keys id (taken.appendFrame s full).2.toFrameDrop hkeys
    hpositive
  refine ⟨_, rfl, hnodup, ?_⟩
  intro entry hentry
  have hmem : entry.1 ∈ sessionIds store.sessions := by
    rw [← hsessions]
    rcases mem_mergeDrops hentry with hid | hglobal
    · obtain ⟨hin, hsid⟩ := find_mem hs'
      rw [hid, ← hsid]
      exact mem_map_of_mem hin
    · rw [← happsame.ids]
      exact hknown entry.1 hglobal
  refine ⟨hpos entry hentry, hmem, ?_⟩
  rintro record rfl
  obtain ⟨t, ht, hid⟩ := mem_map.1 (hsame.ids ▸ hmem)
  obtain ⟨_, _, _, _, hin⟩ := hexact.each t ht
  obtain ⟨dropped, hcaptured, hdropped⟩ := hin.accounts
  rw [hid] at hcaptured hdropped
  dsimp only at hcaptured hdropped
  rw [foldl_cons, observe_trimEvents hnodup hpos] at hcaptured hdropped
  have hdrop : dropOf (SessionStore.mergeDrops id (taken.appendFrame s full).2.toFrameDrop
      (taken.appendFrame s full).1.enforceGlobalFrameByteLimit.2) entry.1 = entry.2 := by
    unfold dropOf
    rw [OrderedMap.get_of_mem hnodup hentry]
    rfl
  rw [hdrop] at hcaptured hdropped
  simp only [CaptureRecord.drop, FrameDrop.plus, FrameDrop.mk.injEq] at hcaptured hdropped
  rw [hcaptured, length_append, framesByteLength_append]
  omega

/-! ## Behind an accepted frame -/

/-- Behind the frame there is room for one more: its session has not come to the end of its
sequence, and what the stored sessions keep is below the limits of the workspace. -/
def LeavesRoom (state : WorkspaceCapture) (id : String) (frame : PipelineFrame)
    (stamp : FrameStamp) : Prop :=
  (∀ row, state.application.captureAccounting.sessionTotals id = some row →
      row.nextSequence + 1 ≤ MAX_SAFE_INTEGER) ∧
    HasRoom (storedWith state.store id (fullFrame frame.captured
      (state.store.takeCaptureSeq id frame.captured).1 stamp.createId.val
      (.finite stamp.now.val)))

variable {state : WorkspaceCapture}

theorem preflightRuntimeCapture_spec {data : Uint8Array}
    (h : state.preflightRuntimeCapture id data = true) :
    state.application.acceptingSaveContext = true ∧
      state.application.captureAccounting.hasSession id = true ∧
      data.length ≤ MAX_WORKSPACE_FRAME_BYTES ∧
      state.application.exceedsLimits id data.length = false := by
  unfold preflightRuntimeCapture at h
  rw [Bool.and_eq_true] at h
  apply preflightCapturedFrame_ok.1
  cases hresult : state.application.preflightCapturedFrame id data with
  | ok => rfl
  | error messageKey => simp [hresult, Except.isOk, Except.toBool] at h

/-- Saves are accepted behind an accepted frame, unless its session has come to the end of its
sequence. -/
theorem addFrame_accepting (h : Agrees state) (stamp : FrameStamp)
    (haccepted : state.preflightRuntimeCapture id frame.captured.data = true)
    (hrow : state.application.captureAccounting.sessionTotals id = some row) :
    (state.addFrame id frame stamp).application.acceptingSaveContext = true ↔
      row.nextSequence + 1 ≤ MAX_SAFE_INTEGER := by
  obtain ⟨records, hexact, hfollows⟩ := h.follows
  obtain ⟨haccepting, hhas, hlength, hlimits⟩ := preflightRuntimeCapture_spec haccepted
  obtain ⟨hmem, hstored⟩ := ((hfollows haccepting).registered id).1 hhas
  obtain ⟨s, hs, hid⟩ := mem_map.1 hmem
  have hfind : state.store.findSession id = some s := hid ▸ find_of_mem hexact.distinct hs
  have hsame := addFrame_same hexact id frame.captured stamp.createId.val
    (.finite stamp.now.val) true
  obtain ⟨drops, hchanges, hkeys, hdrops⟩ := addFrame_drops hexact hfind frame.captured
    stamp.createId.val (.finite stamp.now.val) rfl
  obtain ⟨payload, hpayload⟩ := projectWorkspaceFrame_ok frame stamp
    (state.store.takeCaptureSeq id frame.captured).1 hlength
  unfold WorkspaceCapture.addFrame heard
  rw [haccepted]
  dsimp only
  rw [hchanges, foldl_cons]
  generalize (state.store.addFrame id frame.captured stamp.createId.val (.finite stamp.now.val)
    true).1 = after at hsame
  have hpersistent : isPersistentSession after id = true := by
    simpa [isPersistentSession, hsame.runtime] using hstored
  have hadded := frameAdded_accepting after haccepting hpersistent hrow hpayload hlimits
  have hafter := frameAdded_follows id (hsame.follows hfollows)
    (fullFrame frame.captured (state.store.takeCaptureSeq id frame.captured).1
      stamp.createId.val (.finite stamp.now.val))
  generalize onChange after state.application (.frameAdded id _) = application at hadded hafter
  rw [← hadded]
  constructor
  · intro hopen
    by_contra hclosed
    rw [Bool.not_eq_true] at hclosed
    rw [onChanges_closed hclosed] at hopen
    cases hopen
  · intro hopen
    have hrows := hafter hopen
    refine trims_accepting hkeys (fun entry hentry => ?_) hopen
    obtain ⟨hpositive, hknown, hfits⟩ := hdrops entry hentry
    refine ⟨hpositive, fun hpersists => ?_⟩
    have hregistered : application.captureAccounting.hasSession entry.1 = true := by
      rw [hrows.registered, hsame.ids]
      exact ⟨hknown, by simpa [isPersistentSession] using hpersists⟩
    obtain ⟨row', hrow'⟩ := Option.isSome_iff_exists.1 hregistered
    obtain ⟨hcount, hbytes⟩ := hrows.rows entry.1 row' hrow'
    obtain ⟨hframes, hlengths⟩ := hfits _ rfl
    obtain ⟨_, hle, _, _⟩ := hrows.summed.row_le entry.1
    rw [sessionRow_of_some _ hrow'] at hle
    refine ⟨row', hrow', ?_, ?_, hle.trans hrows.bounded⟩ <;> omega

/-- The stored sessions behind an accepted frame: they keep no more than the append leaves, and
just that in a workspace whose sessions are all stored. -/
theorem addFrame_stored (h : Agrees state) (stamp : FrameStamp)
    (haccepted : state.preflightRuntimeCapture id frame.captured.data = true) {full : DataFrame}
    (hfull : full = fullFrame frame.captured
      (state.store.takeCaptureSeq id frame.captured).1 stamp.createId.val
      (.finite stamp.now.val)) :
    List.Forall₂ (fun less more => less <:+ more)
        (storedContents (state.addFrame id frame stamp).store) (storedWith state.store id full) ∧
      (state.store.runtimeSessionIds = [] →
        storedContents (state.addFrame id frame stamp).store = storedWith state.store id full) := by
  obtain ⟨records, hexact, hfollows⟩ := h.follows
  obtain ⟨haccepting, hhas, hlength, hlimits⟩ := preflightRuntimeCapture_spec haccepted
  obtain ⟨hmem, hstored⟩ := ((hfollows haccepting).registered id).1 hhas
  obtain ⟨s, hs, hid⟩ := mem_map.1 hmem
  have hfind : state.store.findSession id = some s := hid ▸ find_of_mem hexact.distinct hs
  have hsame := addFrame_same hexact id frame.captured stamp.createId.val
    (.finite stamp.now.val) true
  obtain ⟨hless, hequal⟩ := addFrame_contents hexact hfind frame.captured stamp.createId.val
    (.finite stamp.now.val) hfull
  unfold WorkspaceCapture.addFrame heard
  rw [haccepted]
  dsimp only
  refine ⟨storedContents_step hexact.distinct hsame hless, fun hruntime => ?_⟩
  have hall : storedSessions state.store = state.store.sessions := by
    apply filter_eq_self.2
    intro t _
    simp [isPersistentSession, hruntime]
  have hfits : bytesInAll state.store.sessions + frame.captured.data.length ≤
      MAX_GLOBAL_FRAME_BYTES := by
    have hbytes := (exceedsLimits_false.1 hlimits).2.2
    rw [((hfollows haccepting).totals hexact).2, storedContents, hall] at hbytes
    have hsum : bytesInAll state.store.sessions =
        (((state.store.sessions.map SerialSession.contents).map framesByteLength).sum : ℕ) := by
      simp [bytesInAll, cast_list_sum, Function.comp_def]
    rw [hsum]
    exact hbytes
  exact forall₂_eq_eq_eq ▸ storedContents_step (R := Eq) hexact.distinct hsame (hequal hfits)

theorem addFrame_admits (h : Agrees state) (stamp : FrameStamp)
    (haccepted : state.preflightRuntimeCapture id frame.captured.data = true) :
    (LeavesRoom state id frame stamp →
        AdmitsEveryFrame (state.addFrame id frame stamp).application) ∧
      (state.store.runtimeSessionIds = [] →
        AdmitsEveryFrame (state.addFrame id frame stamp).application →
          LeavesRoom state id frame stamp) := by
  obtain ⟨records, hexact, hfollows⟩ := (addFrame_agrees h id frame stamp).follows
  obtain ⟨_, hhas, _, _⟩ := preflightRuntimeCapture_spec haccepted
  obtain ⟨row, hrow⟩ := Option.isSome_iff_exists.1 hhas
  have haccepting := addFrame_accepting h stamp haccepted hrow
  obtain ⟨hless, hequal⟩ := addFrame_stored h stamp haccepted rfl
  have hregistered : (state.addFrame id frame stamp).application.captureAccounting.hasSession id =
      true := onChanges_hasSession hhas _
  constructor
  · rintro ⟨hsequence, hroom⟩
    have hopen := haccepting.2 (hsequence row hrow)
    exact ((hfollows hopen).admits_iff hexact hopen hregistered).2 (hroom.shrink hless)
  · intro hruntime hadmits
    have hopen : (state.addFrame id frame stamp).application.acceptingSaveContext = true := by
      have hok := hadmits id hregistered [] (zero_le _)
      exact (preflightCapturedFrame_ok.1 hok).1
    refine ⟨fun row' hrow' => ?_, ?_⟩
    · cases hrow.symm.trans hrow'
      exact haccepting.1 hopen
    · rw [← hequal hruntime]
      exact ((hfollows hopen).admits_iff hexact hopen hregistered).1 hadmits

/-! ## Runs -/

/-- Behind an accepted frame, every further one is admitted. -/
def StaysOpen (state : WorkspaceCapture) : WorkspaceEvent → Prop
  | .addFrame sessionId frame stamp =>
    state.preflightRuntimeCapture sessionId frame.captured.data = true →
      AdmitsEveryFrame (state.addFrame sessionId frame stamp).application
  | _ => True

/-- An accepted frame leaves room for one more. -/
def StaysRoomy (state : WorkspaceCapture) : WorkspaceEvent → Prop
  | .addFrame sessionId frame stamp =>
    state.preflightRuntimeCapture sessionId frame.captured.data = true →
      LeavesRoom state sessionId frame stamp
  | _ => True

def AllStored (state : WorkspaceCapture) (_ : WorkspaceEvent) : Prop :=
  state.store.runtimeSessionIds = []

theorem staysOpen_of_staysRoomy (state : WorkspaceCapture) (event : WorkspaceEvent)
    (h : Agrees state) (hroomy : StaysRoomy state event) : StaysOpen state event := by
  cases event with
  | addFrame sessionId frame stamp =>
    exact fun haccepted => (addFrame_admits h stamp haccepted).1 (hroomy haccepted)
  | _ => trivial

theorem staysRoomy_of_staysOpen (state : WorkspaceCapture) (event : WorkspaceEvent)
    (h : Agrees state) (hopen : AllStored state event ∧ StaysOpen state event) :
    StaysRoomy state event := by
  cases event with
  | addFrame sessionId frame stamp =>
    exact fun haccepted => (addFrame_admits h stamp haccepted).2 hopen.1 (hopen.2 haccepted)
  | _ => trivial

/-- In every run whose frames leave room for one more, every further frame is admitted behind
each of them; and in a workspace whose sessions are all stored, only in such a run. -/
theorem capture_never_wedges_while_frames_leave_room (events : List WorkspaceEvent) :
    (Along step StaysRoomy {} events →
        Along step StaysOpen {} events) ∧
      (Along step AllStored {} events →
        Along step StaysOpen {} events →
          Along step StaysRoomy {} events) := by
  constructor
  · exact fun hroomy => hroomy.imp workspaceStep_agrees staysOpen_of_staysRoomy agrees_empty
  · exact fun hstored hopen =>
      (hstored.and hopen).imp workspaceStep_agrees staysRoomy_of_staysOpen agrees_empty

/-! ## Where the capture wedges -/

/-- So many frames of one byte each, as they are stored. -/
def bytesReceived (count : Nat) : List DataFrame :=
  (List.range count).map fun captureSeq => { storedFrame [0] with captureSeq := some captureSeq }

/-- A workspace with one such session is opened, and the buffers may grow as far as they can. -/
def openedWith (count : Nat) : List WorkspaceEvent :=
  [.openWorkspace [⟨"a", bytesReceived count⟩], .setMaxBufferFrames (.finite MAX_BUFFER_FRAMES)]

theorem bytesReceived_size (count : Nat) :
    (bytesReceived count).length = count ∧ framesByteLength (bytesReceived count) = count := by
  unfold bytesReceived framesByteLength
  refine ⟨by simp, ?_⟩
  rw [map_map]
  have hone : (fun frame : DataFrame => frame.data.length) ∘
      (fun captureSeq => { storedFrame [0] with captureSeq := some captureSeq }) =
      fun _ => 1 := rfl
  simp [hone]

theorem openedWith_state (count : Nat) (hcount : count ≤ MAX_WORKSPACE_FRAMES_PER_SESSION) :
    (run step {} (openedWith count)).application =
        CaptureApplication.installHydratedWorkspace
          [("a", ⟨sequenceAfter (bytesReceived count), count, count⟩)] ∧
      (run step {} (openedWith count)).store.runtimeSessionIds = [] ∧
      (run step {} (openedWith count)).store.maxBufferFrames = MAX_BUFFER_FRAMES ∧
      ∃ s, (run step {} (openedWith count)).store.sessions = [s] ∧
        s.id = "a" ∧ s.contents = bytesReceived count := by
  obtain ⟨hlength, hbytes⟩ := bytesReceived_size count
  have hhydratable : hydratable [⟨"a", bytesReceived count⟩] = true := by
    have hid : isOpaqueId ['a'] = true := by decide
    have hframes : count ≤ MAX_WORKSPACE_FRAMES := hcount.trans (by decide)
    have hcapture : count ≤ MAX_WORKSPACE_CAPTURE_BYTES := hcount.trans (by decide)
    simp [hydratable, hid, hlength, hbytes, hcount, hframes, hcapture, MAX_WORKSPACE_SESSIONS]
  have hvalid := (hydratable_spec hhydratable).1
  obtain ⟨hid, hcontents, _⟩ := hydratedSession_fields ⟨"a", bytesReceived count⟩
  unfold openedWith
  simp only [run_cons, run_nil, step]
  rw [if_pos hhydratable]
  unfold replaceWorkspaceSessions
  rw [if_pos hvalid]
  refine ⟨?_, rfl, ?_, _, rfl, hid, hcontents⟩
  · simp [hydratedRow, hlength, hbytes]
  · decide +kernel

theorem targetLength_le (s : SerialSession) : targetLength s ≤ s.contents.length := by
  unfold targetLength SerialSession.contents
  rw [length_append]
  split <;> omega

/-- A buffer that may grow to the limit of a stored session keeps a frame past that limit. -/
theorem keptWith_whole {frame : DataFrame} (hlength : s.contents.length < MAX_BUFFER_FRAMES)
    (hbytes : framesByteLength (s.contents ++ [frame]) ≤ MAX_SESSION_FRAME_BYTES) :
    keptWith s frame MAX_BUFFER_FRAMES = s.contents ++ [frame] := by
  have hcount : countTrim s MAX_BUFFER_FRAMES = 0 := by
    have htarget := targetLength_le s
    unfold countTrim SESSION_FRAME_TRIM_THRESHOLD
    rw [if_neg (by omega)]
  unfold keptWith
  rw [hcount, drop_zero]
  cases hcontents : s.contents with
  | nil =>
    rw [hcontents] at hbytes
    exact if_pos hbytes
  | cons first rest =>
    rw [hcontents] at hbytes
    exact if_pos hbytes

/-- The hundred-thousandth frame of a session is taken and the next one refused: the buffer
would have dropped its oldest frames only five hundred frames later. -/
theorem a_full_session_wedges_the_capture :
    ¬ ∀ events, Along step StaysOpen {} events := by
  intro hall
  have hstamp : validateWorkspaceIdentifier "frame" = some "frame" := by decide +kernel
  obtain ⟨stamp, _⟩ : ∃ stamp : FrameStamp, stamp.createId.val = "frame" :=
    ⟨⟨⟨"frame", hstamp⟩, ⟨0, zero_le _⟩⟩, rfl⟩
  have hrun := hall (openedWith 99999 ++ [.addFrame "a" (.rx [0]) stamp])
  have hagrees := workspaceRun_agrees (openedWith 99999)
  obtain ⟨happlication, hruntime, hmax, s, hsessions, hid, hcontents⟩ :=
    openedWith_state 99999 (by decide)
  obtain ⟨hlength, hbytes⟩ := bytesReceived_size 99999
  have hopen : StaysOpen (run step {} (openedWith 99999))
      (.addFrame "a" (.rx [0]) stamp) := hrun.2.2.1
  generalize run step {} (openedWith 99999) = state
    at hagrees happlication hruntime hmax hsessions hopen
  have haccepted : state.preflightRuntimeCapture "a" [0] = true := by
    unfold preflightRuntimeCapture
    rw [happlication]
    rfl
  obtain ⟨_, hroom⟩ := (addFrame_admits hagrees stamp haccepted).2 hruntime (hopen haccepted)
  have hdata : ∀ captureSeq, (fullFrame (rx [0]).captured captureSeq
      stamp.createId.val (.finite stamp.now.val)).data = [0] := fun _ => rfl
  have hfull := hdata (state.store.takeCaptureSeq "a" (rx [0]).captured).1
  generalize fullFrame _ _ _ _ = full at hroom hfull
  have hkept : keptWith s full MAX_BUFFER_FRAMES = s.contents ++ [full] := by
    apply keptWith_whole
    · rw [hcontents, hlength]
      decide
    · rw [hcontents, framesByteLength_append, hbytes, framesByteLength_cons, hfull]
      decide
  have hmem : s.contents ++ [full] ∈ storedWith state.store "a" full := by
    refine mem_map.2 ⟨s, mem_filter.2 ⟨?_, ?_⟩, ?_⟩
    · rw [hsessions]
      exact mem_singleton_self s
    · simp [isPersistentSession, hruntime]
    · rw [contentsWith, if_pos hid, hmax, hkept]
  have hless := hroom.each _ hmem
  rw [hcontents, length_append, hlength, length_singleton] at hless
  exact absurd hless (by decide)

end bbcom.capture
