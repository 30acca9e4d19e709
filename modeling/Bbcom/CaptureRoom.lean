-- Room for one more frame: what a session keeps behind an append in closed form, and what the
-- limits of the workspace then let in.
import Bbcom.WorkspaceCaptureRuns

open bbcom.js bbcom.serial bbcom.contracts bbcom.write_epoch bbcom.ordered_map

namespace bbcom.capture

open CaptureAccountingStore CaptureApplication WorkspaceCapture List Function SessionStore Nat

/-! ## What an append keeps -/

/-- The newest of some frames, as many as fit the bytes. -/
def newestFitting (maxBytes : Nat) : List DataFrame → List DataFrame
  | [] => []
  | frame :: frames =>
    if framesByteLength (frame :: frames) ≤ maxBytes then frame :: frames
    else newestFitting maxBytes frames

/-- How many frames one more of them takes away by its count. -/
def countTrim (s : SerialSession) (maxFrames : Nat) : Nat :=
  if targetLength s + 1 > maxFrames + SESSION_FRAME_TRIM_THRESHOLD then
    targetLength s + 1 - maxFrames
  else 0

/-- What a session keeps behind one more frame. -/
def keptWith (s : SerialSession) (frame : DataFrame) (maxFrames : Nat) : List DataFrame :=
  newestFitting MAX_SESSION_FRAME_BYTES ((s.contents ++ [frame]).drop (countTrim s maxFrames))

theorem shiftFrames_contents (count : Nat) (s : SerialSession) (drop : FrameDrop) :
    (shiftFrames count s drop).1.contents = s.contents.drop count := by
  obtain ⟨dropped, hdrops, _, hlength⟩ := shiftFrames_spec count s drop
  rcases le_total count s.contents.length with hle | hle
  · rw [min_eq_left hle] at hlength
    rw [hdrops.contents, ← hlength, drop_left]
  · rw [min_eq_right hle] at hlength
    have hnil : (shiftFrames count s drop).1.contents = [] := by
      have hcontents := congrArg length hdrops.contents
      rw [length_append, hlength] at hcontents
      exact length_eq_zero_iff.1 (by omega)
    rw [hnil, drop_eq_nil_of_le hle]

theorem shiftToBytes_contents (maxBytes rounds : Nat) (s : SerialSession) (drop : FrameDrop)
    (hrounds : s.contents.length ≤ rounds) :
    (shiftToBytes shiftOldestSessionFrame maxBytes rounds s (framesByteLength s.contents)
      drop).1.contents = newestFitting maxBytes s.contents := by
  induction rounds generalizing s drop with
  | zero =>
    have hnil : s.contents = [] := length_eq_zero_iff.1 (le_zero.1 hrounds)
    simp [shiftToBytes, hnil, newestFitting]
  | succ rounds ih =>
    unfold shiftToBytes
    cases hshift : shiftOldestSessionFrame s with
    | none =>
      have hnil := shiftOldest_none hshift
      simp [hnil, newestFitting]
    | some shifted =>
      obtain ⟨frame, s'⟩ := shifted
      have hcontents : s.contents = frame :: s'.contents := (shiftOldest_some hshift).contents
      have hlength : s'.contents.length ≤ rounds := by
        rw [hcontents, length_cons] at hrounds
        omega
      by_cases hfits : framesByteLength s.contents ≤ maxBytes
      · rw [if_pos (by exact_mod_cast hfits)]
        dsimp only
        rw [hcontents] at hfits ⊢
        rw [newestFitting, if_pos hfits]
      · rw [if_neg (by exact_mod_cast hfits)]
        have hrest : (framesByteLength s.contents : Int) - frame.data.length =
            framesByteLength s'.contents := by
          rw [hcontents, framesByteLength_cons]
          push_cast
          ring
        dsimp only
        rw [hrest, ih s' _ hlength, hcontents]
        rw [hcontents] at hfits
        rw [newestFitting, if_neg hfits]

theorem pushFrame_targetLength (s : SerialSession) (frame : DataFrame) :
    targetLength (pushFrame s frame) = targetLength s + 1 := by
  unfold pushFrame targetLength
  split <;> simp

variable {s : SerialSession}

theorem trimToCount_contents (hs : PausedOnly s) (frame : DataFrame) (maxFrames : Nat) :
    (trimToCount (pushFrame s frame) maxFrames).1.contents =
      (s.contents ++ [frame]).drop (countTrim s maxFrames) := by
  unfold trimToCount countTrim
  rw [pushFrame_targetLength]
  split
  · rw [shiftFrames_contents, pushFrame_contents hs]
  · rw [pushFrame_contents hs, drop_zero]

/-- An append keeps the newest frames, as many as its limits let it. -/
theorem appendFrameToSession_contents (hs : PausedOnly s) (frame : DataFrame) (maxFrames : Nat) :
    (appendFrameToSession s frame maxFrames (framesByteLength s.contents)
      MAX_SESSION_FRAME_BYTES).1.contents = keptWith s frame maxFrames := by
  have hcounted := trimToCount_contents hs frame maxFrames
  obtain ⟨dropped, hdrops, hdrop⟩ := trimToCount_spec (pushFrame s frame) maxFrames
  unfold appendFrameToSession keptWith
  generalize trimToCount (pushFrame s frame) maxFrames = counted at hcounted hdrops hdrop
  obtain ⟨counted, drop⟩ := counted
  dsimp only at hcounted hdrops hdrop ⊢
  have hbytes : (framesByteLength s.contents : Int) + frame.data.length - drop.droppedBytes =
      framesByteLength counted.contents := by
    have hall := hdrops.bytes
    rw [pushFrame_contents hs, framesByteLength_append, framesByteLength_cons,
      framesByteLength_nil] at hall
    rw [hdrop]
    simp only [FrameDrop.addAll]
    omega
  rw [hbytes]
  have htrimmed := shiftToBytes_contents MAX_SESSION_FRAME_BYTES counted.contents.length counted
    drop le_rfl
  generalize shiftToBytes shiftOldestSessionFrame MAX_SESSION_FRAME_BYTES counted.contents.length
    counted (framesByteLength counted.contents) drop = trimmed at htrimmed
  obtain ⟨_, hframes, hpaused, _, _⟩ := countFrame_fields trimmed.1 frame
  have hcontents : (countFrame trimmed.1 frame).contents = trimmed.1.contents := by
    unfold SerialSession.contents
    rw [hframes, hpaused]
  rw [hcontents, htrimmed, hcounted]

/-! ## What the store keeps -/

variable {store : SessionStore} {application : CaptureApplication}
  {records : String → CaptureRecord} {id : String}

variable {t : SerialSession}

theorem addFrameBufferDrop_contents {droppedBytes : Nat}
    (ht : t ∈ (store.addFrameBufferDrop id droppedBytes).sessions) :
    ∃ u ∈ store.sessions, u.id = t.id ∧ t.contents = u.contents := by
  unfold addFrameBufferDrop at ht
  split at ht
  · exact ⟨t, ht, rfl, rfl⟩
  · rcases mem_modifyKey ht with ⟨u, hu, _, rfl⟩ | ⟨ht, _⟩
    · exact ⟨u, hu, rfl, rfl⟩
    · exact ⟨t, ht, rfl, rfl⟩

theorem settleTrim_contents {s' : SerialSession} {trim : FrameBufferTrimResult}
    (ht : t ∈ (store.settleTrim s' trim).sessions) :
    ∃ u ∈ store.sessions, u.id = t.id ∧
      t.contents = if u.id = s'.id then s'.contents else u.contents := by
  obtain ⟨v, hv, hvid, hvcontents⟩ := addFrameBufferDrop_contents ht
  rcases mem_modifyKey (f := fun _ => s') hv with ⟨u, hu, hid, rfl⟩ | ⟨hv, hne⟩
  · exact ⟨u, hu, hid.trans hvid, by rw [if_pos hid, hvcontents]⟩
  · exact ⟨v, hv, hvid, by rw [if_neg hne, hvcontents]⟩

/-- What a session retains with a frame in the session of that id. -/
def contentsWith (store : SessionStore) (id : String) (frame : DataFrame) (s : SerialSession) :
    List DataFrame :=
  if s.id = id then keptWith s frame store.maxBufferFrames else s.contents

theorem appendFrame_contents (h : Exact store records) (hs : store.findSession id = some s)
    (frame : DataFrame) :
    (∀ t ∈ (store.appendFrame s frame).1.sessions, ∃ u ∈ store.sessions, u.id = t.id ∧
        t.contents = contentsWith store id frame u) ∧
      bytesInAll (store.appendFrame s frame).1.sessions ≤
        bytesInAll store.sessions + frame.data.length := by
  obtain ⟨hid, row, rxQueue, frameBuffer, hbooks, hin⟩ := h.booked hs
  have hkept := appendFrameToSession_contents hin.paused_only frame store.maxBufferFrames
  obtain ⟨dropped, htrim⟩ := appendFrameToSession_spec hin.paused_only frame store.maxBufferFrames
    (framesByteLength s.contents) MAX_SESSION_FRAME_BYTES
  unfold appendFrame
  rw [retainedSessionBytes_eq h hs]
  generalize appendFrameToSession s frame store.maxBufferFrames
    (framesByteLength s.contents) MAX_SESSION_FRAME_BYTES = appended at hkept htrim
  obtain ⟨s', trim⟩ := appended
  dsimp only at hkept htrim ⊢
  have hid' : s'.id = id := htrim.same_id.trans hid
  have hwhole : ((framesByteLength s.contents : ℤ) + frame.data.length) =
      (framesByteLength (s.contents ++ [frame]) : ℤ) := by simp
  constructor
  · intro t ht
    obtain ⟨u, hu, hut, hcontents⟩ := settleTrim_contents ht
    refine ⟨u, hu, hut, ?_⟩
    rw [hcontents, hid', contentsWith]
    split
    · rename_i huid
      have hfind : store.findSession u.id = some u := find_of_mem h.distinct hu
      rw [huid, hs] at hfind
      cases hfind
      exact hkept
    · rfl
  · rw [hwhole] at htrim
    have hstep := settleTrim_step trim h.distinct hs
      (congrArg SessionBooks.row hbooks) hid' hin.bytes htrim.retained_bytes
    have hall := congrArg framesByteLength htrim.contents
    rw [framesByteLength_append, framesByteLength_append, framesByteLength_cons,
      framesByteLength_nil] at hall
    rw [hstep.retained]
    omega

/-- Behind a frame each session keeps at most what the append leaves it, and just that unless
the sessions together hold too much. -/
theorem addFrame_contents (h : Exact store records) (hs : store.findSession id = some s)
    (frame : CapturedFrame) (createId : String) (now : JsNumber) {full : DataFrame}
    (hfull : full = SessionStore.fullFrame frame (store.takeCaptureSeq id frame).1 createId now) :
    (∀ t ∈ (store.addFrame id frame createId now true).1.sessions, ∃ u ∈ store.sessions,
        u.id = t.id ∧ t.contents <:+ contentsWith store id full u) ∧
      (bytesInAll store.sessions + frame.data.length ≤ MAX_GLOBAL_FRAME_BYTES →
        ∀ t ∈ (store.addFrame id frame createId now true).1.sessions, ∃ u ∈ store.sessions,
          u.id = t.id ∧ t.contents = contentsWith store id full u) := by
  obtain ⟨hseq, hsessions, _⟩ := takeCaptureSeq_exact h hs frame
  have hmax : (store.takeCaptureSeq id frame).2.maxBufferFrames = store.maxBufferFrames := by
    unfold SessionStore.takeCaptureSeq
    split <;> rfl
  unfold SessionStore.addFrame SessionStore.canAddRuntimeFrame
  rw [Bool.or_true, if_pos rfl, hs]
  dsimp only
  rw [← hfull]
  have hlength : full.data.length = frame.data.length := by rw [hfull]; rfl
  generalize (store.takeCaptureSeq id frame).2 = taken at hseq hsessions hmax ⊢
  have hs' : taken.findSession id = some s := by
    unfold SessionStore.findSession
    rw [hsessions]
    exact hs
  obtain ⟨hkept, htotal⟩ := appendFrame_contents hseq hs' full
  have happ := (appendFrame_exact hseq hs' full).1
  have hwith : contentsWith taken id full = contentsWith store id full := by
    unfold contentsWith
    rw [hmax]
  rw [hwith, hsessions] at hkept
  rw [hsessions, hlength] at htotal
  constructor
  · intro t ht
    obtain ⟨_, _, _, _, hsuffix⟩ := enforceGlobalFrameByteLimit_exact happ
    obtain ⟨v, hv, hvt, hback⟩ := hsuffix t ht
    obtain ⟨u, hu, huv, hcontents⟩ := hkept v hv
    exact ⟨u, hu, huv.trans hvt, hcontents ▸ hback⟩
  · intro hfits t ht
    have hsame : (taken.appendFrame s full).1.enforceGlobalFrameByteLimit.1 =
        (taken.appendFrame s full).1 := by
      unfold SessionStore.enforceGlobalFrameByteLimit
      rw [happ.total, if_pos (htotal.trans hfits)]
    rw [hsame] at ht
    exact hkept t ht

variable {after : SessionStore}

/-- The sessions on both sides of a step that keeps them, one by one. -/
theorem forall₂_sessions {R : SerialSession → SerialSession → Prop}
    (hdistinct : (sessionIds store.sessions).Nodup)
    (hids : sessionIds after.sessions = sessionIds store.sessions)
    (heach : ∀ t ∈ after.sessions, ∃ u ∈ store.sessions, u.id = t.id ∧ R t u) :
    Forall₂ (fun t u => t.id = u.id ∧ R t u) after.sessions store.sessions := by
  have hsame : Forall₂ (fun t u : SerialSession => t.id = u.id) after.sessions
      store.sessions := by
    have heq : Forall₂ Eq (after.sessions.map SerialSession.id)
        (store.sessions.map SerialSession.id) := forall₂_eq_eq_eq ▸ hids
    simpa [forall₂_map_left_iff, forall₂_map_right_iff] using heq
  obtain ⟨hlength, hzip⟩ := forall₂_iff_zip.1 hsame
  refine forall₂_iff_zip.2 ⟨hlength, ?_⟩
  intro t u htu
  obtain ⟨ht, hu⟩ := of_mem_zip htu
  have hid := hzip htu
  obtain ⟨v, hv, hvt, hR⟩ := heach t ht
  have hu' := find_of_mem hdistinct hu
  have hv' := find_of_mem hdistinct hv
  rw [hvt, hid, hu'] at hv'
  cases hv'
  exact ⟨hid, hR⟩

/-! ## Room -/

/-- One more frame of any size fits the limits of the workspace, whichever session it is for. -/
structure HasRoom (stored : List (List DataFrame)) : Prop where
  each : ∀ frames ∈ stored, frames.length < MAX_WORKSPACE_FRAMES_PER_SESSION
  count : (stored.map length).sum < MAX_WORKSPACE_FRAMES
  bytes : (stored.map framesByteLength).sum + MAX_WORKSPACE_FRAME_BYTES ≤
    MAX_WORKSPACE_CAPTURE_BYTES

/-- Shorter buffers have room too. -/
theorem HasRoom.shrink {stored shorter : List (List DataFrame)} (h : HasRoom stored)
    (hshorter : Forall₂ (fun less more => less <:+ more) shorter stored) :
    HasRoom shorter := by
  have hsums : (shorter.map length).sum ≤ (stored.map length).sum ∧
      (shorter.map framesByteLength).sum ≤ (stored.map framesByteLength).sum := by
    clear h
    induction hshorter with
    | nil => exact ⟨le_rfl, le_rfl⟩
    | cons hfirst _ ih =>
      simp only [map_cons, sum_cons]
      exact ⟨Nat.add_le_add hfirst.length_le ih.1,
        Nat.add_le_add (framesByteLength_suffix hfirst) ih.2⟩
  refine ⟨?_, hsums.1.trans_lt h.count, (Nat.add_le_add_right hsums.2 _).trans h.bytes⟩
  have heach := h.each
  clear h hsums
  induction hshorter with
  | nil => simp
  | cons hfirst _ ih =>
    rw [forall_mem_cons] at heach ⊢
    exact ⟨hfirst.length_le.trans_lt heach.1, ih heach.2⟩

/-- The sessions that are stored. -/
def storedSessions (store : SessionStore) : List SerialSession :=
  store.sessions.filter fun s => isPersistentSession store s.id

/-- What the stored sessions retain. -/
def storedContents (store : SessionStore) : List (List DataFrame) :=
  (storedSessions store).map SerialSession.contents

/-- What they retain with one more frame in the session of that id. -/
def storedWith (store : SessionStore) (id : String) (frame : DataFrame) : List (List DataFrame) :=
  (storedSessions store).map (contentsWith store id frame)

theorem storedContents_step {R : List DataFrame → List DataFrame → Prop}
    {f : SerialSession → List DataFrame} (hdistinct : (sessionIds store.sessions).Nodup)
    (hsame : SameSessions store after)
    (heach : ∀ t ∈ after.sessions, ∃ u ∈ store.sessions, u.id = t.id ∧ R t.contents (f u)) :
    Forall₂ R (storedContents after) ((storedSessions store).map f) := by
  have hall := forall₂_sessions hdistinct hsame.ids heach
  unfold storedContents storedSessions isPersistentSession
  rw [hsame.runtime]
  generalize after.sessions = afterSessions at hall
  generalize store.sessions = sessions at hall
  induction hall with
  | nil => exact .nil
  | cons hfirst _ ih =>
    obtain ⟨hid, hR⟩ := hfirst
    rw [filter_cons, filter_cons, hid]
    split
    · exact .cons hR ih
    · exact ih

/-! ## Admission -/

/-- A frame of any admissible size goes into any session of the workspace. -/
def AdmitsEveryFrame (application : CaptureApplication) : Prop :=
  ∀ id, application.captureAccounting.hasSession id = true → ∀ data : Uint8Array,
    data.length ≤ MAX_WORKSPACE_FRAME_BYTES →
      application.preflightCapturedFrame id data = .ok ()

theorem preflightCapturedFrame_ok {data : Uint8Array} :
    application.preflightCapturedFrame id data = .ok () ↔ application.acceptingSaveContext = true ∧
        application.captureAccounting.hasSession id = true ∧
        data.length ≤ MAX_WORKSPACE_FRAME_BYTES ∧
        application.exceedsLimits id data.length = false := by
  unfold CaptureApplication.preflightCapturedFrame
  split
  · rename_i hclosed
    simp only [Bool.not_eq_true'] at hclosed
    simp [hclosed]
  rename_i haccepting
  split
  · rename_i hinvalid
    simp only [Bool.not_eq_true', Bool.not_eq_false] at haccepting hinvalid
    simp only [false_iff, not_and, reduceCtorEq]
    rintro _ hhas hlength
    rcases hinvalid with hinvalid | hinvalid
    · rw [hhas] at hinvalid
      cases hinvalid
    · omega
  rename_i hvalid
  simp only [Bool.not_eq_true', Bool.not_eq_false, not_or, not_lt, gt_iff_lt]
    at haccepting hvalid
  split
  · rename_i hlimits
    simp [hlimits]
  · rename_i hlimits
    simp [haccepting, hvalid.1, hvalid.2, hlimits]

/-- A sum over the rows of the application is one over the stored sessions. -/
theorem Follows.sum_rows (h : Follows store application records) (hexact : Exact store records)
    (g : CaptureAccountingRow → Int) (f : SerialSession → Int)
    (hg : ∀ id s row, store.findSession id = some s →
      application.captureAccounting.sessionTotals id = some row → g row = f s) :
    (application.captureAccounting.sessions.map fun entry => g entry.2).sum =
      ((storedSessions store).map f).sum := by
  have hrows : (application.captureAccounting.sessions.map fun entry => g entry.2) =
      (application.captureAccounting.sessions.map Prod.fst).map
        fun id => g (application.captureAccounting.sessionRow id) := by
    rw [map_map]
    apply map_congr_left
    intro entry hentry
    have hrow : application.captureAccounting.sessionTotals entry.1 = some entry.2 :=
      OrderedMap.get_of_mem h.summed.distinct hentry
    simp only [comp_apply]
    rw [sessionRow_of_some _ hrow]
  have hsessions : (storedSessions store).map f = (sessionIds (storedSessions store)).map
      fun id => g (application.captureAccounting.sessionRow id) := by
    rw [sessionIds, map_map]
    apply map_congr_left
    intro s hs
    obtain ⟨hmem, hstored⟩ := mem_filter.1 hs
    have hfind : store.findSession s.id = some s := find_of_mem hexact.distinct hmem
    have hhas : application.captureAccounting.hasSession s.id = true := by
      rw [h.registered]
      exact ⟨mem_map_of_mem hmem, by simpa [isPersistentSession] using hstored⟩
    obtain ⟨row, hrow⟩ := Option.isSome_iff_exists.1 hhas
    simp only [comp_apply]
    rw [sessionRow_of_some _ hrow, hg s.id s row hfind hrow]
  have hperm : (application.captureAccounting.sessions.map Prod.fst).Perm
      (sessionIds (storedSessions store)) := by
    refine (perm_ext_iff_of_nodup h.summed.distinct
      (hexact.distinct.sublist (filter_sublist.map _))).2 ?_
    intro id
    have hregistered := h.registered id
    have hkey : application.captureAccounting.hasSession id = true ↔
        id ∈ application.captureAccounting.sessions.map Prod.fst := by
      unfold CaptureAccountingStore.hasSession CaptureAccountingStore.sessionTotals
      rw [Option.isSome_iff_ne_none, Ne, OrderedMap.get_eq_none, not_not]
    rw [← hkey, hregistered]
    simp only [sessionIds, mem_map, mem_filter]
    constructor
    · rintro ⟨⟨s, hs, rfl⟩, hstored⟩
      exact ⟨s, ⟨hs, by simpa [isPersistentSession] using hstored⟩, rfl⟩
    · rintro ⟨s, ⟨hs, hstored⟩, rfl⟩
      exact ⟨⟨s, hs, rfl⟩, by simpa [isPersistentSession] using hstored⟩
  rw [hrows, hsessions]
  exact (hperm.map _).sum_eq

theorem Follows.totals (h : Follows store application records) (hexact : Exact store records) :
    application.captureAccounting.workspaceFrameCount =
        (((storedContents store).map length).sum : ℕ) ∧
      application.captureAccounting.workspaceCaptureBytes =
        (((storedContents store).map framesByteLength).sum : ℕ) := by
  constructor
  · rw [h.summed.frames, h.sum_rows hexact (·.frameCount) (·.contents.length) ?_]
    · simp [storedContents, cast_list_sum, comp_def]
    · intro id s row hs hrow
      obtain ⟨t, ht, hframes, _⟩ := h.row_eq hexact hrow
      cases hs.symm.trans ht
      exact hframes
  · rw [h.summed.bytes, h.sum_rows hexact (·.captureBytes) (framesByteLength ·.contents) ?_]
    · simp [storedContents, cast_list_sum, comp_def]
    · intro id s row hs hrow
      obtain ⟨t, ht, _, hbytes⟩ := h.row_eq hexact hrow
      cases hs.symm.trans ht
      exact hbytes

end bbcom.capture
