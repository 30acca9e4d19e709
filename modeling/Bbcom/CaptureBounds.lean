-- The books of the capture over whole runs: exact in every state, and within the limits of a
-- session and of the workspace as long as what joins is.
import Bbcom.CaptureSessions

open bbcom.js bbcom.serial bbcom.runs

namespace bbcom.capture

open CaptureRun SessionStore List

variable {store : SessionStore} {records : String → CaptureRecord} {id : String}

/-! ## Exact in every state -/

theorem step_exact (state : CaptureRun) (event : CaptureEvent)
    (h : Exact state.store state.records) :
    Exact (state.step event).store (state.step event).records := by
  cases event with
  | createSession uuid runtimeOnly =>
    exact addSession_exact h (uuid.fresh _) runtimeOnly
  | removeSession sessionId => exact (removeSession_exact h).1
  | undoLastRemovedSession admitted => exact undoLastRemovedSession_exact h admitted
  | replaceWorkspaceSessions entries => exact replaceWorkspaceSessions_exact h entries
  | setMaxBufferFrames value => exact ⟨h.distinct, h.total, h.snapshot, h.each⟩
  | addFrame sessionId frame createId now admitted =>
    exact (addFrame_exact h frame createId now admitted).1
  | updateDroppedBytes sessionId total => exact (updateDroppedBytes_exact h total).1
  | clearFrames sessionId admitted => exact (clearFrames_exact h admitted).1
  | setCapturePaused sessionId paused admitted => exact (setCapturePaused_exact h paused admitted).1

theorem exact_empty : Exact {} (fun _ => {}) where
  distinct := nodup_nil
  total := rfl
  snapshot _ h := by cases h
  each _ h := by cases h

theorem run_exact (events : List CaptureEvent) :
    Exact (run step {} events).store (run step {} events).records :=
  @run_invariant _ _ step (fun state => Exact state.store state.records) {}
    (fun state event h => step_exact state event h) exact_empty events

/-! ## Within the limits -/

/-- No session retains more than a session may, and all of them not more than the workspace. -/
structure WithinLimits (store : SessionStore) : Prop where
  each : ∀ s ∈ store.sessions, framesByteLength s.contents ≤ MAX_SESSION_FRAME_BYTES
  total : bytesInAll store.sessions ≤ MAX_GLOBAL_FRAME_BYTES

/-- A removed session can come back, so it is held to the limit of a session too. -/
def SnapshotFits (store : SessionStore) : Prop :=
  ∀ snapshot, store.lastDeletedSession = some snapshot →
    framesByteLength snapshot.session.contents ≤ MAX_SESSION_FRAME_BYTES

/-- The workspace that an event opens, or the session that it brings back, fits the limits. -/
def JoinsFit (state : CaptureRun) : CaptureEvent → Prop
  | .undoLastRemovedSession _ => ∀ snapshot, state.store.lastDeletedSession = some snapshot →
      bytesInAll state.store.sessions + framesByteLength snapshot.session.contents ≤
        MAX_GLOBAL_FRAME_BYTES
  | .replaceWorkspaceSessions entries =>
      (∀ entry ∈ entries, framesByteLength entry.frames ≤ MAX_SESSION_FRAME_BYTES) ∧
        (entries.map fun entry => framesByteLength entry.frames).sum ≤ MAX_GLOBAL_FRAME_BYTES
  | _ => True

theorem Shrinks.within {before after : SessionStore} (hshrinks : Shrinks before after)
    (h : WithinLimits before) (hsnapshot : SnapshotFits before) :
    WithinLimits after ∧ SnapshotFits after := by
  refine ⟨⟨?_, hshrinks.total.trans h.total⟩, ?_⟩
  · intro t ht
    obtain ⟨s, hs, _, hsuffix⟩ := hshrinks.each t ht
    exact (framesByteLength_suffix hsuffix).trans (h.each s hs)
  · intro snapshot heq
    rcases hshrinks.snapshot snapshot heq with hold | ⟨s, hs, hcontents⟩
    · exact hsnapshot snapshot hold
    · rw [hcontents]
      exact h.each s hs

theorem FrameWentIn.within {before after : SessionStore} (hframe : FrameWentIn id before after)
    (h : WithinLimits before) (hsnapshot : SnapshotFits before) :
    WithinLimits after ∧ SnapshotFits after := by
  refine ⟨⟨?_, hframe.total⟩, ?_⟩
  · intro t ht
    rcases hframe.each t ht with hbytes | ⟨_, s, hs, _, hsuffix⟩
    · exact hbytes
    · exact (framesByteLength_suffix hsuffix).trans (h.each s hs)
  · intro snapshot heq
    exact hsnapshot snapshot (hframe.snapshot ▸ heq)

theorem Joined.within {before after : SessionStore} {s : SerialSession}
    (hjoin : Joined before after s) (h : WithinLimits before) (hsnapshot : SnapshotFits before)
    (hs : framesByteLength s.contents ≤ MAX_SESSION_FRAME_BYTES)
    (htotal : bytesInAll before.sessions + framesByteLength s.contents ≤ MAX_GLOBAL_FRAME_BYTES) :
    WithinLimits after ∧ SnapshotFits after := by
  refine ⟨⟨?_, ?_⟩, ?_⟩
  · intro t ht
    rcases mem_cons.1 (hjoin.sessions.mem_iff.1 ht) with rfl | ht
    · exact hs
    · exact h.each t ht
  · rw [bytesInAll_perm hjoin.sessions, bytesInAll_cons, add_comm]
    exact htotal
  · intro snapshot heq
    rcases hjoin.snapshot with hsame | hnone
    · exact hsnapshot snapshot (hsame ▸ heq)
    · rw [hnone] at heq
      cases heq

theorem replaceWorkspaceSessions_within (h : WithinLimits store) (hsnapshot : SnapshotFits store)
    {entries : List HydratedWorkspaceSession}
    (heach : ∀ entry ∈ entries, framesByteLength entry.frames ≤ MAX_SESSION_FRAME_BYTES)
    (htotal : (entries.map fun entry => framesByteLength entry.frames).sum ≤ MAX_GLOBAL_FRAME_BYTES)
    :
    WithinLimits (store.replaceWorkspaceSessions entries) ∧
      SnapshotFits (store.replaceWorkspaceSessions entries) := by
  unfold replaceWorkspaceSessions
  split
  swap
  · exact ⟨h, hsnapshot⟩
  have hcontents : ∀ entry : HydratedWorkspaceSession,
      (cloneStoppedSession (hydratedSession entry)).contents =
        entry.frames := fun entry => (hydratedSession_fields entry).2.1
  refine ⟨⟨?_, ?_⟩, fun snapshot heq => by cases heq⟩
  · intro s hs
    obtain ⟨entry, hentry, rfl⟩ := mem_map.1 hs
    rw [hcontents]
    exact heach entry hentry
  · have hsum : bytesInAll (entries.map fun entry =>
        cloneStoppedSession (hydratedSession entry)) =
        ((entries.map fun entry => framesByteLength entry.frames).sum : ℕ) := by
      unfold bytesInAll
      rw [map_map, Nat.cast_list_sum, map_map]
      congr 1
      apply map_congr_left
      intro entry _
      simp [hcontents]
    dsimp only
    rw [hsum]
    exact_mod_cast htotal

theorem step_within (state : CaptureRun) (event : CaptureEvent) (hfit : JoinsFit state event)
    (hexact : Exact state.store state.records)
    (h : WithinLimits state.store ∧ SnapshotFits state.store) :
    WithinLimits (state.step event).store ∧ SnapshotFits (state.step event).store := by
  obtain ⟨hlimits, hsnapshot⟩ := h
  cases event with
  | createSession uuid runtimeOnly =>
    have hjoin : Joined state.store (state.step (.createSession uuid runtimeOnly)).store
        { id := uuid.randomUUID (sessionIds state.store.sessions) } :=
      ⟨perm_append_singleton _ _, rfl, rfl, rfl, .inl rfl⟩
    exact hjoin.within hlimits hsnapshot (Nat.zero_le _) (by simpa [SerialSession.contents]
      using hlimits.total)
  | removeSession sessionId => exact (removeSession_exact hexact).2.within hlimits hsnapshot
  | undoLastRemovedSession admitted =>
    rcases undoLastRemovedSession_joined state.store admitted with
      ⟨heq, _⟩ | ⟨snapshot, hlast, _, _, hjoin⟩
    · unfold step handle
      dsimp only
      rw [heq]
      exact ⟨hlimits, hsnapshot⟩
    · exact hjoin.within hlimits hsnapshot (hsnapshot snapshot hlast) (hfit snapshot hlast)
  | replaceWorkspaceSessions entries =>
    exact replaceWorkspaceSessions_within hlimits hsnapshot hfit.1 hfit.2
  | setMaxBufferFrames value => exact ⟨⟨hlimits.each, hlimits.total⟩, hsnapshot⟩
  | addFrame sessionId frame createId now admitted =>
    rcases (addFrame_exact hexact frame createId now admitted).2 with heq | hframe
    · unfold step handle
      dsimp only
      rw [heq]
      exact ⟨hlimits, hsnapshot⟩
    · exact hframe.within hlimits hsnapshot
  | updateDroppedBytes sessionId total =>
    exact (updateDroppedBytes_exact hexact total).2.within hlimits hsnapshot
  | clearFrames sessionId admitted =>
    exact (clearFrames_exact hexact admitted).2.within hlimits hsnapshot
  | setCapturePaused sessionId paused admitted =>
    exact (setCapturePaused_exact hexact paused admitted).2.within hlimits hsnapshot

theorem within_empty : WithinLimits {} ∧ SnapshotFits {} := by
  refine ⟨⟨fun s hs => ?_, Int.natCast_nonneg _⟩, fun snapshot heq => ?_⟩
  · cases hs
  · cases heq

theorem run_within {events : List CaptureEvent} (hfit : Along step JoinsFit {} events) :
    WithinLimits (run step {} events).store := by
  have hrun := @run_invariant_along _ _ step
    (fun state => Exact state.store state.records ∧
      WithinLimits state.store ∧ SnapshotFits state.store) events {} JoinsFit
    (fun state event hevent h =>
      ⟨step_exact state event h.1, step_within state event hevent h.1 h.2⟩)
    ⟨exact_empty, within_empty⟩ hfit
  exact hrun.2.1

/-! ## What the books say -/

/-- The rows and the total are what the sessions retain; that is a suffix of what was captured
since the last clear, and what was reported as dropped since then is the rest. The counter of
a session counts all that was reported since it joined. -/
structure BooksExact (state : CaptureRun) : Prop where
  bytes : ∀ s ∈ state.store.sessions, ∃ row,
    state.store.accounting.sessionTotals s.id = some row ∧
      row.captureBytes = frameBuffersByteLength s
  total : state.store.accounting.workspaceCaptureBytes =
    (state.store.sessions.map fun s => (state.store.accounting.sessionRow s.id).captureBytes).sum
  retained : ∀ s ∈ state.store.sessions, s.contents <:+ (state.records s.id).captured
  frames : ∀ s ∈ state.store.sessions,
    (state.records s.id).dropped.droppedFrames + s.contents.length =
      (state.records s.id).captured.length
  drops : ∀ s ∈ state.store.sessions,
    (state.records s.id).dropped.droppedBytes + frameBuffersByteLength s =
      framesByteLength (state.records s.id).captured
  counter : ∀ s ∈ state.store.sessions,
    state.store.frameBufferDroppedBytes.get s.id = some (state.records s.id).droppedInAll

theorem Exact.booksExact {state : CaptureRun} (h : Exact state.store state.records) :
    BooksExact state where
  bytes s hs := by
    obtain ⟨row, _, _, hbooks, hin⟩ := h.each s hs
    refine ⟨row, congrArg SessionBooks.row hbooks, ?_⟩
    rw [frameBuffersByteLength_eq]
    exact hin.bytes
  total := by
    rw [h.total]
    unfold bytesInAll
    congr 1
    apply map_congr_left
    intro s hs
    obtain ⟨row, _, _, hbooks, hin⟩ := h.each s hs
    rw [CaptureAccountingStore.sessionRow_of_some _ (congrArg SessionBooks.row hbooks), hin.bytes]
  retained s hs := by
    obtain ⟨_, _, _, _, hin⟩ := h.each s hs
    obtain ⟨dropped, hcaptured, _⟩ := hin.accounts
    exact ⟨dropped, hcaptured.symm⟩
  frames s hs := by
    obtain ⟨_, _, _, _, hin⟩ := h.each s hs
    obtain ⟨dropped, hcaptured, hdropped⟩ := hin.accounts
    rw [hcaptured, hdropped, length_append]
  drops s hs := by
    obtain ⟨_, _, _, _, hin⟩ := h.each s hs
    obtain ⟨dropped, hcaptured, hdropped⟩ := hin.accounts
    rw [hcaptured, hdropped, frameBuffersByteLength_eq, framesByteLength_append]
  counter s hs := by
    obtain ⟨_, _, frameBuffer, hbooks, hin⟩ := h.each s hs
    rw [← hin.reported]
    exact congrArg SessionBooks.frameBuffer hbooks

/-- In every run the books of the capture are exact, and a frame that goes in leaves its session
and the workspace within their limits; as long as what joins is within them, every state is. -/
theorem capture_books_are_exact_and_bounded (events : List CaptureEvent) :
    BooksExact (run step {} events) ∧
      (∀ sessionId frame createId now admitted,
        (run step {} events).store.addFrame sessionId frame createId now admitted =
            ((run step {} events).store, []) ∨
          FrameWentIn sessionId (run step {} events).store
            ((run step {} events).store.addFrame sessionId frame createId now
              admitted).1) ∧
      (Along step JoinsFit {} events →
        WithinLimits (run step {} events).store) :=
  ⟨(run_exact events).booksExact, fun _ frame createId now admitted =>
      (addFrame_exact (run_exact events) frame createId now admitted).2,
    run_within⟩

/-! ## Where the books do not say more -/

/-- A frame of the given bytes, as the store keeps it. -/
def storedFrame (data : Uint8Array) : DataFrame where
  id := "frame"
  direction := .RX
  timestamp := .nan
  data := data
  captureSeq := none
  origin := none
  contentVersion := none
  omittedBytes := none
  txStatus := none
  requestedBytes := none

/-- A session is opened with as many frames as its buffer lets in, gets one more, and is
cleared. -/
def clearedAfterTrim : List CaptureEvent :=
  [.replaceWorkspaceSessions [⟨"a", replicate 1500 (storedFrame [0])⟩],
    .setMaxBufferFrames (.finite 1000),
    .addFrame "a" { direction := .RX, data := [0] } "frame" .nan true,
    .clearFrames "a" true]

/-- A workspace with one session is opened. -/
def opened (frames : List DataFrame) : List CaptureEvent :=
  [.replaceWorkspaceSessions [⟨"a", frames⟩]]

theorem opened_retains (frames : List DataFrame) :
    ∃ s ∈ (run step {} (opened frames)).store.sessions, s.contents = frames := by
  unfold opened
  simp only [run_cons, run_nil, step, handle, replaceWorkspaceSessions]
  rw [if_pos (by simp)]
  exact ⟨_, mem_singleton_self _, (hydratedSession_fields ⟨"a", frames⟩).2.1⟩

theorem framesByteLength_zeros (count bytes : Nat) :
    framesByteLength (replicate count (storedFrame (replicate bytes 0))) =
      count * bytes := by
  simp [framesByteLength, storedFrame]

/-- The counter outlives a clear, and an opened workspace may hold more than a session may. -/
theorem counters_outlive_a_clear_and_opened_sessions_may_be_full :
    (¬ ∀ events, ∀ s ∈ (run step {} events).store.sessions,
      ((run step {} events).store.frameBufferDroppedBytes.get s.id).getD 0 +
          frameBuffersByteLength s =
        framesByteLength ((run step {} events).records s.id).captured) ∧
    ¬ ∀ events, WithinLimits (run step {} events).store := by
  refine ⟨fun h => ?_, fun h => ?_⟩
  · have hrun : ∃ s ∈ (run step {} clearedAfterTrim).store.sessions,
        ((run step {} clearedAfterTrim).store.frameBufferDroppedBytes.get s.id).getD 0 +
          frameBuffersByteLength s ≠
        framesByteLength ((run step {} clearedAfterTrim).records s.id).captured := by
      decide +kernel
    obtain ⟨s, hs, hne⟩ := hrun
    exact hne (h clearedAfterTrim s hs)
  · -- thirty-three frames of two mebibytes
    obtain ⟨s, hs, hcontents⟩ := opened_retains
      (replicate 33 (storedFrame (replicate 2097152 0)))
    have hbytes := (h _).each s hs
    rw [hcontents, framesByteLength_zeros] at hbytes
    unfold MAX_SESSION_FRAME_BYTES at hbytes
    omega

end bbcom.capture
