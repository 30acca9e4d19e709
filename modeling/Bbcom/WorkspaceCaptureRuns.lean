-- What the events of an open workspace keep: the books of the store are exact, and those of the
-- application follow them as long as it accepts saves.
import Bbcom.CaptureAgreementRuns
import Bbcom.CaptureBounds

open bbcom.serial bbcom.contracts bbcom.write_epoch bbcom.ordered_map bbcom.runs

namespace bbcom.capture

open CaptureApplication CaptureAccountingStore SessionStore List CaptureRun CaptureRecord
open WorkspaceCapture

variable {store : SessionStore} {application : CaptureApplication}
  {records : String → CaptureRecord} {id : String}

/-! ## Sessions that join -/

theorem joinRecord_self (s : SerialSession) (record : CaptureRecord) :
    joinRecord [s] s.id record = { captured := s.contents } := by
  simp [joinRecord]

variable {s : SerialSession}

theorem joinRecord_of_ne {other : String} (hne : other ≠ s.id) (record : CaptureRecord) :
    joinRecord [s] other record = record := by
  simp [joinRecord, Ne.symm hne]

/-- A session that is not stored joins past the application. -/
theorem FollowsWhileAccepting.joinRuntime (h : FollowsWhileAccepting store application records)
    (hfresh : id ∉ sessionIds store.sessions) :
    FollowsWhileAccepting (store.addSession id true) application
      (fun other => joinRecord [{ id }] other (records other)) := by
  intro haccepting
  obtain ⟨hsummed, hregistered, hrows, hbounded⟩ := h haccepting
  refine ⟨hsummed, ?_, ?_, hbounded⟩
  · intro other
    rw [hregistered other]
    change _ ↔ other ∈ sessionIds (store.sessions ++ [({ id := id } : SerialSession)]) ∧
      other ∉ store.runtimeSessionIds ++ [id]
    have hids : other ∈ sessionIds (store.sessions ++ [({ id := id } : SerialSession)]) ↔
        other ∈ sessionIds store.sessions ∨ other = id := by simp [sessionIds]
    rw [hids, mem_append, mem_singleton]
    by_cases hid : other = id
    · subst hid
      simp [hfresh]
    · simp [hid]
  · intro other row hrow
    have hne : other ≠ id := by
      rintro rfl
      exact hfresh ((hregistered other).1 (hasSession_of_totals hrow)).1
    have hsame := joinRecord_of_ne (s := { id }) hne (records other)
    rw [hsame]
    exact hrows other row hrow

theorem preflightSessionRegistration_ok {frameCount captureBytes : Int}
    (h : application.preflightSessionRegistration id frameCount captureBytes = .ok ()) :
    application.acceptingSaveContext = true ∧ application.captureAccounting.hasSession id = false ∧
      0 ≤ frameCount ∧ 0 ≤ captureBytes ∧
      application.bringsItsCapture id frameCount captureBytes = true ∧
      application.captureAccounting.workspaceFrameCount + frameCount ≤ MAX_WORKSPACE_FRAMES := by
  unfold preflightSessionRegistration at h
  split at h
  · cases h
  rename_i haccepting
  split at h
  · cases h
  rename_i hvalid
  split at h
  · cases h
  rename_i hbrings
  split at h
  · cases h
  rename_i hlimits
  simp only [not_or, not_lt, gt_iff_lt, Bool.not_eq_true, Bool.not_eq_false'] at hvalid hlimits
  exact ⟨by simpa using haccepting, hvalid.2.1, hvalid.2.2.1, hvalid.2.2.2.2.1,
    by simpa using hbrings, hlimits.2.2.1⟩

/-- What the preflight has seen is what the session is registered with. -/
theorem registrationOf_totals {frameCount captureBytes : Int}
    (h : application.bringsItsCapture id frameCount captureBytes = true) :
    (application.registrationOf id).frameCount = frameCount ∧
      (application.registrationOf id).captureBytes = captureBytes := by
  unfold bringsItsCapture at h
  unfold registrationOf
  split at h
  · simpa using h
  · simp only [Bool.and_eq_true, decide_eq_true_eq] at h
    exact ⟨h.1.symm, h.2.symm⟩

variable {after : SessionStore}

/-- A session that the application has admitted joins on both sides. -/
theorem Follows.register (h : Follows store application records) (hjoin : Joined store after s)
    (hruntime : after.runtimeSessionIds = store.runtimeSessionIds)
    (hstored : s.id ∉ store.runtimeSessionIds)
    (hadmitted : application.preflightSessionRegistration s.id s.contents.length
      (framesByteLength s.contents) = .ok ()) :
    FollowsWhileAccepting after (settle application (application.registerSession s.id))
      (fun other => joinRecord [s] other (records other)) := by
  obtain ⟨_, hfresh, _, _, hbrings, _⟩ := preflightSessionRegistration_ok hadmitted
  obtain ⟨hcount, hbytes⟩ := registrationOf_totals hbrings
  have hnone : application.captureAccounting.sessionTotals s.id = none := by
    simpa [CaptureAccountingStore.hasSession] using hfresh
  unfold CaptureApplication.registerSession
  rw [if_neg (by simp [hfresh])]
  split
  · exact settle_error_follows _
  rename_i hregister
  obtain ⟨_, _, hpos, hpos', _, hbounded⟩ := preflightSessionRegistration_ok hregister
  intro _
  have hids : ∀ other, other ∈ sessionIds after.sessions ↔
      other = s.id ∨ other ∈ sessionIds store.sessions := by
    intro other
    rw [sessionIds, (hjoin.sessions.map SerialSession.id).mem_iff, map_cons, mem_cons]
    rfl
  refine ⟨h.summed.registerSession hnone ⟨hpos, hpos'⟩, ?_, ?_, hbounded⟩
  · intro other
    rw [hids, hruntime]
    change ((application.captureAccounting.registerSession s.id
      (application.registrationOf s.id)).sessionTotals other).isSome = true ↔ _
    by_cases hid : other = s.id
    · subst hid
      rw [sessionTotals_registerSession_self]
      simp [hstored]
    · rw [sessionTotals_registerSession_of_ne _ _ hid]
      exact (h.registered other).trans (by simp [hid])
  · intro other row hrow
    by_cases hid : other = s.id
    · subst hid
      cases (sessionTotals_registerSession_self _ _ _).symm.trans hrow
      rw [joinRecord_self]
      simpa using And.intro hcount hbytes
    · have hold := (sessionTotals_registerSession_of_ne application.captureAccounting
        (application.registrationOf s.id) hid).symm.trans hrow
      rw [joinRecord_of_ne hid]
      exact h.rows other row hold

/-! ## Sessions that leave -/

theorem removeSession_ids (store : SessionStore) (id : String) :
    sessionIds (store.removeSession id).sessions = (sessionIds store.sessions).filter (· ≠ id) ∧
      (store.removeSession id).runtimeSessionIds ⊆ store.runtimeSessionIds ∧
      (∀ other ∈ store.runtimeSessionIds, other ≠ id →
        other ∈ (store.removeSession id).runtimeSessionIds) ∧
      (id ∈ sessionIds store.sessions → id ∉ (store.removeSession id).runtimeSessionIds) := by
  unfold SessionStore.removeSession
  cases hs : store.findSession id with
  | none =>
    have habsent : ∀ other ∈ sessionIds store.sessions, other ≠ id := by
      intro other hother
      obtain ⟨s, hs', rfl⟩ := mem_map.1 hother
      simpa using List.find?_eq_none.1 hs s hs'
    refine ⟨?_, fun _ h => h, fun _ h _ => h, fun hmem => absurd rfl (habsent id hmem)⟩
    symm
    apply filter_eq_self.2
    intro other hother
    simpa using habsent other hother
  | some s =>
    refine ⟨?_, ?_, ?_, ?_⟩
    · change (store.sessions.filter _).map _ = _
      rw [sessionIds, filter_map]
      rfl
    · exact fun _ h => (mem_filter.1 h).1
    · exact fun other h hne => mem_filter.2 ⟨h, by simpa using hne⟩
    · intro _ hmem
      have hne := (mem_filter.1 hmem).2
      simp at hne

/-- A session that is not stored leaves past the application. -/
theorem FollowsWhileAccepting.removeRuntime (h : FollowsWhileAccepting store application records)
    (hruntime : id ∈ store.runtimeSessionIds) :
    FollowsWhileAccepting (store.removeSession id) application records := by
  obtain ⟨hids, hsub, hkeep, _⟩ := removeSession_ids store id
  intro haccepting
  obtain ⟨hsummed, hregistered, hrows, hbounded⟩ := h haccepting
  refine ⟨hsummed, ?_, hrows, hbounded⟩
  intro other
  rw [hregistered other, hids, mem_filter]
  constructor
  · rintro ⟨hmem, hstored⟩
    have hne : other ≠ id := fun heq => hstored (heq ▸ hruntime)
    exact ⟨⟨hmem, by simpa using hne⟩, fun hin => hstored (hsub hin)⟩
  · rintro ⟨⟨hmem, hne⟩, hstored⟩
    exact ⟨hmem, fun hin => hstored (hkeep other hin (by simpa using hne))⟩

theorem Follows.forget (h : Follows store application records)
    (hstored : id ∉ store.runtimeSessionIds) :
    Follows (store.removeSession id) (application.forgetSession id) records := by
  obtain ⟨hids, hsub, hkeep, _⟩ := removeSession_ids store id
  have hafter : (application.forgetSession id).captureAccounting =
      application.captureAccounting.removeSession id := by
    unfold CaptureApplication.forgetSession CaptureAccountingStore.removeSession
    cases application.captureAccounting.sessionTotals id <;> rfl
  have hnone := sessionTotals_removeSession_self h.summed id
  have hruntime : ∀ other, other ∈ (store.removeSession id).runtimeSessionIds ↔
      other ∈ store.runtimeSessionIds := by
    intro other
    refine ⟨fun hin => hsub hin, fun hin => hkeep other hin ?_⟩
    rintro rfl
    exact hstored hin
  have htotal : (application.captureAccounting.removeSession id).workspaceFrameCount ≤
      MAX_WORKSPACE_FRAMES := by
    have hbounded := h.bounded
    obtain ⟨hpos, _⟩ := h.summed.row_le id
    unfold CaptureAccountingStore.removeSession
    cases hrow : application.captureAccounting.sessionTotals id with
    | none => exact hbounded
    | some row =>
      rw [sessionRow_of_some _ hrow] at hpos
      change max 0 (application.captureAccounting.workspaceFrameCount + -row.frameCount) ≤ _
      omega
  refine ⟨?_, ?_, ?_, ?_⟩
  · rw [hafter]
    exact h.summed.removeSession id
  · intro other
    rw [hafter, hruntime, hids, mem_filter]
    unfold CaptureAccountingStore.hasSession
    by_cases hid : other = id
    · subst hid
      simp [hnone]
    · rw [sessionTotals_removeSession_of_ne _ hid]
      have hbefore := h.registered other
      unfold CaptureAccountingStore.hasSession at hbefore
      simp [hbefore, hid]
  · intro other row hrow
    rw [hafter] at hrow
    have hne : other ≠ id := by
      rintro rfl
      rw [hnone] at hrow
      cases hrow
    rw [sessionTotals_removeSession_of_ne _ hne] at hrow
    exact h.rows other row hrow
  · rw [hafter]
    exact htotal

/-! ## A workspace that opens -/

variable {entries : List HydratedWorkspaceSession}

theorem hydratable_spec (h : hydratable entries = true) :
    ((entries.map (·.id)).Nodup ∧ ∀ entry ∈ entries, entry.id ≠ "") ∧
      (entries.map (·.frames.length)).sum ≤ MAX_WORKSPACE_FRAMES := by
  unfold hydratable at h
  simp only [Bool.and_eq_true, decide_eq_true_eq, all_eq_true] at h
  obtain ⟨⟨⟨⟨⟨hids, hopaque⟩, _⟩, _⟩, hframes⟩, _⟩ := h
  refine ⟨⟨hids, ?_⟩, hframes⟩
  rintro entry hentry hempty
  have hid := hopaque entry hentry
  rw [hempty] at hid
  cases hid

theorem openWorkspace_follows (h : hydratable entries = true) (store : SessionStore)
    (records : String → CaptureRecord) :
    Follows (store.replaceWorkspaceSessions entries)
      (CaptureApplication.installHydratedWorkspace (entries.map hydratedRow))
      (fun other => joinRecord (store.joins (.replaceWorkspaceSessions entries)) other
        (records other)) := by
  obtain ⟨hvalid, hframes⟩ := hydratable_spec h
  have hkeys : ((entries.map hydratedRow).map Prod.fst).Nodup := by
    rw [map_map]
    exact hvalid.1
  have hrows : ∀ entry ∈ entries.map hydratedRow,
      0 ≤ entry.2.frameCount ∧ 0 ≤ entry.2.captureBytes := by
    intro entry hentry
    obtain ⟨hydrated, _, rfl⟩ := mem_map.1 hentry
    exact ⟨Int.natCast_nonneg _, Int.natCast_nonneg _⟩
  obtain ⟨hsummed, hcount, heach, hothers⟩ :=
    Summed.registerSessions hkeys hrows summed_empty (fun _ _ => rfl)
  unfold replaceWorkspaceSessions joins
  dsimp only
  rw [if_pos hvalid, if_pos hvalid]
  obtain ⟨sessions, hsessions⟩ : ∃ sessions, sessions = entries.map fun entry =>
      cloneStoppedSession (hydratedSession entry) := ⟨_, rfl⟩
  rw [← hsessions]
  have hfields : ∀ entry : HydratedWorkspaceSession,
      (cloneStoppedSession (hydratedSession entry)).id = entry.id ∧
        (cloneStoppedSession (hydratedSession entry)).contents = entry.frames :=
    fun entry => ⟨(hydratedSession_fields entry).1, (hydratedSession_fields entry).2.1⟩
  have hids : sessionIds sessions = (entries.map hydratedRow).map Prod.fst := by
    rw [hsessions, sessionIds, map_map, map_map]
    apply map_congr_left
    intro entry _
    exact (hfields entry).1
  have hdistinct : (sessionIds sessions).Nodup := hids ▸ hkeys
  refine ⟨hsummed, ?_, ?_, ?_⟩
  · intro other
    change (sessionTotals (List.foldl _ _ _) other).isSome = true ↔
      other ∈ sessionIds sessions ∧ other ∉ []
    rw [hids]
    by_cases hmem : other ∈ (entries.map hydratedRow).map Prod.fst
    · obtain ⟨entry, hentry, rfl⟩ := mem_map.1 hmem
      rw [heach entry hentry]
      simpa using hmem
    · rw [hothers other hmem]
      simpa [sessionTotals] using hmem
  · intro other row hrow
    change sessionTotals (List.foldl _ _ _) other = some row at hrow
    by_cases hmem : other ∈ (entries.map hydratedRow).map Prod.fst
    · obtain ⟨entry, hentry, rfl⟩ := mem_map.1 hmem
      rw [heach entry hentry] at hrow
      cases hrow
      obtain ⟨hydrated, hhydrated, rfl⟩ := mem_map.1 hentry
      obtain ⟨hid, hcontents⟩ := hfields hydrated
      have hfound : cloneStoppedSession (hydratedSession hydrated) ∈
          sessions := by
        rw [hsessions]
        exact mem_map_of_mem hhydrated
      have hfind := find_of_mem hdistinct hfound
      rw [hid] at hfind
      have hrecord : joinRecord sessions hydrated.id (records hydrated.id) =
          { captured := hydrated.frames } := by
        unfold joinRecord
        rw [hfind, ← hcontents]
      simp only [hydratedRow]
      rw [hrecord]
      simp
    · rw [hothers other hmem] at hrow
      cases hrow
  · change workspaceFrameCount (List.foldl _ _ _) ≤ _
    rw [hcount, map_map]
    have hsum : (entries.map ((fun entry => entry.2.frameCount) ∘ hydratedRow)).sum =
        ((entries.map (·.frames.length)).sum : ℕ) := by
      rw [Nat.cast_list_sum, map_map]
      rfl
    rw [hsum]
    change (0 : Int) + _ ≤ _
    rw [zero_add]
    exact_mod_cast hframes

/-! ## Every event -/

/-- The books on both sides, for an observer who has written down some records. -/
structure Agrees (state : WorkspaceCapture) : Prop where
  known : ∀ id ∈ state.store.runtimeSessionIds, id ∈ sessionIds state.store.sessions
  follows : ∃ records, Exact state.store records ∧
    FollowsWhileAccepting state.store state.application records

theorem SameSessions.known (hsame : SameSessions store after)
    (h : ∀ id ∈ store.runtimeSessionIds, id ∈ sessionIds store.sessions) :
    ∀ id ∈ after.runtimeSessionIds, id ∈ sessionIds after.sessions := by
  rw [hsame.ids, hsame.runtime]
  exact h

variable {state : WorkspaceCapture}

section

variable (h : Agrees state)
include h

theorem addFrame_agrees (id : String) (frame : PipelineFrame) (stamp : FrameStamp) :
    Agrees (state.addFrame id frame stamp) := by
  obtain ⟨records, hexact, hfollows⟩ := h.follows
  have hsame := addFrame_same hexact id frame.captured stamp.createId.val
    (.finite stamp.now.val) (state.preflightRuntimeCapture id frame.captured.data)
  exact ⟨hsame.known h.known, _, (addFrame_exact hexact _ _ _ _).1,
    heard_follows (addFrame_kind _ _ _ _) (hsame.follows hfollows)⟩

theorem setCapturePaused_agrees (paused admitted : Bool) :
    Agrees (heard state.application (state.store.setCapturePaused id paused admitted)) := by
  obtain ⟨records, hexact, hfollows⟩ := h.follows
  have hsame := setCapturePaused_same state.store id paused admitted
  exact ⟨hsame.known h.known, _, (setCapturePaused_exact hexact paused admitted).1,
    heard_follows (setCapturePaused_kind paused admitted) (hsame.follows hfollows)⟩

theorem clearFrames_agrees (admitted : Bool) :
    Agrees (heard state.application (state.store.clearFrames id admitted)) := by
  obtain ⟨records, hexact, hfollows⟩ := h.follows
  have hsame := clearFrames_same state.store id admitted
  refine ⟨hsame.known h.known, _, (clearFrames_exact hexact admitted).1, ?_⟩
  have hafter := hsame.follows hfollows
  change FollowsWhileAccepting (state.store.clearFrames id admitted).1
    ((state.store.clearFrames id admitted).2.foldl
      (onChange (state.store.clearFrames id admitted).1) state.application) _
  generalize hcleared : state.store.clearFrames id admitted = cleared at hafter
  obtain ⟨cleared, changes⟩ := cleared
  have hchanges : changes = [] ∨ changes = [.framesCleared id, .captureCleared id] ∨
      changes = [.framesCleared id] ∧ ∃ s, state.store.findSession id = some s ∧
        s.contents = [] := by
    unfold clearFrames at hcleared
    split at hcleared
    swap
    · cases hcleared
      exact .inl rfl
    split at hcleared
    · cases hcleared
      exact .inl rfl
    rename_i s hs
    split at hcleared
    · cases hcleared
      exact .inr (.inl rfl)
    · rename_i hclear
      cases hcleared
      exact .inr (.inr ⟨rfl, s, hs, contents_of_not_clearable (by simpa using hclear)⟩)
  rcases hchanges with rfl | rfl | ⟨rfl, s, hs, hempty⟩
  · exact hafter
  · exact captureCleared_follows hafter
  · intro haccepting
    obtain ⟨hsummed, hregistered, hrows, hbounded⟩ := hafter haccepting
    refine ⟨hsummed, hregistered, ?_, hbounded⟩
    intro other row hrow
    by_cases hid : other = id
    · subst hid
      obtain ⟨hframes, hbytes⟩ := hexact.retained hs
      obtain ⟨hcount, hlength⟩ := hrows other row hrow
      rw [hempty] at hframes hbytes
      rw [hcount, hlength, hframes, hbytes]
      simp [observe, clear]
    · simpa [observe, Ne.symm hid] using hrows other row hrow

theorem createSession_agrees (uuid : RandomUuid) (runtimeOnly : Bool) :
    Agrees (state.createSession uuid runtimeOnly) := by
  obtain ⟨records, hexact, hfollows⟩ := h.follows
  have hfresh := uuid.fresh (sessionIds state.store.sessions)
  unfold WorkspaceCapture.createSession
  dsimp only
  generalize uuid.randomUUID (sessionIds state.store.sessions) = id at hfresh ⊢
  have hids : ∀ runtimeOnly, sessionIds (state.store.addSession id runtimeOnly).sessions =
      sessionIds state.store.sessions ++ [id] := by
    intro runtimeOnly
    change sessionIds (state.store.sessions ++ [({ id := id } : SerialSession)]) = _
    simp [sessionIds]
  split
  · refine ⟨?_, _, addSession_exact hexact hfresh true, hfollows.joinRuntime hfresh⟩
    intro other hother
    change other ∈ state.store.runtimeSessionIds ++ [id] at hother
    change other ∈ sessionIds (state.store.addSession id true).sessions
    rw [hids, mem_append]
    exact (mem_append.1 hother).imp_left (h.known other)
  split
  · rename_i hadmitted
    rw [Bool.and_eq_true] at hadmitted
    have hpreflight : state.application.preflightSessionRegistration id 0 0 = .ok () := by
      cases hresult : state.application.preflightSessionRegistration id 0 0 with
      | ok => rfl
      | error messageKey => simp [hresult, Except.isOk, Except.toBool] at hadmitted
    have hjoin : Joined state.store (state.store.addSession id false) { id := id } :=
      ⟨perm_append_singleton _ _, rfl, rfl, rfl, .inl rfl⟩
    refine ⟨?_, _, addSession_exact hexact hfresh false, ?_⟩
    · intro other hother
      change other ∈ sessionIds (state.store.addSession id false).sessions
      rw [hids, mem_append]
      exact .inl (h.known other hother)
    · exact (hfollows hadmitted.1).register hjoin rfl (fun hin => hfresh (h.known id hin))
        hpreflight
  · exact h

theorem removeSession_agrees : Agrees (state.removeSession id) := by
  obtain ⟨records, hexact, hfollows⟩ := h.follows
  obtain ⟨hids, hsub, _, hgone⟩ := removeSession_ids state.store id
  have hknown : ∀ other ∈ (state.store.removeSession id).runtimeSessionIds, other ≠ id →
      other ∈ sessionIds (state.store.removeSession id).sessions := by
    intro other hother hne
    rw [hids, mem_filter]
    exact ⟨h.known other (hsub hother), by simpa using hne⟩
  unfold WorkspaceCapture.removeSession
  split
  · rename_i hruntime
    refine ⟨?_, records, (removeSession_exact hexact).1, hfollows.removeRuntime hruntime⟩
    intro other hother
    refine hknown other hother ?_
    rintro rfl
    exact hgone (h.known other hruntime) hother
  split
  · rename_i hstored haccepting
    refine ⟨?_, records, (removeSession_exact hexact).1,
      fun _ => (hfollows haccepting).forget hstored⟩
    intro other hother
    refine hknown other hother ?_
    rintro rfl
    exact hstored (hsub hother)
  · exact h

theorem undoLastRemovedSession_agrees : Agrees state.undoLastRemovedSession := by
  obtain ⟨records, hexact, hfollows⟩ := h.follows
  unfold WorkspaceCapture.undoLastRemovedSession
  split
  · exact h
  rename_i snapshot hlast
  split
  swap
  · exact h
  rename_i hadmitted
  simp only [Bool.and_eq_true, Option.isNone_iff_eq_none] at hadmitted
  obtain ⟨⟨habsent, haccepting⟩, hok⟩ := hadmitted
  rcases undoLastRemovedSession_joined state.store true with
    ⟨_, hnone⟩ | ⟨snapshot', hlast', _, hjoins, hjoin⟩
  · exfalso
    simp [SessionStore.joins, hlast, habsent] at hnone
  cases hlast.symm.trans hlast'
  have hexact' := undoLastRemovedSession_exact hexact true
  rw [hjoins] at hexact'
  have hfresh : snapshot.session.id ∉ sessionIds state.store.sessions := by
    intro hmem
    obtain ⟨s, hs, hid⟩ := mem_map.1 hmem
    have hfind := find_of_mem hexact.distinct hs
    rw [hid] at hfind
    cases habsent.symm.trans hfind
  have hpreflight : state.application.preflightSessionRegistration snapshot.session.id
      snapshot.session.contents.length (framesByteLength snapshot.session.contents) = .ok () := by
    rw [← frameBuffersByteLength_eq]
    cases hresult : state.application.preflightSessionRegistration snapshot.session.id
        snapshot.session.contents.length (frameBuffersByteLength snapshot.session) with
    | ok => rfl
    | error messageKey => simp [hresult, Except.isOk, Except.toBool] at hok
  have hruntime : (state.store.undoLastRemovedSession true).runtimeSessionIds =
      state.store.runtimeSessionIds := by
    unfold SessionStore.undoLastRemovedSession
    rw [hlast]
    dsimp only
    split <;> rfl
  refine ⟨?_, _, hexact', ?_⟩
  · intro other hother
    change other ∈ (state.store.undoLastRemovedSession true).runtimeSessionIds at hother
    rw [hruntime] at hother
    have hperm := (hjoin.sessions.map SerialSession.id).mem_iff (a := other)
    exact hperm.2 (mem_cons_of_mem _ (h.known other hother))
  · exact (hfollows haccepting).register hjoin hruntime
      (fun hin => hfresh (h.known _ hin)) hpreflight

theorem openWorkspace_agrees (entries : List HydratedWorkspaceSession) :
    Agrees (state.step (.openWorkspace entries)) := by
  obtain ⟨records, hexact, _⟩ := h.follows
  change Agrees (if hydratable entries then _ else state)
  split
  · rename_i hhydratable
    refine ⟨?_, _, replaceWorkspaceSessions_exact hexact entries,
      fun _ => openWorkspace_follows hhydratable state.store records⟩
    have hruntime : (state.store.replaceWorkspaceSessions entries).runtimeSessionIds = [] := by
      unfold replaceWorkspaceSessions
      rw [if_pos (hydratable_spec hhydratable).1]
    intro other hother
    change other ∈ (state.store.replaceWorkspaceSessions entries).runtimeSessionIds at hother
    rw [hruntime] at hother
    cases hother
  · exact h

theorem closeWorkspace_agrees : Agrees (state.step .closeWorkspace) := by
  obtain ⟨records, hexact, _⟩ := h.follows
  refine ⟨?_, _, replaceWorkspaceSessions_exact hexact [], fun haccepting => by cases haccepting⟩
  intro other hother
  cases hother

end

theorem latchSaveFailure_closed (messageKey : String) :
    (application.latchSaveFailure messageKey).acceptingSaveContext = false := by
  simp [latchSaveFailure, acceptingSaveContext]

theorem workspaceStep_agrees (state : WorkspaceCapture) (event : WorkspaceEvent)
    (h : Agrees state) : Agrees (state.step event) := by
  cases event with
  | openWorkspace entries => exact openWorkspace_agrees h entries
  | closeWorkspace => exact closeWorkspace_agrees h
  | failSaves messageKey =>
    obtain ⟨records, hexact, _⟩ := h.follows
    refine ⟨h.known, records, hexact, fun haccepting => ?_⟩
    cases (latchSaveFailure_closed messageKey).symm.trans haccepting
  | createSession uuid runtimeOnly => exact createSession_agrees h uuid runtimeOnly
  | removeSession sessionId => exact removeSession_agrees h
  | undoLastRemovedSession => exact undoLastRemovedSession_agrees h
  | setMaxBufferFrames value =>
    obtain ⟨records, hexact, hfollows⟩ := h.follows
    refine ⟨h.known, records, ⟨hexact.distinct, hexact.total, hexact.snapshot, hexact.each⟩, ?_⟩
    have hsame : SameSessions state.store
        { state.store with maxBufferFrames := clampBufferFrames value } := ⟨rfl, rfl⟩
    exact hsame.follows hfollows
  | addFrame sessionId frame stamp => exact addFrame_agrees h sessionId frame stamp
  | updateDroppedBytes sessionId total =>
    obtain ⟨records, hexact, hfollows⟩ := h.follows
    have hsame := updateDroppedBytes_same state.store sessionId total
    exact ⟨hsame.known h.known, records, (updateDroppedBytes_exact hexact total).1,
      hsame.follows hfollows⟩
  | clearFrames sessionId => exact clearFrames_agrees h _
  | setCapturePaused sessionId paused => exact setCapturePaused_agrees h paused _

theorem agrees_empty : Agrees {} := by
  refine ⟨fun id hid => ?_, fun _ => {}, exact_empty, fun haccepting => ?_⟩
  · cases hid
  · cases haccepting

/-- Both sides agree in every state that a run reaches. -/
theorem workspaceRun_agrees (events : List WorkspaceEvent) :
    Agrees (run WorkspaceCapture.step {} events) :=
  run_invariant workspaceStep_agrees agrees_empty events

/-- While saves are accepted, the application has a row for just the sessions that are stored. It
counts the frames that the renderer holds, and as many bytes as the row of the renderer. -/
theorem both_ledgers_agree (events : List WorkspaceEvent)
    (haccepting : (run WorkspaceCapture.step {} events).application.acceptingSaveContext = true) :
    let state := run WorkspaceCapture.step {} events
    let ledger := state.application.captureAccounting
    ledger.Summed ∧ ledger.workspaceFrameCount ≤ MAX_WORKSPACE_FRAMES ∧
      (∀ id, ledger.hasSession id = true ↔
        id ∈ sessionIds state.store.sessions ∧ id ∉ state.store.runtimeSessionIds) ∧
      ∀ s ∈ state.store.sessions, s.id ∉ state.store.runtimeSessionIds →
        ∃ row shown, ledger.sessionTotals s.id = some row ∧
          state.store.accounting.sessionTotals s.id = some shown ∧
          row.frameCount = s.contents.length ∧ row.captureBytes = framesByteLength s.contents ∧
          shown.captureBytes = row.captureBytes := by
  obtain ⟨-, records, hexact, hfollows⟩ := workspaceRun_agrees events
  have h := hfollows haccepting
  refine ⟨h.summed, h.bounded, h.registered, fun s hs hstored => ?_⟩
  obtain ⟨shown, _, _, hbooks, hin⟩ := hexact.each s hs
  have hregistered := (h.registered s.id).2 ⟨mem_map_of_mem hs, hstored⟩
  obtain ⟨row, hrow⟩ := Option.isSome_iff_exists.1 hregistered
  obtain ⟨dropped, hcaptured, hdropped⟩ := hin.accounts
  obtain ⟨hcount, hbytes⟩ := h.rows s.id row hrow
  rw [hcaptured, hdropped, length_append] at hcount
  rw [hcaptured, hdropped, framesByteLength_append] at hbytes
  dsimp only at hcount hbytes
  have hsame : row.captureBytes = framesByteLength s.contents := by omega
  exact ⟨row, shown, hrow, congrArg SessionBooks.row hbooks, by omega, hsame,
    hin.bytes.trans hsame.symm⟩

/-- Two frames come in behind the stored one, the second into the paused buffer. -/
theorem both_ledgers_agree_behind_two_frames :
    let stamp : FrameStamp := ⟨⟨"frame", by decide +kernel⟩, ⟨0, by decide⟩⟩
    let events : List WorkspaceEvent := [.openWorkspace [⟨"a", [storedFrame [0]]⟩],
      .addFrame "a" (.rx [1, 2]) stamp, .setCapturePaused "a" true, .addFrame "a" (.rx [3]) stamp]
    let state := run WorkspaceCapture.step {} events
    state.application.acceptingSaveContext = true ∧
      state.application.captureAccounting.workspaceFrameCount = 3 ∧
      state.application.captureAccounting.Summed := by
  intro stamp events
  have haccepting :
      (run WorkspaceCapture.step {} events).application.acceptingSaveContext = true := by
    decide +kernel
  exact ⟨haccepting, by decide +kernel, (both_ledgers_agree events haccepting).1⟩

end bbcom.capture
