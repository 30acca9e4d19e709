-- What holds in every committed state of a workspace, whatever batches it was sent: one
-- archived session at most, an active session that is there, AI messages numbered without a
-- gap, the newest sample groups and no others, the limits, and a header that reads.
import Bbcom.WorkspaceServiceSpec

open bbcom.js bbcom.json bbcom.contracts

namespace bbcom.workspace

open Database List Function Nat AiMessageRow

/-! ## The invariant, table by table -/

structure SessionsSound (db : Database) : Prop where
  ids_distinct : (db.sessions.map SessionRow.id).Nodup
  one_undo_pending : db.sessions.countP (·.undoPending) ≤ 1
  active_live : ∀ id, db.workspaceMeta.activeSessionId = some id → db.hasLiveSession id

/-- The positions of each session are `0..n-1`, in the order of the rows. -/
def AiContiguous (db : Database) : Prop :=
  ∀ id, (db.sessionAiMessages id).map position =
    List.range (db.sessionAiMessages id).length

/-- All samples that a session was sent since its channels were set or the session was
purged, in order and without any pruning. -/
abbrev SampleLog := String → List WaveformSampleRow

def retainedSamples (samples : List WaveformSampleRow) : List WaveformSampleRow :=
  retention.retain MAX_WAVEFORM_SAMPLE_GROUPS WaveformSampleRow.seq samples

structure SamplesSound (db : Database) (log : SampleLog) : Prop where
  have_channel : ∀ r ∈ db.waveformSamples, db.hasWaveformChannel r.sessionId r.channelIndex
  retained : ∀ id, db.sessionSamples id = retainedSamples (log id)

/-- The archived sessions that the removal of a session purges. -/
def purgedBy (db : Database) (sessionId : String) : List String :=
  (db.sessions.filter fun s => s.undoPending && s.id ≠ sessionId).map SessionRow.id

def logMutation (db : Database) (log : SampleLog) : MutationBody Json F64 → SampleLog
  | .appendWaveformSamples sessionId payload =>
    update log sessionId
      (log sessionId ++ payload.samples.map (sampleRow sessionId))
  | .replaceWaveformChannels sessionId _ => update log sessionId []
  | .removeSession sessionId => fun id => if (purgedBy db sessionId).contains id then [] else log id
  | _ => log

/-! ## Sessions -/

variable {db db' : Database} {sessionId : String} {body : MutationBody Json F64} {log : SampleLog}

theorem hasLiveSession_congr (hs : db'.sessions = db.sessions) (id : String) :
    db'.hasLiveSession id = db.hasLiveSession id := by
  unfold hasLiveSession
  rw [hs]

/-- A mutation that writes neither the sessions nor the active one. -/
theorem SessionsSound.keep (h : SessionsSound db) (hs : db'.sessions = db.sessions)
    (ha : db'.workspaceMeta.activeSessionId = db.workspaceMeta.activeSessionId) :
    SessionsSound db' where
  ids_distinct := by
    rw [hs]
    exact h.ids_distinct
  one_undo_pending := by
    rw [hs]
    exact h.one_undo_pending
  active_live id hid := by
    rw [hasLiveSession_congr hs]
    exact h.active_live id (ha ▸ hid)

theorem map_id_upsert (sessions : List SessionRow) (row : SessionRow) :
    (sessions.map fun s => if s.id = row.id then row else s).map SessionRow.id =
      sessions.map SessionRow.id := by
  rw [map_map]
  apply map_congr_left
  intro s _
  by_cases hid : s.id = row.id
  · simp [hid]
  · simp [hid]

theorem SessionsSound.upsert (h : SessionsSound db) {row : SessionRow}
    (hrow : row.undoPending = false) :
    SessionsSound { db with sessions := upsertSessionRow db row } := by
  by_cases hany : db.sessions.any (·.id = row.id)
  · have hsessions : upsertSessionRow db row =
        db.sessions.map fun s => if s.id = row.id then row else s := if_pos hany
    refine ⟨?_, ?_, ?_⟩
    · simp only [hsessions, map_id_upsert]
      exact h.ids_distinct
    · simp only [hsessions, countP_map]
      refine (countP_mono_left fun s _ hs => ?_).trans h.one_undo_pending
      by_cases hid : s.id = row.id
      · simp [hid, hrow] at hs
      · simpa [hid] using hs
    · intro id hid
      obtain ⟨s, hs, rfl, hlive⟩ := hasLiveSession_iff.1 (h.active_live id hid)
      refine hasLiveSession_iff.2 ⟨if s.id = row.id then row else s, ?_, ?_⟩
      · simp only [hsessions]
        exact mem_map.2 ⟨s, hs, rfl⟩
      · by_cases hsame : s.id = row.id
        · simp [hsame, hrow]
        · simp [hsame, hlive]
  · have hsessions : upsertSessionRow db row = db.sessions ++ [row] := if_neg hany
    simp only [any_eq_true, decide_eq_true_eq, not_exists, not_and] at hany
    refine ⟨?_, ?_, ?_⟩
    · simp only [hsessions, map_append, map_cons, map_nil]
      refine nodup_append.2 ⟨h.ids_distinct, by simp, ?_⟩
      intro a ha b hb
      obtain ⟨s, hs, rfl⟩ := mem_map.1 ha
      rw [mem_singleton.1 hb]
      exact hany s hs
    · simpa [hsessions, hrow] using h.one_undo_pending
    · intro id hid
      obtain ⟨s, hs, hsid, hlive⟩ := hasLiveSession_iff.1 (h.active_live id hid)
      exact hasLiveSession_iff.2 ⟨s, by simp [hsessions, hs], hsid, hlive⟩

theorem map_id_mark (sessions : List SessionRow) (sessionId : String) :
    (sessions.map fun s =>
      if s.id = sessionId && !s.undoPending then { s with undoPending := true } else s).map
        SessionRow.id = sessions.map SessionRow.id := by
  rw [map_map]
  apply map_congr_left
  intro s _
  simp only [comp_apply]
  split <;> rfl

theorem SessionsSound.remove (h : SessionsSound db) (hr : removeSession db sessionId = .ok db') :
    SessionsSound db' := by
  obtain ⟨hcount, he⟩ := removeSession_ok hr
  refine ⟨?_, hcount, ?_⟩
  · rw [he]
    simp only [map_id_mark]
    exact h.ids_distinct.sublist (filter_sublist.map _)
  · intro id hid
    rw [he] at hid
    simp only [clearActive, deleteSessions, Option.filter_eq_some_iff] at hid
    obtain ⟨⟨hactive, _⟩, hne⟩ := hid
    obtain ⟨s, hs, rfl, hlive⟩ := hasLiveSession_iff.1 (h.active_live id hactive)
    refine hasLiveSession_iff.2 ⟨s, ?_, rfl, hlive⟩
    rw [he]
    have hne : s.id ≠ sessionId := by simpa using hne
    refine mem_map.2 ⟨s, ?_, by simp [hne]⟩
    exact mem_filter.2 ⟨hs, by simp [hlive]⟩

theorem applyMutation_sessions (h : SessionsSound db) (ha : applyMutation db body = .ok db') :
    SessionsSound db' := by
  have hsame := (applyMutation_untouched ha).sessions
  cases body with
  | setActiveSession sessionId =>
    obtain ⟨hlive, rfl⟩ := setActiveSession_ok ha
    exact ⟨h.ids_distinct, h.one_undo_pending, fun id hid => hlive id hid⟩
  | upsertSession sessionId payload =>
    obtain ⟨row, _, hrow, he⟩ := upsertSession_ok ha
    rw [he]
    exact (h.upsert hrow).keep rfl rfl
  | removeSession sessionId => exact h.remove ha
  | _ => exact h.keep (hsame rfl).1 (hsame rfl).2

/-! ## AI messages -/

/-- Rows that a statement keeps or drops by their session. -/
theorem filter_session {ρ : Type} (key : ρ → String) (keep : String → Bool) (rows : List ρ)
    (id : String) :
    (rows.filter fun r => keep (key r)).filter (fun r => decide (key r = id)) =
      if keep id then rows.filter fun r => decide (key r = id) else [] := by
  rw [filter_filter]
  by_cases hk : keep id
  · rw [if_pos hk]
    apply filter_congr
    intro r _
    by_cases hr : key r = id
    · simp [hr, hk]
    · simp [hr]
  · rw [if_neg hk, filter_eq_nil_iff]
    rintro r _ hr
    simp only [Bool.and_eq_true, decide_eq_true_eq] at hr
    rw [hr.1] at hr
    exact hk hr.2

theorem AiContiguous.keep (h : AiContiguous db) (ha : db'.aiMessages = db.aiMessages) :
    AiContiguous db' := by
  intro id
  have hid : db'.sessionAiMessages id = db.sessionAiMessages id := by
    unfold sessionAiMessages
    rw [ha]
  rw [hid]
  exact h id

/-- Dropping the messages of whole sessions leaves no gap. -/
theorem AiContiguous.drop (h : AiContiguous db) (keep : String → Bool)
    (ha : db'.aiMessages = db.aiMessages.filter fun r => keep r.sessionId) : AiContiguous db' := by
  intro id
  have hid : db'.sessionAiMessages id = if keep id then db.sessionAiMessages id else [] := by
    unfold sessionAiMessages
    rw [ha]
    exact filter_session sessionId keep _ id
  rw [hid]
  by_cases hk : keep id
  · rw [if_pos hk]
    exact h id
  · rw [if_neg hk]
    rfl

theorem AiContiguous.append (h : AiContiguous db) {rows : List AiMessageRow}
    (hrows : ∀ r ∈ rows, r.sessionId = sessionId)
    (hpos : rows.map position = List.range' (db.sessionAiMessages sessionId).length rows.length) :
    AiContiguous { db with aiMessages := db.aiMessages ++ rows } := by
  intro id
  have happ : sessionAiMessages { db with aiMessages := db.aiMessages ++ rows } id =
      db.sessionAiMessages id ++ rows.filter (·.sessionId = id) := by
    simp [sessionAiMessages]
  rw [happ]
  by_cases hid : sessionId = id
  · subst hid
    have hall : rows.filter (·.sessionId = sessionId) = rows :=
      filter_eq_self.2 fun r hr => by simpa using hrows r hr
    rw [hall, map_append, h sessionId, hpos, length_append, range_eq_range', range_eq_range']
    simpa using List.range'_append_1 (s := 0) (m := (db.sessionAiMessages sessionId).length)
      (n := rows.length)
  · have hnone : rows.filter (·.sessionId = id) = [] :=
      filter_eq_nil_iff.2 fun r hr => by simpa [hrows r hr] using hid
    rw [hnone, append_nil]
    exact h id

theorem applyMutation_ai (h : AiContiguous db) (ha : applyMutation db body = .ok db') :
    AiContiguous db' := by
  have hsame := (applyMutation_untouched ha).ai_messages
  cases body with
  | removeSession sessionId =>
    rw [(removeSession_ok ha).2]
    exact h.drop (fun id => !(purgedBy db sessionId).contains id) rfl
  | appendAiMessages sessionId payload =>
    obtain ⟨rows, hrows, hpos, rfl⟩ := appendAiMessages_ok ha
    exact h.append hrows hpos
  | clearAiMessages sessionId =>
    rw [clearAiMessages_ok ha]
    exact h.drop (fun id => decide (id ≠ sessionId)) rfl
  | _ => exact h.keep (hsame rfl)

/-! ## Waveform samples -/

variable {id : String}

theorem hasWaveformChannel_iff {channelIndex : UInt8} :
    db.hasWaveformChannel id channelIndex ↔
      ∃ c ∈ db.waveformChannels, c.sessionId = id ∧ c.channelIndex = channelIndex := by
  simp [hasWaveformChannel]

section

variable (h : SamplesSound db log)
include h

theorem SamplesSound.keep (hs : db'.waveformSamples = db.waveformSamples)
    (hc : db'.waveformChannels = db.waveformChannels) : SamplesSound db' log where
  have_channel r hr := by
    unfold hasWaveformChannel
    rw [hc]
    exact h.have_channel r (hs ▸ hr)
  retained id := by
    unfold sessionSamples
    rw [hs]
    exact h.retained id

/-- The purge of an archived session takes its channels and its samples along. -/
theorem SamplesSound.purge (keep : String → Bool)
    (hs : db'.waveformSamples = db.waveformSamples.filter fun r => keep r.sessionId)
    (hc : db'.waveformChannels = db.waveformChannels.filter fun r => keep r.sessionId) :
    SamplesSound db' fun id => if keep id then log id else [] where
  have_channel r hr := by
    rw [hs, mem_filter] at hr
    obtain ⟨c, hmem, hid, hindex⟩ := hasWaveformChannel_iff.1 (h.have_channel r hr.1)
    refine hasWaveformChannel_iff.2 ⟨c, ?_, hid, hindex⟩
    rw [hc, mem_filter]
    exact ⟨hmem, hid ▸ hr.2⟩
  retained id := by
    have hid : db'.sessionSamples id = if keep id then db.sessionSamples id else [] := by
      unfold sessionSamples
      rw [hs]
      exact filter_session WaveformSampleRow.sessionId keep _ id
    rw [hid, h.retained id]
    by_cases hk : keep id
    · rw [if_pos hk, if_pos hk]
    · rw [if_neg hk, if_neg hk]
      rfl

/-- Each sample goes with its channel, so a session that gets new channels has no samples. -/
theorem SamplesSound.deleteChannels (sessionId : String) :
    (db.deleteWaveformChannels sessionId).waveformSamples =
      db.waveformSamples.filter fun r => decide (r.sessionId ≠ sessionId) := by
  apply filter_congr
  intro r hr
  by_cases hid : r.sessionId = sessionId
  · obtain ⟨c, hmem, hc, hindex⟩ := hasWaveformChannel_iff.1 (h.have_channel r hr)
    have hany : (db.waveformChannels.any fun c => c.sessionId = sessionId &&
        c.sessionId = r.sessionId && c.channelIndex = r.channelIndex) = true :=
      any_eq_true.2 ⟨c, hmem, by simp [hc, hid, hindex]⟩
    rw [hany]
    simp [hid]
  · have hany : (db.waveformChannels.any fun c => c.sessionId = sessionId &&
        c.sessionId = r.sessionId && c.channelIndex = r.channelIndex) = false := by
      rw [any_eq_false]
      intro c _ hc
      simp only [Bool.and_eq_true, decide_eq_true_eq] at hc
      exact hid (hc.1.2 ▸ hc.1.1)
    rw [hany]
    simp [hid]

theorem SamplesSound.remove (hr : removeSession db sessionId = .ok db') :
    SamplesSound db' fun id => if (purgedBy db sessionId).contains id then [] else log id := by
  have he := (removeSession_ok hr).2
  have hp := h.purge (fun id => !(purgedBy db sessionId).contains id)
    (congrArg waveformSamples he) (congrArg waveformChannels he)
  refine ⟨hp.have_channel, fun id => (hp.retained id).trans ?_⟩
  by_cases hid : (purgedBy db sessionId).contains id
  · simp only [hid, Bool.not_true, if_true, Bool.false_eq_true, if_false]
  · simp only [hid, Bool.not_false, if_true, Bool.false_eq_true, if_false]

theorem SamplesSound.replace {payload : WorkspaceWaveformChannelsPayload Json}
    (hr : replaceWaveformChannels db sessionId payload = .ok db') :
    SamplesSound db' (update log sessionId []) := by
  obtain ⟨rows, rfl⟩ := replaceWaveformChannels_ok hr
  have hs := h.deleteChannels sessionId
  refine ⟨?_, ?_⟩
  · intro r hr
    simp only [hs, mem_filter, decide_eq_true_eq] at hr
    obtain ⟨c, hmem, hid, hindex⟩ := hasWaveformChannel_iff.1 (h.have_channel r hr.1)
    refine hasWaveformChannel_iff.2 ⟨c, mem_append_left _ ?_, hid, hindex⟩
    exact mem_filter.2 ⟨hmem, by simpa [hid] using hr.2⟩
  · intro id
    simp only [sessionSamples, hs]
    rw [filter_session WaveformSampleRow.sessionId (fun id => decide (id ≠ sessionId))]
    by_cases hid : id = sessionId
    · subst hid
      simp [retainedSamples, retention.retain]
    · rw [update_of_ne hid]
      simpa [hid, sessionSamples] using h.retained id

end

theorem sessionSamples_deleteOld_self (db : Database) (id : String) (limit : Nat) :
    (db.deleteOldWaveformSamples id limit).sessionSamples id =
      retention.retain limit WaveformSampleRow.seq (db.sessionSamples id) := by
  have hsame : ∀ seqs : List Nat,
      (db.waveformSamples.filter fun r => !(r.sessionId = id && !seqs.contains r.seq)).filter
        (fun r => decide (r.sessionId = id)) =
      (db.waveformSamples.filter fun r => decide (r.sessionId = id)).filter
        (fun r => decide (r.seq ∈ seqs)) := by
    intro seqs
    rw [filter_filter, filter_filter]
    apply filter_congr
    intro r _
    by_cases hr : r.sessionId = id
    · simp [hr]
    · simp [hr]
  exact hsame _

theorem sessionSamples_deleteOld_of_ne (db : Database) (hid : id ≠ sessionId) (limit : Nat) :
    (db.deleteOldWaveformSamples sessionId limit).sessionSamples id = db.sessionSamples id := by
  simp only [sessionSamples, deleteOldWaveformSamples, filter_filter]
  apply filter_congr
  intro r _
  by_cases hr : r.sessionId = id
  · simp [hr, hid]
  · simp [hr]

/-- The pruning behind an append keeps what one pruning of everything sent would keep. -/
theorem SamplesSound.append (h : SamplesSound db log)
    {payload : WorkspaceWaveformSamplesPayload F64}
    (ha : appendWaveformSamples db sessionId payload = .ok db') :
    SamplesSound db' (update log sessionId
      (log sessionId ++ payload.samples.map (sampleRow sessionId))) := by
  obtain ⟨hchannels, rfl⟩ := appendWaveformSamples_ok ha
  have hrows : ∀ r ∈ payload.samples.map (sampleRow sessionId), r.sessionId = sessionId := by
    intro r hr
    obtain ⟨sample, _, rfl⟩ := mem_map.1 hr
    rfl
  refine ⟨?_, ?_⟩
  · intro r hr
    rcases mem_append.1 (mem_of_mem_filter hr) with hold | hnew
    · exact h.have_channel r hold
    · obtain ⟨sample, hmem, rfl⟩ := mem_map.1 hnew
      exact hchannels sample hmem
  · intro id
    by_cases hid : id = sessionId
    · subst hid
      have hnew : (payload.samples.map (sampleRow id)).filter (·.sessionId = id) =
          payload.samples.map (sampleRow id) :=
        filter_eq_self.2 fun r hr => by simpa using hrows r hr
      have hsession : sessionSamples
          { db with waveformSamples :=
              db.waveformSamples ++ payload.samples.map (sampleRow id) } id =
          retainedSamples (log id) ++ payload.samples.map (sampleRow id) := by
        rw [← h.retained id]
        simp only [sessionSamples, filter_append, hnew]
      rw [update_self, sessionSamples_deleteOld_self, hsession]
      exact retention.retain_retain_append MAX_WAVEFORM_SAMPLE_GROUPS WaveformSampleRow.seq
        (log id) _
    · have hnone : (payload.samples.map (sampleRow sessionId)).filter (·.sessionId = id) = [] :=
        filter_eq_nil_iff.2 fun r hr => by simp [hrows r hr, Ne.symm hid]
      rw [update_of_ne hid, sessionSamples_deleteOld_of_ne _ hid, ← h.retained id]
      simp only [sessionSamples, filter_append, hnone, append_nil]

theorem applyMutation_samples (h : SamplesSound db log) (ha : applyMutation db body = .ok db') :
    SamplesSound db' (logMutation db log body) := by
  have hsame := (applyMutation_untouched ha).samples
  cases body with
  | removeSession sessionId => exact h.remove ha
  | replaceWaveformChannels sessionId payload => exact h.replace ha
  | appendWaveformSamples sessionId payload => exact h.append ha
  | _ => exact h.keep (hsame rfl).1 (hsame rfl).2

/-! ## The layout -/

/-- How deep `serde_json` reads: 128 levels, and no 129th. -/
def SERDE_JSON_DEPTH : Nat := 127

def layoutOf : MutationBody Json F64 → Option Json
  | .setMetadata payload => payload.layout
  | _ => none

/-- The stored layout is the text of a document that is not too deep to be read. -/
def LayoutReadable (db : Database) : Prop :=
  ∃ layout : Json, layout.depth ≤ SERDE_JSON_DEPTH ∧ db.workspaceMeta.layoutJson = layout.print

theorem applyMutation_layout (h : LayoutReadable db)
    (hlayout : ∀ layout ∈ layoutOf body, layout.depth ≤ SERDE_JSON_DEPTH)
    (ha : applyMutation db body = .ok db') : LayoutReadable db' := by
  have hsame := (applyMutation_untouched ha).metadata
  obtain ⟨stored, hstored, hprint⟩ := h
  cases body with
  | setMetadata payload =>
    obtain ⟨_, _, rfl⟩ := setMetadata_ok ha
    cases hl : payload.layout with
    | none => exact ⟨stored, hstored, by simpa [hl] using hprint⟩
    | some layout =>
      have hdepth : layout.depth ≤ SERDE_JSON_DEPTH := hlayout layout (by simp [layoutOf, hl])
      exact ⟨layout, hdepth, rfl⟩
  | _ => exact ⟨stored, hstored, (hsame rfl).2.trans hprint⟩

/-! ## Batches and runs -/

structure WorkspaceSound (db : Database) (log : SampleLog) : Prop where
  sessions : SessionsSound db
  ai_positions : AiContiguous db
  samples : SamplesSound db log
  limits : WithinLimits db
  layout : LayoutReadable db

/-- The samples after the mutations of a batch. -/
def logMutations : Database → SampleLog → List WorkspaceMutation → SampleLog
  | _, log, [] => log
  | db, log, mutation :: mutations =>
    match applyMutation db mutation.body with
    | .ok db' => logMutations db' (logMutation db log mutation.body) mutations
    | .error _ => log

/-- A call, with what it adds to the samples where it commits. -/
def logCall (hash : ApplyWorkspaceBatchRequest → List UInt8) (s : WorkspaceService × SampleLog)
    (call : Call) : WorkspaceService × SampleLog :=
  let next := callService hash s.1 call
  let committed := next.db.workspaceMeta.revision ≠ s.1.db.workspaceMeta.revision
  (next, if committed then logMutations s.1.db s.2 call.2.mutations else s.2)

/-- Everything sent to a new workspace that no later mutation took away. -/
def samplesSent (hash : ApplyWorkspaceBatchRequest → List UInt8) (service : WorkspaceService)
    (calls : List Call) : SampleLog :=
  (runs.run (logCall hash) (service, fun _ => []) calls).2

def LayoutsShallow (request : ApplyWorkspaceBatchRequest) : Prop :=
  ∀ mutation ∈ request.mutations, ∀ layout ∈ layoutOf mutation.body,
    layout.depth ≤ SERDE_JSON_DEPTH

theorem applyMutationList_sound {mutations : List WorkspaceMutation} (hsessions : SessionsSound db)
    (hai : AiContiguous db) (hsamples : SamplesSound db log) (hlayout : LayoutReadable db)
    (hshallow : ∀ mutation ∈ mutations, ∀ layout ∈ layoutOf mutation.body,
      layout.depth ≤ SERDE_JSON_DEPTH) (ha : applyMutationList db mutations = .ok db') :
    SessionsSound db' ∧ AiContiguous db' ∧ SamplesSound db' (logMutations db log mutations) ∧
      LayoutReadable db' := by
  induction mutations generalizing db log with
  | nil =>
    cases ha
    exact ⟨hsessions, hai, hsamples, hlayout⟩
  | cons mutation mutations ih =>
    obtain ⟨next, hm, hrest⟩ := bind_eq_ok.1 ha
    have hlog : logMutations db log (mutation :: mutations) =
        logMutations next (logMutation db log mutation.body) mutations := by
      rw [logMutations, hm]
    rw [hlog]
    exact ih (applyMutation_sessions hsessions hm) (applyMutation_ai hai hm)
      (applyMutation_samples hsamples hm)
      (applyMutation_layout hlayout (hshallow mutation mem_cons_self) hm)
      (fun other hother => hshallow other (mem_cons_of_mem _ hother)) hrest

variable {hash : ApplyWorkspaceBatchRequest → List UInt8}

/-- One committed batch; the stamp and the ledger touch nothing of it. -/
theorem Commits.sound {request : ApplyWorkspaceBatchRequest} (hc : Commits hash db request db')
    (h : WorkspaceSound db log) (hshallow : LayoutsShallow request) :
    WorkspaceSound db' (logMutations db log request.mutations) := by
  obtain ⟨applied, now, ha, rfl⟩ := hc.applied
  obtain ⟨hlist, hlimits⟩ := applyMutations_ok ha
  obtain ⟨hsessions, hai, hsamples, hlayout⟩ :=
    applyMutationList_sound h.sessions h.ai_positions h.samples h.layout hshallow hlist
  exact
    { sessions := hsessions.keep rfl rfl
      ai_positions := hai.keep rfl
      samples := hsamples.keep rfl rfl
      limits := ⟨hlimits.sessions, hlimits.frames, hlimits.frames_per_session,
        hlimits.capture_bytes, hlimits.ai_messages, hlimits.ai_message_bytes, hlimits.ai_bytes,
        hlimits.plugin_state_bytes⟩
      layout := hlayout }

theorem logCall_sound {s : WorkspaceService × SampleLog} {call : Call}
    (h : WorkspaceSound s.1.db s.2) (hshallow : LayoutsShallow call.2) :
    WorkspaceSound (logCall hash s call).1.db (logCall hash s call).2 := by
  have hends := applyBatch_ends hash call.1 s.1 call.2
  unfold logCall callService
  generalize applyBatch hash call.1 s.1 call.2 = outcome at hends
  obtain ⟨result, next⟩ := outcome
  cases hends with
  | refused error => simpa using h
  | known row found same => simpa using h
  | committed service' mode commits =>
    have hrevision : next.db.workspaceMeta.revision ≠ s.1.db.workspaceMeta.revision := by
      rw [commits.revision]
      omega
    simp only [hrevision, ne_eq, not_false_eq_true, if_true]
    exact commits.sound h hshallow

/-- A new workspace has a layout, and nothing else. -/
theorem createWorkspace_sound {request : CreateWorkspaceRequest} {service : WorkspaceService}
    (h : createWorkspace request = .ok service) :
    WorkspaceSound service.db fun _ => [] := by
  obtain ⟨createdAtMs, hdb, _⟩ := createWorkspace_ok h
  rw [hdb]
  exact
    { sessions := ⟨nodup_nil, zero_le 1, fun id hid => (Option.some_ne_none id hid.symm).elim⟩
      ai_positions id := rfl
      samples := ⟨fun _ hr => (not_mem_nil hr).elim, fun id => rfl⟩
      limits := ⟨zero_le _, zero_le _, zero_le _, zero_le _, zero_le _,
        zero_le _, zero_le _, zero_le _⟩
      layout := ⟨.object [], by decide, rfl⟩ }

theorem logCall_fst (hash : ApplyWorkspaceBatchRequest → List UInt8) (service : WorkspaceService)
    (log : SampleLog) (calls : List Call) :
    (runs.run (logCall hash) (service, log) calls).1 = afterCalls hash service calls := by
  induction calls generalizing service log with
  | nil => rfl
  | cons call calls ih => exact ih (callService hash service call) _

/-! ## The header -/

theorem mem_sessionIds (h : db.hasLiveSession id) :
    id ∈ (db.liveSessions.mergeSort sessionOrder).map SessionRow.id := by
  obtain ⟨s, hs, rfl, hlive⟩ := hasLiveSession_iff.1 h
  apply mem_map_of_mem
  rw [mem_mergeSort]
  exact mem_filter.2 ⟨hs, by simp [hlive]⟩

theorem readHeader_ok {fromStr : List Char → Option Json}
    (hfromStr : ∀ j : Json, j.depth ≤ SERDE_JSON_DEPTH → (fromStr j.print).isSome)
    (h : WorkspaceSound db log) : ∃ header, readHeader fromStr db = .ok header := by
  obtain ⟨layout, hdepth, hprint⟩ := h.layout
  obtain ⟨document, hdocument⟩ := Option.isSome_iff_exists.1 (hfromStr layout hdepth)
  have hactive : db.workspaceMeta.activeSessionId.any (fun id =>
      !((db.liveSessions.mergeSort sessionOrder).map SessionRow.id).contains id) = false := by
    cases ha : db.workspaceMeta.activeSessionId with
    | none => rfl
    | some id =>
      have hmem := mem_sessionIds (h.sessions.active_live id ha)
      simpa using hmem
  unfold readHeader
  rw [hprint, hdocument]
  simp only [hactive, Bool.false_eq_true, if_false]
  exact ⟨_, rfl⟩

/-- Every committed state of a workspace is sound, and its header reads. -/
theorem workspace_sound_in_every_run (hash : ApplyWorkspaceBatchRequest → List UInt8)
    (fromStr : List Char → Option Json)
    (hfromStr : ∀ j : Json, j.depth ≤ SERDE_JSON_DEPTH → (fromStr j.print).isSome)
    {request : CreateWorkspaceRequest} {service : WorkspaceService}
    (hcreate : createWorkspace request = .ok service) (calls : List Call)
    (hcalls : ∀ call ∈ calls, LayoutsShallow call.2) :
    WorkspaceSound (afterCalls hash service calls).db (samplesSent hash service calls) ∧
      (∀ id, (((afterCalls hash service calls).db.sessionSamples id).map
        WaveformSampleRow.seq).toFinset.card ≤ MAX_WAVEFORM_SAMPLE_GROUPS) ∧
      ∃ header, readHeader fromStr (afterCalls hash service calls).db = .ok header := by
  have h : WorkspaceSound (afterCalls hash service calls).db (samplesSent hash service calls) := by
    rw [← logCall_fst hash service fun _ => []]
    exact @runs.run_invariant_of_mem _ _ (logCall hash)
      (fun s : WorkspaceService × SampleLog => WorkspaceSound s.1.db s.2) calls _
      (fun s call hcall hs => logCall_sound hs (hcalls call hcall)) (createWorkspace_sound hcreate)
  refine ⟨h, ?_, readHeader_ok hfromStr h⟩
  intro id
  rw [h.samples.retained id]
  exact retention.card_retain _ _ _

/-- A machine on which nothing fails. -/
def quietSurroundings : Surroundings where
  beginFault := none
  writeFault := none
  now := .ok 0
  projectedSize := 0
  physicalSize := .ok 0
  rollbackFault := none
  truncateFault := none
  commitFault := none
  checkpointOk := true
  finalSize := .ok 0

def newWorkspace : WorkspaceService where
  db := { workspaceMeta := ⟨"w", "w", 0, 0, 0, none, emptyObject⟩ }
  readOnly := false
  saveHealth := .clean

/-- A batch that adds a session and shows it. -/
def firstSession : ApplyWorkspaceBatchRequest where
  workspaceId := "w"
  clientBatchId := "b"
  baseRevision := 0
  mutations :=
    [⟨0, .upsertSession "s" ⟨"s", 0, .live, none, .object [], .object []⟩⟩,
      ⟨1, .setActiveSession (some "s")⟩]

def oneAndAHalf : F64 := .finite ⟨['1', '.', '5'], by decide, by simp; decide +kernel⟩

/-- A session with a gap between its two frames, a message and two samples. -/
def recordedSession : ApplyWorkspaceBatchRequest where
  workspaceId := "w"
  clientBatchId := "b"
  baseRevision := 0
  mutations :=
    [⟨0, .upsertSession "s" ⟨"s", 0, .live, none, .object [], .object []⟩⟩,
      ⟨1, .appendFrames "s" ⟨7, [⟨"f7", .rx, 1, [1], none, none, none, none⟩]⟩⟩,
      ⟨2, .appendFrames "s" ⟨3, [⟨"f3", .tx, 2, [2], none, none, none, none⟩]⟩⟩,
      ⟨3, .appendAiMessages "s" ⟨0, [⟨"m", .user, "?", 4⟩]⟩⟩,
      ⟨4, .replaceWaveformChannels "s" ⟨[⟨1, .object []⟩, ⟨0, .object []⟩]⟩⟩,
      ⟨5, .appendWaveformSamples "s" ⟨[⟨1, 7, 5, oneAndAHalf⟩, ⟨0, 7, 5, oneAndAHalf⟩]⟩⟩]

/-- Another session comes in, and is shown. -/
def twoSessions : List Call :=
  [(quietSurroundings, recordedSession), (quietSurroundings,
    { workspaceId := "w"
      clientBatchId := "c"
      baseRevision := 1
      mutations := [⟨0, .upsertSession "t" ⟨"t", 1, .live, none, .object [], .object []⟩⟩,
        ⟨1, .setActiveSession (some "t")⟩] })]

theorem workspace_sound_with_two_sessions :
    createWorkspace ⟨"w", "w", 0⟩ = .ok newWorkspace ∧
      (afterCalls (fun _ => []) newWorkspace twoSessions).db.workspaceMeta.activeSessionId =
        some "t" ∧
      ((afterCalls (fun _ => []) newWorkspace twoSessions).db.sessionSamples "s").length = 2 ∧
      ∃ header, readHeader (fun _ => some (.object []))
        (afterCalls (fun _ => []) newWorkspace twoSessions).db = .ok header := by
  have hcreate : createWorkspace ⟨"w", "w", 0⟩ = .ok newWorkspace := rfl
  refine ⟨hcreate, by decide +kernel, by decide +kernel, ?_⟩
  exact (workspace_sound_in_every_run (fun _ => []) (fun _ => some (.object []))
    (fun _ _ => rfl) hcreate twoSessions
    (by simp [LayoutsShallow, twoSessions, recordedSession, layoutOf])).2.2

end bbcom.workspace
