-- What each mutation does to the tables, once: the session that it asks for, the tables that
-- it writes, and the rows that it puts there. The invariants are read off these facts.
import Bbcom.WorkspaceMutation

open bbcom.js bbcom.json bbcom.contracts

namespace bbcom.workspace

open Database List

/-! ## Validations -/

variable {u : Unit}

theorem ensureLimit_ok {field : String} {actual limit : Nat} :
    ensureLimit field actual limit = .ok u ↔ actual ≤ limit := by
  rw [ensureLimit, refuseIf_ok]
  omega

variable {db db' : Database} {sessionId : String} {row row' : WorkspaceMeta}

theorem ensureSessionExists_ok :
    ensureSessionExists db sessionId = .ok u ↔ db.hasLiveSession sessionId := by
  rw [ensureSessionExists, refuseIf_ok, not_not]

theorem hasLiveSession_iff :
    db.hasLiveSession sessionId ↔ ∃ s ∈ db.sessions, s.id = sessionId ∧ s.undoPending = false := by
  simp [hasLiveSession]

/-! ## Metadata and the active session -/

theorem setName_ok {name : Option String} (h : setName row name = .ok row') :
    row' = { row with name := row'.name } := by
  cases name with
  | none =>
    cases h
    rfl
  | some name =>
    replace h := passed h
    replace h := passed h
    cases h
    rfl

theorem setLayout_ok {layout : Option Json} (h : setLayout row layout = .ok row') :
    row' = { row with layoutJson := (layout.map Json.print).getD row.layoutJson } := by
  cases layout with
  | none =>
    cases h
    rfl
  | some layout =>
    replace h := passed h
    cases h
    rfl

theorem setUpdatedAt_ok {updatedAtMs : Option UInt64}
    (h : setUpdatedAt row updatedAtMs = .ok row') :
    row' = { row with updatedAtMs := row'.updatedAtMs } := by
  cases updatedAtMs with
  | none =>
    cases h
    rfl
  | some updatedAtMs =>
    obtain ⟨_, _, h⟩ := bind_eq_ok.1 h
    cases h
    rfl

/-- Only the name, the layout and the time change. -/
theorem setMetadata_ok {payload : WorkspaceMetadataPayload Json}
    (h : setMetadata db payload = .ok db') :
    ∃ name updatedAtMs, db' =
      { db with
        workspaceMeta :=
          { db.workspaceMeta with
            name, updatedAtMs
            layoutJson := (payload.layout.map Json.print).getD db.workspaceMeta.layoutJson } } := by
  obtain ⟨named, hn, h⟩ := bind_eq_ok.1 h
  obtain ⟨laidOut, hl, h⟩ := bind_eq_ok.1 h
  obtain ⟨stamped, hu, h⟩ := bind_eq_ok.1 h
  cases h
  refine ⟨named.name, stamped.updatedAtMs, ?_⟩
  rw [setUpdatedAt_ok hu, setLayout_ok hl, setName_ok hn]

theorem setActiveSession_ok {sessionId : Option String}
    (h : setActiveSession db sessionId = .ok db') :
    (∀ id ∈ sessionId, db.hasLiveSession id) ∧
      db' = { db with
        workspaceMeta := { db.workspaceMeta with activeSessionId := sessionId } } := by
  cases sessionId with
  | none =>
    cases h
    exact ⟨by simp, rfl⟩
  | some id =>
    replace h := passed h
    obtain ⟨_, hs, h⟩ := bind_eq_ok.1 h
    cases h
    exact ⟨by simpa using ensureSessionExists_ok.1 hs, rfl⟩

/-! ## Sessions -/

/-- An upsert writes one live row, and the rows of the session that were missing. -/
theorem upsertSession_ok {payload : WorkspaceSessionUpsertPayload Json}
    (h : upsertSession db sessionId payload = .ok db') :
    ∃ row : SessionRow, row.id = sessionId ∧ row.undoPending = false ∧ db' =
      { db with
        sessions := upsertSessionRow db row
        sessionPreferences := db'.sessionPreferences
        captureStats := db'.captureStats
        modbusConfig := db'.modbusConfig
        mcumgrConfig := db'.mcumgrConfig } := by
  replace h := passed h
  replace h := passed h
  replace h := passed h
  cases h
  exact ⟨_, rfl, rfl, rfl⟩

theorem markUndoPending_ok {changed : Nat} (h : markUndoPending db sessionId = .ok (db', changed)) :
    db'.sessions.countP (·.undoPending) ≤ 1 ∧ db' =
      { db with sessions := db.sessions.map fun s =>
          if s.id = sessionId && !s.undoPending then { s with undoPending := true } else s } := by
  unfold markUndoPending at h
  simp only at h
  split at h
  · cases h
  · rename_i hcount
    cases h
    exact ⟨Nat.not_lt.1 hcount, rfl⟩

/-- A removal purges the older archived session and archives the session in place. -/
theorem removeSession_ok (h : removeSession db sessionId = .ok db') :
    db'.sessions.countP (·.undoPending) ≤ 1 ∧ db' =
      { (db.deleteSessions fun s => s.undoPending && s.id ≠ sessionId).clearActive sessionId with
        sessions :=
          (db.deleteSessions fun s => s.undoPending && s.id ≠ sessionId).sessions.map fun s =>
            if s.id = sessionId && !s.undoPending then { s with undoPending := true } else s } := by
  replace h := passed h
  replace h := passed h
  obtain ⟨⟨archived, changed⟩, hm, h⟩ := bind_eq_ok.1 h
  replace h := passed h
  cases h
  exact markUndoPending_ok hm

/-! ## Frames -/

/-- The row that a frame is stored as. -/
def frameRow (sessionId : String) (seq : Nat) (frame : WorkspaceFramePayload) : FrameRow where
  sessionId
  seq
  id := frame.id
  direction := frame.direction
  timestampMs := frame.timestampMs.toNat
  data := frame.data
  txStatus := frame.txStatus
  requestedBytes := frame.requestedBytes.map UInt64.toNat
  omittedBytes := frame.omittedBytes.map UInt64.toNat

theorem optional_i64_ok {value : Option UInt64} {field : String} {stored : Option Nat}
    (h : (value.mapM fun n => i64OfNat n.toNat field) = .ok stored) :
    stored = value.map UInt64.toNat := by
  cases value with
  | none =>
    cases h
    rfl
  | some n =>
    obtain ⟨m, hm, hs⟩ := map_eq_ok.1 h
    rw [← hs, (i64OfNat_ok.1 hm).2]
    rfl

theorem executeFrameInsert_ok {seq : Nat} {frame : WorkspaceFramePayload}
    (h : executeFrameInsert db sessionId seq frame = .ok db') :
    db' = { db with frames := db.frames ++ [frameRow sessionId seq frame] } := by
  replace h := passed h
  obtain ⟨timestampMs, ht, h⟩ := bind_eq_ok.1 h
  obtain ⟨requestedBytes, hr, h⟩ := bind_eq_ok.1 h
  obtain ⟨omittedBytes, ho, h⟩ := bind_eq_ok.1 h
  rw [(i64OfNat_ok.1 ht).2, optional_i64_ok hr, optional_i64_ok ho] at h
  unfold insertFrame at h
  split at h
  · cases h
  · cases h
    rfl

theorem insertFrames_ok {frames : List WorkspaceFramePayload} {seq : Nat}
    (h : insertFrames sessionId seq db frames = .ok db') :
    db' = { db with
      frames := db.frames ++ frames.mapIdx fun i frame => frameRow sessionId (seq + i) frame } := by
  induction frames generalizing seq db with
  | nil =>
    cases h
    simp
  | cons frame frames ih =>
    replace h := passed h
    obtain ⟨seq', hs, h⟩ := bind_eq_ok.1 h
    obtain ⟨next, hf, hrest⟩ := bind_eq_ok.1 h
    obtain ⟨_, rfl⟩ := i64OfNat_ok.1 hs
    rw [ih hrest, executeFrameInsert_ok hf]
    simp [mapIdx_cons, Nat.add_comm, Nat.add_left_comm]

theorem appendFrames_ok {payload : WorkspaceAppendFramesPayload}
    (h : appendFrames db sessionId payload = .ok db') : db' = { db with frames := db'.frames } := by
  replace h := passed h
  replace h := passed h
  replace h := passed h
  rw [insertFrames_ok h]

theorem replaceCapture_ok {payload : WorkspaceReplaceCapturePayload}
    (h : replaceCapture db sessionId payload = .ok db') :
    db' = { db with frames := db'.frames } := by
  replace h := passed h
  replace h := passed h
  rw [insertFrames_ok h]
  rfl

theorem trimCapture_ok {frameCount : UInt32} (h : trimCapture db sessionId frameCount = .ok db') :
    db' = { db with frames := db'.frames } := by
  replace h := passed h
  replace h := passed h
  replace h := passed h
  cases h
  rfl

/-! ## Features and collections -/

theorem upsertFeatureState_ok {entityId : String} {payload : WorkspaceFeatureStatePayload Json}
    (h : upsertFeatureState db entityId payload = .ok db') :
    db' = { db with
      sessionPreferences := db'.sessionPreferences
      modbusConfig := db'.modbusConfig
      mcumgrConfig := db'.mcumgrConfig
      pluginBindings := db'.pluginBindings
      pluginProjectState := db'.pluginProjectState } := by
  replace h := passed h
  replace h := passed h
  by_cases hp : payload.feature = .plugin
  · rw [if_pos hp] at h
    replace h := passed h
    cases h
    rfl
  · rw [if_neg hp] at h
    replace h := passed h
    cases h
    cases payload.feature <;> rfl

theorem replaceSessionCollections_ok {payload : WorkspaceSessionCollectionsPayload Json}
    (h : replaceSessionCollections db sessionId payload = .ok db') :
    db' = { db with
      sendHistory := db'.sendHistory
      quickCommands := db'.quickCommands
      macros := db'.macros
      macroSteps := db'.macroSteps
      triggers := db'.triggers
      highlights := db'.highlights
      modbusRegisters := db'.modbusRegisters } := by
  replace h := passed h
  replace h := passed h
  replace h := passed h
  cases h
  rfl

/-! ## AI messages -/

theorem insertAiMessages_ok {messages : List WorkspaceAiMessage} {position : Nat}
    (h : insertAiMessages sessionId position db messages = .ok db') :
    ∃ rows : List AiMessageRow, (∀ r ∈ rows, r.sessionId = sessionId) ∧
      rows.map AiMessageRow.position = range' position rows.length ∧
      db' = { db with aiMessages := db.aiMessages ++ rows } := by
  induction messages generalizing position db with
  | nil =>
    cases h
    exact ⟨[], by simp, rfl, by simp⟩
  | cons message messages ih =>
    obtain ⟨timestampMs, _, h⟩ := bind_eq_ok.1 h
    obtain ⟨next, hi, h⟩ := bind_eq_ok.1 h
    unfold insertAiMessage at hi
    split at hi
    · cases hi
    · cases hi
      obtain ⟨rows, hid, hpos, rfl⟩ := ih h
      refine ⟨⟨sessionId, position, message.id, message.role, message.content, timestampMs⟩ :: rows,
        ?_, ?_, ?_⟩
      · simpa using hid
      · simp [hpos, range'_succ]
      · simp

/-- New messages continue the positions of the session. -/
theorem appendAiMessages_ok {payload : WorkspaceAiMessagesPayload}
    (h : appendAiMessages db sessionId payload = .ok db') :
    ∃ rows : List AiMessageRow, (∀ r ∈ rows, r.sessionId = sessionId) ∧
      rows.map AiMessageRow.position =
        range' (db.sessionAiMessages sessionId).length rows.length ∧
      db' = { db with aiMessages := db.aiMessages ++ rows } := by
  replace h := passed h
  replace h := passed h
  obtain ⟨_, hp, h⟩ := bind_eq_ok.1 h
  rw [refuseIf_ok, not_not] at hp
  rw [hp]
  exact insertAiMessages_ok h

theorem clearAiMessages_ok (h : clearAiMessages db sessionId = .ok db') :
    db' = { db with aiMessages := db.aiMessages.filter (·.sessionId ≠ sessionId) } := by
  replace h := passed h
  replace h := passed h
  cases h
  rfl

/-! ## Waveforms -/

theorem insertWaveformChannels_ok {channels : List (WorkspaceWaveformChannel Json)}
    (h : insertWaveformChannels sessionId db channels = .ok db') :
    ∃ rows : List WaveformChannelRow,
      db' = { db with waveformChannels := db.waveformChannels ++ rows } := by
  induction channels generalizing db with
  | nil =>
    cases h
    exact ⟨[], by simp⟩
  | cons channel channels ih =>
    obtain ⟨next, hi, h⟩ := bind_eq_ok.1 h
    unfold insertWaveformChannel at hi
    split at hi
    · cases hi
    · cases hi
      obtain ⟨rows, rfl⟩ := ih h
      exact ⟨⟨sessionId, channel.channelIndex, channel.config.print⟩ :: rows, by simp⟩

/-- The samples of a session go with its channels. -/
theorem replaceWaveformChannels_ok {payload : WorkspaceWaveformChannelsPayload Json}
    (h : replaceWaveformChannels db sessionId payload = .ok db') :
    ∃ rows : List WaveformChannelRow, db' =
      { db.deleteWaveformChannels sessionId with
        waveformChannels := (db.deleteWaveformChannels sessionId).waveformChannels ++ rows } := by
  replace h := passed h
  replace h := passed h
  replace h := passed h
  exact insertWaveformChannels_ok h

/-- The rows that the samples of a payload are stored as. -/
def sampleRow (sessionId : String) (sample : WorkspaceWaveformSample F64) : WaveformSampleRow :=
  ⟨sessionId, sample.channelIndex, sample.seq.toNat, sample.timestampMs.toNat, sample.value⟩

theorem insertWaveformSamples_ok {samples : List (WorkspaceWaveformSample F64)}
    (h : insertWaveformSamples sessionId db samples = .ok db') :
    (∀ sample ∈ samples, db.hasWaveformChannel sessionId sample.channelIndex) ∧
      db' = { db with
        waveformSamples := db.waveformSamples ++ samples.map (sampleRow sessionId) } := by
  induction samples generalizing db with
  | nil =>
    cases h
    exact ⟨by simp, by simp⟩
  | cons sample samples ih =>
    obtain ⟨_, hc, h⟩ := bind_eq_ok.1 h
    obtain ⟨seq, hs, h⟩ := bind_eq_ok.1 h
    obtain ⟨timestampMs, ht, h⟩ := bind_eq_ok.1 h
    obtain ⟨next, hi, h⟩ := bind_eq_ok.1 h
    rw [refuseIf_ok, not_not] at hc
    rw [(i64OfNat_ok.1 hs).2, (i64OfNat_ok.1 ht).2] at hi
    unfold insertWaveformSample at hi
    split at hi
    · cases hi
    · cases hi
      obtain ⟨hrest, rfl⟩ := ih h
      refine ⟨?_, by simp [sampleRow]⟩
      intro other hother
      rcases mem_cons.1 hother with rfl | hother
      · exact hc
      · exact hrest other hother

theorem appendWaveformSamples_ok {payload : WorkspaceWaveformSamplesPayload F64}
    (h : appendWaveformSamples db sessionId payload = .ok db') :
    (∀ sample ∈ payload.samples, db.hasWaveformChannel sessionId sample.channelIndex) ∧
      db' = deleteOldWaveformSamples
        { db with
          waveformSamples := db.waveformSamples ++ payload.samples.map (sampleRow sessionId) }
        sessionId MAX_WAVEFORM_SAMPLE_GROUPS := by
  replace h := passed h
  replace h := passed h
  replace h := passed h
  obtain ⟨appended, hi, h⟩ := bind_eq_ok.1 h
  obtain ⟨hc, rfl⟩ := insertWaveformSamples_ok hi
  cases h
  exact ⟨hc, rfl⟩

/-! ## The limits -/

structure WithinLimits (db : Database) : Prop where
  sessions : db.liveSessions.length ≤ MAX_WORKSPACE_SESSIONS
  frames : db.liveFrames.length ≤ MAX_WORKSPACE_FRAMES
  frames_per_session : db.framesPerSession ≤ MAX_WORKSPACE_FRAMES_PER_SESSION
  capture_bytes : (db.liveFrames.map (·.data.length)).sum ≤ MAX_WORKSPACE_CAPTURE_BYTES
  ai_messages : db.liveAiMessages.length ≤ MAX_WORKSPACE_AI_MESSAGES
  ai_message_bytes : (db.liveAiMessages.map (byteLength ·.content)).foldr max 0 ≤
    MAX_WORKSPACE_AI_MESSAGE_BYTES
  ai_bytes : (db.liveAiMessages.map (byteLength ·.content)).sum ≤ MAX_WORKSPACE_AI_BYTES
  plugin_state_bytes : (db.pluginProjectState.map (bytes ·.state)).sum ≤
    MAX_WORKSPACE_PLUGIN_STATE_BYTES

theorem validateWorkspaceLimits_ok (h : validateWorkspaceLimits db = .ok u) :
    WithinLimits db := by
  obtain ⟨_, h1, h⟩ := bind_eq_ok.1 h
  obtain ⟨_, h2, h⟩ := bind_eq_ok.1 h
  obtain ⟨_, h3, h⟩ := bind_eq_ok.1 h
  obtain ⟨_, h4, h⟩ := bind_eq_ok.1 h
  obtain ⟨_, h5, h⟩ := bind_eq_ok.1 h
  obtain ⟨_, h6, h⟩ := bind_eq_ok.1 h
  obtain ⟨_, h7, h8⟩ := bind_eq_ok.1 h
  exact
    { sessions := ensureLimit_ok.1 h1
      frames := ensureLimit_ok.1 h2
      frames_per_session := ensureLimit_ok.1 h3
      capture_bytes := ensureLimit_ok.1 h4
      ai_messages := ensureLimit_ok.1 h5
      ai_message_bytes := ensureLimit_ok.1 h6
      ai_bytes := ensureLimit_ok.1 h7
      plugin_state_bytes := ensureLimit_ok.1 h8 }

theorem applyMutations_ok {request : ApplyWorkspaceBatchRequest}
    (h : applyMutations db request = .ok db') :
    applyMutationList db request.mutations = .ok db' ∧ WithinLimits db' := by
  obtain ⟨applied, ha, h⟩ := bind_eq_ok.1 h
  obtain ⟨_, hl, h⟩ := bind_eq_ok.1 h
  cases h
  exact ⟨ha, validateWorkspaceLimits_ok hl⟩

end bbcom.workspace
