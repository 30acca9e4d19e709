-- What the rows of a stored workspace are like, table by table: keys that are distinct, sizes
-- within the limits of a mutation, documents that read back. Every mutation keeps it.
import Bbcom.WorkspaceInvariant

open bbcom.js bbcom.json bbcom.contracts

namespace bbcom.workspace

open List WaveformSampleRow Database

/-! ## The tables -/

def SessionsStored (rows : List SessionRow) : Prop :=
  ∀ s ∈ rows, validateIdentifier s.id "sessionId" = .ok ()

/-- The primary key of `frames`. -/
def FrameRow.key (row : FrameRow) : String × Nat := (row.sessionId, row.seq)

structure FramesStored (rows : List FrameRow) : Prop where
  keys_distinct : (rows.map FrameRow.key).Nodup
  sizes : ∀ r ∈ rows, r.data.length ≤ MAX_WORKSPACE_FRAME_BYTES
  sequences : ∀ r ∈ rows, r.seq < 2 ^ 63

def AiStored (rows : List AiMessageRow) : Prop := ∀ r ∈ rows, r.timestampMs < 2 ^ 63

/-- A configuration that was checked before it was stored, and that is not too deep to be read. -/
def ReadableConfig (text : List Char) : Prop :=
  ∃ config : Json, config.depth ≤ SERDE_JSON_DEPTH ∧ hasForbiddenKeys config = false ∧
    text = config.print

structure ChannelsStored (rows : List WaveformChannelRow) : Prop where
  indices : ∀ r ∈ rows, r.channelIndex ≤ 7
  configs : ∀ r ∈ rows, ReadableConfig r.configJson

/-- The primary key of `waveform_samples`. -/
def WaveformSampleRow.key (row : WaveformSampleRow) : String × UInt8 × Nat :=
  (row.sessionId, row.channelIndex, row.seq)

structure SamplesStored (rows : List WaveformSampleRow) : Prop where
  keys_distinct : (rows.map key).Nodup
  finite : ∀ r ∈ rows, r.value.isFinite
  numbers : ∀ r ∈ rows, r.seq < 2 ^ 63 ∧ r.timestampMs < 2 ^ 63

structure RowsStored (db : Database) : Prop where
  sessions : SessionsStored db.sessions
  frames : FramesStored db.frames
  ai_messages : AiStored db.aiMessages
  channels : ChannelsStored db.waveformChannels
  samples : SamplesStored db.waveformSamples

/-! ## Sessions -/

variable {db db' : Database} {sessionId : String}

theorem SessionsStored.upsert (h : SessionsStored db.sessions) {row : SessionRow}
    (hrow : validateIdentifier row.id "sessionId" = .ok ()) :
    SessionsStored (upsertSessionRow db row) := by
  intro s hs
  unfold upsertSessionRow at hs
  split at hs
  · obtain ⟨old, hold, rfl⟩ := mem_map.1 hs
    by_cases hid : old.id = row.id
    · simpa [hid] using hrow
    · simpa [hid] using h old hold
  · rcases mem_append.1 hs with hold | hnew
    · exact h s hold
    · rw [mem_singleton.1 hnew]
      exact hrow

theorem SessionsStored.remove (h : SessionsStored db.sessions)
    (hr : removeSession db sessionId = .ok db') : SessionsStored db'.sessions := by
  rw [(removeSession_ok hr).2]
  intro s hs
  obtain ⟨old, hold, rfl⟩ := mem_map.1 hs
  have hid := h old (mem_of_mem_filter hold)
  split
  · exact hid
  · exact hid

/-! ## Frames -/

theorem FramesStored.sublist {rows rows' : List FrameRow} (h : FramesStored rows)
    (hsub : rows'.Sublist rows) : FramesStored rows' where
  keys_distinct := h.keys_distinct.sublist (hsub.map _)
  sizes r hr := h.sizes r (hsub.subset hr)
  sequences r hr := h.sequences r (hsub.subset hr)

section

variable (h : FramesStored db.frames)
include h

theorem FramesStored.insert {row : FrameRow} (hsize : row.data.length ≤ MAX_WORKSPACE_FRAME_BYTES)
    (hseq : row.seq < 2 ^ 63) (hi : db.insertFrame row = .ok db') : FramesStored db'.frames := by
  unfold insertFrame at hi
  split at hi
  · cases hi
  · rename_i hfree
    cases hi
    have hnew : row.key ∉ db.frames.map FrameRow.key := by
      intro hmem
      obtain ⟨r, hr, hkey⟩ := mem_map.1 hmem
      obtain ⟨hid, hseq⟩ := Prod.mk.inj hkey
      apply hfree
      exact any_eq_true.2 ⟨r, hr, by simp [hid, hseq]⟩
    refine ⟨?_, ?_, ?_⟩
    · rw [map_append, map_singleton, ← concat_eq_append]
      exact h.keys_distinct.concat hnew
    · intro r hr
      rcases mem_append.1 hr with hold | hadd
      · exact h.sizes r hold
      · rw [mem_singleton.1 hadd]
        exact hsize
    · intro r hr
      rcases mem_append.1 hr with hold | hadd
      · exact h.sequences r hold
      · rw [mem_singleton.1 hadd]
        exact hseq

theorem FramesStored.insertAll {frames : List WorkspaceFramePayload} {seq : Nat}
    (hi : insertFrames sessionId seq db frames = .ok db') : FramesStored db'.frames := by
  induction frames generalizing seq db with
  | nil =>
    cases hi
    exact h
  | cons frame frames ih =>
    replace hi := passed hi
    obtain ⟨seq', hs, hi⟩ := bind_eq_ok.1 hi
    obtain ⟨next, hf, hrest⟩ := bind_eq_ok.1 hi
    obtain ⟨hseq, rfl⟩ := i64OfNat_ok.1 hs
    apply ih _ hrest
    -- the insertion checks the size itself, whatever was checked in front of the batch
    obtain ⟨_, hsize, hf⟩ := bind_eq_ok.1 hf
    obtain ⟨timestampMs, _, hf⟩ := bind_eq_ok.1 hf
    obtain ⟨requestedBytes, _, hf⟩ := bind_eq_ok.1 hf
    obtain ⟨omittedBytes, _, hf⟩ := bind_eq_ok.1 hf
    rw [validateFramePayloadLimit, ensureLimit_ok] at hsize
    exact h.insert hsize hseq hf

theorem FramesStored.append {payload : WorkspaceAppendFramesPayload}
    (ha : appendFrames db sessionId payload = .ok db') : FramesStored db'.frames := by
  replace ha := passed ha
  replace ha := passed ha
  replace ha := passed ha
  exact h.insertAll ha

theorem FramesStored.replace {payload : WorkspaceReplaceCapturePayload}
    (ha : replaceCapture db sessionId payload = .ok db') : FramesStored db'.frames := by
  replace ha := passed ha
  replace ha := passed ha
  have hcleared : FramesStored (db.deleteFrames sessionId).frames := h.sublist filter_sublist
  exact hcleared.insertAll ha

theorem FramesStored.trim {frameCount : UInt32}
    (ha : trimCapture db sessionId frameCount = .ok db') : FramesStored db'.frames := by
  replace ha := passed ha
  replace ha := passed ha
  replace ha := passed ha
  cases ha
  exact h.sublist filter_sublist

end

/-! ## AI messages -/

theorem AiStored.insertAll {messages : List WorkspaceAiMessage} {position : Nat}
    (h : AiStored db.aiMessages) (hi : insertAiMessages sessionId position db messages = .ok db') :
    AiStored db'.aiMessages := by
  induction messages generalizing position db with
  | nil =>
    cases hi
    exact h
  | cons message messages ih =>
    obtain ⟨timestampMs, ht, hi⟩ := bind_eq_ok.1 hi
    obtain ⟨next, hn, hrest⟩ := bind_eq_ok.1 hi
    obtain ⟨hlt, rfl⟩ := i64OfNat_ok.1 ht
    apply ih _ hrest
    unfold insertAiMessage at hn
    split at hn
    · cases hn
    · cases hn
      intro r hr
      rcases mem_append.1 hr with hold | hnew
      · exact h r hold
      · rw [mem_singleton.1 hnew]
        exact hlt

theorem AiStored.append {payload : WorkspaceAiMessagesPayload} (h : AiStored db.aiMessages)
    (ha : appendAiMessages db sessionId payload = .ok db') : AiStored db'.aiMessages := by
  replace ha := passed ha
  replace ha := passed ha
  replace ha := passed ha
  exact h.insertAll ha

/-! ## Waveform channels -/

/-- What every round of a loop asks of its item holds of all items when the loop ends well. -/
theorem forIn_each {ε α β : Type} {body : α → β → Except ε (ForInStep β)} {P : α → Prop}
    (hbody : ∀ a b r, body a b = .ok r → P a ∧ ∃ b', r = .yield b') {items : List α} {b b' : β}
    (h : forIn items b body = .ok b') : ∀ a ∈ items, P a := by
  induction items generalizing b with
  | nil => simp
  | cons item items ih =>
    rw [forIn_cons] at h
    obtain ⟨r, hr, h⟩ := bind_eq_ok.1 h
    obtain ⟨hp, next, rfl⟩ := hbody item b r hr
    intro a ha
    rcases mem_cons.1 ha with rfl | ha
    · exact hp
    · exact ih h a ha

variable {payload : WorkspaceWaveformChannelsPayload Json}

theorem validateWaveformChannels_ok {u : Unit} (h : validateWaveformChannels payload = .ok u) :
    ∀ channel ∈ payload.channels,
      channel.channelIndex ≤ 7 ∧ hasForbiddenKeys channel.config = false := by
  replace h := passed h
  obtain ⟨_, h, _⟩ := bind_eq_ok.1 h
  refine forIn_each ?_ h
  intro channel seen r hr
  obtain ⟨_, hindex, hr⟩ := bind_eq_ok.1 hr
  obtain ⟨_, hconfig, hr⟩ := bind_eq_ok.1 hr
  cases hr
  have hopen := refuseIf_ok.1 hindex
  have hclean := refuseIf_ok.1 hconfig
  push Not at hopen
  exact ⟨⟨UInt8.not_lt.1 hopen.1, by simpa using hclean⟩, _, rfl⟩

theorem ChannelsStored.sublist {rows rows' : List WaveformChannelRow} (h : ChannelsStored rows)
    (hsub : rows'.Sublist rows) : ChannelsStored rows' where
  indices r hr := h.indices r (hsub.subset hr)
  configs r hr := h.configs r (hsub.subset hr)

theorem ChannelsStored.insertAll {channels : List (WorkspaceWaveformChannel Json)}
    (h : ChannelsStored db.waveformChannels) (hvalid : ∀ channel ∈ channels,
      channel.channelIndex ≤ 7 ∧ hasForbiddenKeys channel.config = false)
    (hdepth : ∀ channel ∈ channels, channel.config.depth ≤ SERDE_JSON_DEPTH)
    (hi : insertWaveformChannels sessionId db channels = .ok db') :
    ChannelsStored db'.waveformChannels := by
  induction channels generalizing db with
  | nil =>
    cases hi
    exact h
  | cons channel channels ih =>
    obtain ⟨next, hn, hrest⟩ := bind_eq_ok.1 hi
    obtain ⟨hindex, hclean⟩ := hvalid channel mem_cons_self
    refine ih ?_ (fun c hc => hvalid c (mem_cons_of_mem _ hc))
      (fun c hc => hdepth c (mem_cons_of_mem _ hc)) hrest
    unfold insertWaveformChannel at hn
    split at hn
    · cases hn
    · cases hn
      refine ⟨?_, ?_⟩
      · intro r hr
        rcases mem_append.1 hr with hold | hnew
        · exact h.indices r hold
        · rw [mem_singleton.1 hnew]
          exact hindex
      · intro r hr
        rcases mem_append.1 hr with hold | hnew
        · exact h.configs r hold
        · rw [mem_singleton.1 hnew]
          exact ⟨channel.config, hdepth channel mem_cons_self, hclean, rfl⟩

theorem ChannelsStored.replace (h : ChannelsStored db.waveformChannels)
    (hdepth : ∀ channel ∈ payload.channels, channel.config.depth ≤ SERDE_JSON_DEPTH)
    (ha : replaceWaveformChannels db sessionId payload = .ok db') :
    ChannelsStored db'.waveformChannels := by
  replace ha := passed ha
  replace ha := passed ha
  obtain ⟨_, hvalid, ha⟩ := bind_eq_ok.1 ha
  have hcleared : ChannelsStored (db.deleteWaveformChannels sessionId).waveformChannels :=
    h.sublist filter_sublist
  exact hcleared.insertAll (validateWaveformChannels_ok hvalid) hdepth ha

/-! ## Waveform samples -/

theorem validateWaveformSamples_ok {payload : WorkspaceWaveformSamplesPayload F64} {u : Unit}
    (h : validateWaveformSamples payload = .ok u) :
    ∀ sample ∈ payload.samples, sample.value.isFinite := by
  replace h := passed h
  obtain ⟨_, h, _⟩ := bind_eq_ok.1 h
  refine forIn_each ?_ h
  intro sample seen r hr
  obtain ⟨_, hfinite, hr⟩ := bind_eq_ok.1 hr
  obtain ⟨_, _, hr⟩ := bind_eq_ok.1 hr
  obtain ⟨_, _, hr⟩ := bind_eq_ok.1 hr
  cases hr
  have hopen := refuseIf_ok.1 hfinite
  push Not at hopen
  exact ⟨by simpa using hopen.2.1, _, rfl⟩

theorem SamplesStored.sublist {rows rows' : List WaveformSampleRow} (h : SamplesStored rows)
    (hsub : rows'.Sublist rows) : SamplesStored rows' where
  keys_distinct := h.keys_distinct.sublist (hsub.map _)
  finite r hr := h.finite r (hsub.subset hr)
  numbers r hr := h.numbers r (hsub.subset hr)

section

variable (h : SamplesStored db.waveformSamples)
include h

theorem SamplesStored.insert {row : WaveformSampleRow} (hfinite : row.value.isFinite)
    (hnumbers : row.seq < 2 ^ 63 ∧ row.timestampMs < 2 ^ 63)
    (hi : db.insertWaveformSample row = .ok db') : SamplesStored db'.waveformSamples := by
  unfold insertWaveformSample at hi
  split at hi
  · cases hi
  · rename_i hfree
    cases hi
    have hnew : row.key ∉ db.waveformSamples.map key := by
      intro hmem
      obtain ⟨r, hr, hkey⟩ := mem_map.1 hmem
      simp only [key, Prod.mk.injEq] at hkey
      apply hfree
      exact any_eq_true.2 ⟨r, hr, by simp [hkey.1, hkey.2.1, hkey.2.2]⟩
    refine ⟨?_, ?_, ?_⟩
    · rw [map_append, map_singleton, ← concat_eq_append]
      exact h.keys_distinct.concat hnew
    · intro r hr
      rcases mem_append.1 hr with hold | hadd
      · exact h.finite r hold
      · rw [mem_singleton.1 hadd]
        exact hfinite
    · intro r hr
      rcases mem_append.1 hr with hold | hadd
      · exact h.numbers r hold
      · rw [mem_singleton.1 hadd]
        exact hnumbers

theorem SamplesStored.insertAll {samples : List (WorkspaceWaveformSample F64)}
    (hfinite : ∀ sample ∈ samples, sample.value.isFinite)
    (hi : insertWaveformSamples sessionId db samples = .ok db') :
    SamplesStored db'.waveformSamples := by
  induction samples generalizing db with
  | nil =>
    cases hi
    exact h
  | cons sample samples ih =>
    replace hi := passed hi
    obtain ⟨seq, hs, hi⟩ := bind_eq_ok.1 hi
    obtain ⟨timestampMs, ht, hi⟩ := bind_eq_ok.1 hi
    obtain ⟨next, hn, hrest⟩ := bind_eq_ok.1 hi
    obtain ⟨hseq, rfl⟩ := i64OfNat_ok.1 hs
    obtain ⟨htime, rfl⟩ := i64OfNat_ok.1 ht
    refine ih ?_ (fun other hother => hfinite other (mem_cons_of_mem _ hother)) hrest
    exact h.insert (hfinite sample mem_cons_self) ⟨hseq, htime⟩ hn

theorem SamplesStored.append {payload : WorkspaceWaveformSamplesPayload F64}
    (ha : appendWaveformSamples db sessionId payload = .ok db') :
    SamplesStored db'.waveformSamples := by
  replace ha := passed ha
  replace ha := passed ha
  obtain ⟨_, hvalid, ha⟩ := bind_eq_ok.1 ha
  obtain ⟨appended, hi, ha⟩ := bind_eq_ok.1 ha
  cases ha
  exact (h.insertAll (validateWaveformSamples_ok hvalid) hi).sublist filter_sublist

end

/-! ## Mutations and runs -/

/-- The configurations that a mutation stores with the channels of a waveform. -/
def channelConfigs : MutationBody Json F64 → List Json
  | .replaceWaveformChannels _ payload => payload.channels.map (·.config)
  | _ => []

theorem applyMutation_rows {body : MutationBody Json F64} (h : RowsStored db)
    (hdepth : ∀ config ∈ channelConfigs body, config.depth ≤ SERDE_JSON_DEPTH)
    (ha : applyMutation db body = .ok db') : RowsStored db' := by
  cases body with
  | setMetadata payload =>
    obtain ⟨_, _, rfl⟩ := setMetadata_ok ha
    exact ⟨h.sessions, h.frames, h.ai_messages, h.channels, h.samples⟩
  | setActiveSession sessionId =>
    obtain ⟨_, rfl⟩ := setActiveSession_ok ha
    exact ⟨h.sessions, h.frames, h.ai_messages, h.channels, h.samples⟩
  | upsertSession sessionId payload =>
    obtain ⟨row, rfl, _, he⟩ := upsertSession_ok ha
    obtain ⟨_, hid, _⟩ := bind_eq_ok.1 ha
    rw [he]
    exact ⟨h.sessions.upsert hid, h.frames, h.ai_messages, h.channels, h.samples⟩
  | removeSession sessionId =>
    have hsessions := h.sessions.remove ha
    rw [(removeSession_ok ha).2] at hsessions ⊢
    exact ⟨hsessions, h.frames.sublist filter_sublist,
      fun r hr => h.ai_messages r (mem_of_mem_filter hr),
      h.channels.sublist filter_sublist, h.samples.sublist filter_sublist⟩
  | appendFrames sessionId payload =>
    have hframes := h.frames.append ha
    rw [appendFrames_ok ha]
    exact ⟨h.sessions, hframes, h.ai_messages, h.channels, h.samples⟩
  | replaceCapture sessionId payload =>
    have hframes := h.frames.replace ha
    rw [replaceCapture_ok ha]
    exact ⟨h.sessions, hframes, h.ai_messages, h.channels, h.samples⟩
  | trimCapture sessionId payload =>
    have hframes := h.frames.trim ha
    rw [trimCapture_ok ha]
    exact ⟨h.sessions, hframes, h.ai_messages, h.channels, h.samples⟩
  | upsertFeatureState entityId payload =>
    rw [upsertFeatureState_ok ha]
    exact ⟨h.sessions, h.frames, h.ai_messages, h.channels, h.samples⟩
  | replaceSessionCollections sessionId payload =>
    rw [replaceSessionCollections_ok ha]
    exact ⟨h.sessions, h.frames, h.ai_messages, h.channels, h.samples⟩
  | appendAiMessages sessionId payload =>
    have hai := h.ai_messages.append ha
    obtain ⟨_, _, _, rfl⟩ := appendAiMessages_ok ha
    exact ⟨h.sessions, h.frames, hai, h.channels, h.samples⟩
  | clearAiMessages sessionId =>
    rw [clearAiMessages_ok ha]
    exact ⟨h.sessions, h.frames, fun r hr => h.ai_messages r (mem_of_mem_filter hr),
      h.channels, h.samples⟩
  | replaceWaveformChannels sessionId payload =>
    have hchannels := h.channels.replace
      (fun channel hc => hdepth channel.config (mem_map_of_mem hc)) ha
    obtain ⟨_, rfl⟩ := replaceWaveformChannels_ok ha
    exact ⟨h.sessions, h.frames, h.ai_messages, hchannels, h.samples.sublist filter_sublist⟩
  | appendWaveformSamples sessionId payload =>
    have hsamples := h.samples.append ha
    rw [(appendWaveformSamples_ok ha).2] at hsamples ⊢
    exact ⟨h.sessions, h.frames, h.ai_messages, h.channels, hsamples⟩

/-- A workspace as it stands in its file after any batches. -/
structure Stored (db : Database) : Prop where
  rows : RowsStored db
  ai_positions : AiContiguous db
  samples : ∃ log, SamplesSound db log
  limits : WithinLimits db

def ConfigsShallow (request : ApplyWorkspaceBatchRequest) : Prop :=
  ∀ mutation ∈ request.mutations, ∀ config ∈ channelConfigs mutation.body,
    config.depth ≤ SERDE_JSON_DEPTH

theorem applyMutationList_stored {mutations : List WorkspaceMutation} {log : SampleLog}
    (hrows : RowsStored db) (hai : AiContiguous db) (hsamples : SamplesSound db log)
    (hdepth : ∀ mutation ∈ mutations, ∀ config ∈ channelConfigs mutation.body,
      config.depth ≤ SERDE_JSON_DEPTH) (ha : applyMutationList db mutations = .ok db') :
    RowsStored db' ∧ AiContiguous db' ∧ ∃ log, SamplesSound db' log := by
  induction mutations generalizing db log with
  | nil =>
    cases ha
    exact ⟨hrows, hai, log, hsamples⟩
  | cons mutation mutations ih =>
    obtain ⟨next, hm, hrest⟩ := bind_eq_ok.1 ha
    exact ih (applyMutation_rows hrows (hdepth mutation mem_cons_self) hm)
      (applyMutation_ai hai hm) (applyMutation_samples hsamples hm)
      (fun other hother => hdepth other (mem_cons_of_mem _ hother)) hrest

variable {hash : ApplyWorkspaceBatchRequest → List UInt8}

theorem Commits.stored {request : ApplyWorkspaceBatchRequest} (hc : Commits hash db request db')
    (h : Stored db) (hdepth : ConfigsShallow request) : Stored db' := by
  obtain ⟨applied, now, ha, rfl⟩ := hc.applied
  obtain ⟨hlist, hlimits⟩ := applyMutations_ok ha
  obtain ⟨log, hsamples⟩ := h.samples
  obtain ⟨hrows, hai, log', hsamples'⟩ :=
    applyMutationList_stored h.rows h.ai_positions hsamples hdepth hlist
  exact
    { rows := ⟨hrows.sessions, hrows.frames, hrows.ai_messages, hrows.channels, hrows.samples⟩
      ai_positions := hai.keep rfl
      samples := ⟨log', hsamples'.keep rfl rfl⟩
      limits := ⟨hlimits.sessions, hlimits.frames, hlimits.frames_per_session,
        hlimits.capture_bytes, hlimits.ai_messages, hlimits.ai_message_bytes, hlimits.ai_bytes,
        hlimits.plugin_state_bytes⟩ }

variable {service : WorkspaceService}

theorem callService_stored {call : Call} (h : Stored service.db) (hdepth : ConfigsShallow call.2) :
    Stored (callService hash service call).db := by
  have hends := applyBatch_ends hash call.1 service call.2
  unfold callService
  generalize applyBatch hash call.1 service call.2 = outcome at hends
  obtain ⟨result, next⟩ := outcome
  cases hends with
  | refused error => exact h
  | known row found same => exact h
  | committed service' mode commits => exact commits.stored h hdepth

theorem createWorkspace_stored {request : CreateWorkspaceRequest}
    (h : createWorkspace request = .ok service) : Stored service.db := by
  have hsound := createWorkspace_sound h
  obtain ⟨createdAtMs, hdb, _⟩ := createWorkspace_ok h
  refine ⟨?_, hsound.ai_positions, ⟨_, hsound.samples⟩, hsound.limits⟩
  rw [hdb]
  have hnone {ρ : Type} {P : ρ → Prop} : ∀ r ∈ ([] : List ρ), P r :=
    fun _ hr => (not_mem_nil hr).elim
  exact ⟨hnone, ⟨nodup_nil, hnone, hnone⟩, hnone, ⟨hnone, hnone⟩, ⟨nodup_nil, hnone, hnone⟩⟩

/-- Whatever batches a workspace was sent, what it holds is stored properly. -/
theorem afterCalls_stored {hash : ApplyWorkspaceBatchRequest → List UInt8}
    {request : CreateWorkspaceRequest} {service : WorkspaceService}
    (hcreate : createWorkspace request = .ok service) (calls : List Call)
    (hcalls : ∀ call ∈ calls, ConfigsShallow call.2) :
    Stored (afterCalls hash service calls).db :=
  @runs.run_invariant_of_mem _ _ (callService hash)
    (fun service : WorkspaceService => Stored service.db) calls _
    (fun _ call hcall h => callService_stored h (hcalls call hcall))
      (createWorkspace_stored hcreate)

end bbcom.workspace
