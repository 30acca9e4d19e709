-- Reading a stored session back: who follows the places that the pages name gets each row
-- once, in its order, on pages that keep the limits, and comes to an end.
import Bbcom.WorkspaceHydration
import Bbcom.WorkspaceStoredRows

open bbcom.json bbcom.contracts

namespace bbcom.workspace

open WaveformSampleRow List AiMessageRow Nat Database UInt64

/-- Rows that were read, against the rows of the table and the key that orders them. -/
structure ReadInFull {ρ ι : Type} [LT ι] (stored : List ρ) (key : ρ → ι) (rows : List ρ) :
    Prop where
  each_once : rows.Perm stored
  in_order : rows.Pairwise (key · < key ·)

theorem refuseIf_of_not {condition : Prop} [Decidable condition] {error : WorkspaceError}
    (h : ¬condition) : refuseIf condition error = .ok () := if_neg h

theorem i64OfNat_of_lt {n : Nat} {field : String} (h : n < 2 ^ 63) : i64OfNat n field = .ok n :=
  if_pos h

variable {db : Database} {sessionId : String} {requestedLimit : Nat} {limits : Nat → Nat}
  {fromStr : List Char → Option Json}

/-- What all three readers ask for first. -/
theorem Stored.readable (h : Stored db) (hlive : db.hasLiveSession sessionId) :
    validateIdentifier sessionId "sessionId" = .ok () ∧
      ensureSessionExists db sessionId = .ok () := by
  refine ⟨?_, refuseIf_of_not (not_not.2 hlive)⟩
  obtain ⟨s, hs, rfl, _⟩ := hasLiveSession_iff.1 hlive
  exact h.rows.sessions s hs

theorem ensurePageLimit_of_le {field : String} {limit : Nat} (hsome : 0 < requestedLimit)
    (hle : requestedLimit ≤ limit) : ensurePageLimit field limit requestedLimit = .ok () :=
  refuseIf_of_not (by omega)

/-- The rows of one session under a key that the session is a part of. -/
theorem session_keys {ρ ι : Type} {session : ρ → String} {key : ρ → ι} {rows : List ρ}
    (hkeys : (rows.map fun r => (session r, key r)).Nodup) (id : String) :
    ((rows.filter fun r => decide (session r = id)).map key).Nodup := by
  apply List.Nodup.of_map (Prod.mk id)
  have hsame : ((rows.filter fun r => decide (session r = id)).map key).map (Prod.mk id) =
      (rows.filter fun r => decide (session r = id)).map fun r => (session r, key r) := by
    rw [map_map]
    apply map_congr_left
    intro r hr
    simp only [mem_filter, decide_eq_true_eq] at hr
    simp [hr.2]
  rw [hsame]
  exact hkeys.sublist (filter_sublist.map _)

/-! ## Frames -/

def WorkspaceFrame.row (sessionId : String) (frame : WorkspaceFrame) : FrameRow where
  sessionId
  seq := frame.seq
  id := frame.id
  direction := frame.direction
  timestampMs := frame.timestampMs
  data := frame.data
  txStatus := frame.txStatus
  requestedBytes := frame.requestedBytes
  omittedBytes := frame.omittedBytes

def frameBytesOf (frames : List WorkspaceFrame) : Nat := (frames.map (·.data.length)).sum

theorem orderedFrames_sorted (h : Stored db) (sessionId : String) :
    (db.orderedFrames sessionId).Pairwise (·.seq < ·.seq) :=
  paging.sorted_by_key (fun _ _ => decide_eq_true_iff)
    (session_keys h.rows.frames.keys_distinct sessionId)

theorem mem_orderedFrames {row : FrameRow} (h : row ∈ db.orderedFrames sessionId) :
    row ∈ db.frames ∧ row.sessionId = sessionId := by
  rw [orderedFrames, mem_mergeSort] at h
  simpa using mem_filter.1 h

/-- A frame of any size that a mutation allows fits on an empty page. -/
theorem framePageRule {requestedLimit : Nat} (hsome : 0 < requestedLimit) {rows : List FrameRow}
    (hsize : ∀ row ∈ rows, row.data.length ≤ MAX_WORKSPACE_FRAME_BYTES) :
    paging.PageRule (framePageFull requestedLimit) (·.data.length) FrameRow.frame requestedLimit
      (fun frames bytes => frames.length ≤ requestedLimit ∧ bytes = frameBytesOf frames ∧
        bytes ≤ MAX_HYDRATE_PAGE_BYTES) rows where
  empty := ⟨zero_le _, rfl, zero_le _⟩
  grows frames bytes row hrow hfits hopen := by
    obtain ⟨hlength, hbytes, hmax⟩ := hfits
    simp only [framePageFull, Bool.or_eq_false_iff, decide_eq_false_iff_not,
      Bool.and_eq_false_iff, Bool.not_eq_eq_eq_not, Bool.not_false, not_lt] at hopen
    refine ⟨?_, ?_, ?_⟩
    · simp only [length_append, length_singleton]
      omega
    · simp [frameBytesOf, hbytes, FrameRow.frame]
    · rcases hopen.2 with hempty | hroom
      · rw [List.isEmpty_iff] at hempty
        subst hempty
        have hfirst := hsize row hrow
        simp only [frameBytesOf, map_nil, sum_nil] at hbytes
        unfold MAX_WORKSPACE_FRAME_BYTES at hfirst
        unfold MAX_HYDRATE_PAGE_BYTES
        omega
      · exact (saturatingAdd_le (by unfold MAX_HYDRATE_PAGE_BYTES; omega)).1 hroom
  within _ _ hfits := hfits.1
  admits := by
    intro row _
    simp [framePageFull, hsome.ne]

/-- One page of frames. -/
theorem hydrateFrames_page (h : Stored db) (hlive : db.hasLiveSession sessionId) {fromSeq : Nat}
    (hfrom : fromSeq < 2 ^ 63) (hsome : 0 < requestedLimit)
    (hle : requestedLimit ≤ MAX_HYDRATE_PAGE_FRAMES) :
    ∃ page, hydrateFrames db sessionId fromSeq requestedLimit = .ok page ∧
      (page.frames.length ≤ requestedLimit ∧
        frameBytesOf page.frames ≤ MAX_HYDRATE_PAGE_BYTES) ∧
      paging.Serves (· < 2 ^ 63)
        (fun place => ((db.orderedFrames sessionId).filter (place ≤ ·.seq)).map FrameRow.frame)
        fromSeq page.frames page.nextSeq := by
  have hrule := @framePageRule requestedLimit hsome
    ((db.orderedFrames sessionId).filter (fromSeq ≤ ·.seq))
    (fun row hrow => h.rows.frames.sizes row (mem_orderedFrames (mem_of_mem_filter hrow)).1)
  obtain ⟨taken, rest, hsplit, hfill, ⟨hlength, hbytes, hmax⟩, htaken⟩ :=
    @paging.fill_page _ _ _ _ _ (fun row => (.ok row.frame : Result WorkspaceFrame)) _ _ _ _ hrule
      (fun _ _ => rfl)
  refine ⟨{ sessionId, frames := taken.map FrameRow.frame, nextSeq := rest.head?.map FrameRow.seq },
    ?_, ⟨hlength, hbytes ▸ hmax⟩, ?_⟩
  · unfold hydrateFrames
    rw [(h.readable hlive).1, (h.readable hlive).2, ensurePageLimit_of_le hsome hle]
    simp only [i64OfNat_of_lt hfrom, bind, Except.bind, hfill]
    rfl
  · cases rest with
    | nil => exact .last (by simp [hsplit])
    | cons row rest =>
      have hrow : row ∈ (db.orderedFrames sessionId).filter (fromSeq ≤ ·.seq) := by simp [hsplit]
      have hleft := paging.left_by_key (orderedFrames_sorted h sessionId) hsplit
      refine .more row.seq ?_ ?_ ?_
      · have hne := htaken (ne_nil_of_mem hrow)
        simpa using hne
      · simp only [hsplit, hleft, map_append]
      · exact h.rows.frames.sequences row (mem_orderedFrames (mem_of_mem_filter hrow)).1

/-- What the pages of frames are to whom reads them with these limits. -/
def FramesReadInFull (db : Database) (sessionId : String) (limits : Nat → Nat) : Prop :=
  ∀ fuel, (db.sessionFrames sessionId).length < fuel →
    ∃ pages, paging.follow (fun n place => hydrateFrames db sessionId place (limits n))
        (·.nextSeq) fuel 0 0 = some (.ok pages) ∧
      ReadInFull (db.sessionFrames sessionId) FrameRow.seq
        ((pages.flatMap (·.frames)).map (WorkspaceFrame.row sessionId)) ∧
      ∀ i page, pages[i]? = some page → page.frames.length ≤ limits i ∧
        frameBytesOf page.frames ≤ MAX_HYDRATE_PAGE_BYTES

theorem frames_read_in_full (h : Stored db) (hlive : db.hasLiveSession sessionId)
    (hlimits : ∀ n, 0 < limits n ∧ limits n ≤ MAX_HYDRATE_PAGE_FRAMES) :
    FramesReadInFull db sessionId limits := by
  intro fuel hfuel
  have hall : (db.orderedFrames sessionId).filter (0 ≤ ·.seq) = db.orderedFrames sessionId := by
    simp
  have hperm : (db.orderedFrames sessionId).Perm (db.sessionFrames sessionId) :=
    mergeSort_perm _ _
  obtain ⟨pages, hfollow, hflat, hpages⟩ := @paging.follow_complete _ _ _ _
    (fun n place => hydrateFrames db sessionId place (limits n)) (·.nextSeq) (·.frames) _ _ _
    (fun n _ hplace => hydrateFrames_page h hlive hplace (hlimits n).1 (hlimits n).2)
    fuel 0 0 (by omega) (by
      rw [hall, length_map, hperm.length_eq]
      exact hfuel)
  refine ⟨pages, hfollow, ?_, by simpa only [Nat.zero_add] using hpages⟩
  · have hrows : (pages.flatMap (·.frames)).map (WorkspaceFrame.row sessionId) =
        db.orderedFrames sessionId := by
      rw [hflat, hall, map_map]
      refine (map_congr_left fun row hrow => ?_).trans (map_id _)
      rw [← (mem_orderedFrames hrow).2]
      rfl
    rw [hrows]
    exact ⟨hperm, orderedFrames_sorted h sessionId⟩

/-! ## AI messages -/

def aiRow (sessionId : String) (position : Nat) (message : WorkspaceAiMessage) : AiMessageRow where
  sessionId
  position
  id := message.id
  role := message.role
  content := message.content
  timestampMs := message.timestampMs.toNat

def aiBytesOf (messages : List WorkspaceAiMessage) : Nat :=
  (messages.map (byteLength ·.content)).sum

/-- The messages stand in the order of their positions as they are. -/
theorem orderedAiMessages_eq (h : Stored db) (sessionId : String) :
    db.orderedAiMessages sessionId = db.sessionAiMessages sessionId := by
  apply mergeSort_of_pairwise
  have hpos : ((db.sessionAiMessages sessionId).map position).Pairwise (· < ·) := by
    rw [h.ai_positions sessionId]
    exact pairwise_lt_range
  apply (pairwise_map.1 hpos).imp
  intro a b hab
  exact decide_eq_true hab.le

theorem mem_liveAiMessages (hlive : db.hasLiveSession sessionId) {row : AiMessageRow}
    (h : row ∈ db.sessionAiMessages sessionId) : row ∈ db.liveAiMessages := by
  obtain ⟨hmem, hid⟩ := mem_filter.1 h
  rw [decide_eq_true_eq] at hid
  exact mem_filter.2 ⟨hmem, hid ▸ hlive⟩

theorem le_foldr_max {n : Nat} {ns : List Nat} (h : n ∈ ns) : n ≤ ns.foldr max 0 := by
  induction ns with
  | nil => cases h
  | cons m ns ih =>
    rcases mem_cons.1 h with rfl | h
    · exact le_max_left _ _
    · exact (ih h).trans (le_max_right _ _)

theorem ai_content_le (h : Stored db) (hlive : db.hasLiveSession sessionId) {row : AiMessageRow}
    (hrow : row ∈ db.sessionAiMessages sessionId) :
    byteLength row.content ≤ MAX_WORKSPACE_AI_MESSAGE_BYTES :=
  (le_foldr_max (mem_map_of_mem (mem_liveAiMessages hlive hrow))).trans
    h.limits.ai_message_bytes

theorem ai_count_le (h : Stored db) (hlive : db.hasLiveSession sessionId) :
    (db.sessionAiMessages sessionId).length ≤ MAX_WORKSPACE_AI_MESSAGES := by
  refine le_trans ?_ h.limits.ai_messages
  apply List.Sublist.length_le
  have hsub : db.sessionAiMessages sessionId =
      db.liveAiMessages.filter (·.sessionId = sessionId) := by
    unfold sessionAiMessages liveAiMessages ofLiveSessions
    rw [filter_filter]
    apply filter_congr
    intro r _
    by_cases hid : r.sessionId = sessionId
    · simp [hid, hlive]
    · simp [hid]
  rw [hsub]
  exact filter_sublist

/-- A message of any size that a mutation allows fits on an empty page, so this reader needs
no exception for the first. -/
theorem aiPageRule {requestedLimit : Nat} (hsome : 0 < requestedLimit) {rows : List AiMessageRow}
    (hsize : ∀ row ∈ rows, byteLength row.content ≤ MAX_WORKSPACE_AI_MESSAGE_BYTES) :
    paging.PageRule (aiPageFull requestedLimit) (byteLength ·.content) message
      requestedLimit
      (fun messages bytes => messages.length ≤ requestedLimit ∧ bytes = aiBytesOf messages ∧
        bytes ≤ MAX_HYDRATE_PAGE_BYTES) rows where
  empty := ⟨zero_le _, rfl, zero_le _⟩
  grows messages bytes row hrow hfits hopen := by
    obtain ⟨hlength, hbytes, hmax⟩ := hfits
    simp only [aiPageFull, Bool.or_eq_false_iff, decide_eq_false_iff_not, not_lt] at hopen
    refine ⟨?_, ?_, ?_⟩
    · simp only [length_append, length_singleton]
      omega
    · simp [aiBytesOf, hbytes, message]
    · exact (saturatingAdd_le (by unfold MAX_HYDRATE_PAGE_BYTES; omega)).1 hopen.2
  within _ _ hfits := hfits.1
  admits row hrow := by
    have hfirst := hsize row hrow
    have hroom : saturatingAdd 0 (byteLength row.content) ≤ MAX_HYDRATE_PAGE_BYTES := by
      apply (saturatingAdd_le (by unfold MAX_HYDRATE_PAGE_BYTES; omega)).2
      unfold MAX_WORKSPACE_AI_MESSAGE_BYTES at hfirst
      unfold MAX_HYDRATE_PAGE_BYTES
      omega
    simpa [aiPageFull, hsome.ne] using hroom

theorem saturatingAdd_of_lt {a b : Nat} (h : a + b < 2 ^ 63) : saturatingAdd a b = a + b := by
  unfold saturatingAdd
  omega

/-- One page of messages. -/
theorem hydrateAiMessages_page (h : Stored db) (hlive : db.hasLiveSession sessionId)
    {offset : Nat} (hoffset : offset ≤ (db.sessionAiMessages sessionId).length)
    (hsome : 0 < requestedLimit) (hle : requestedLimit ≤ MAX_HYDRATE_PAGE_AI_MESSAGES) :
    ∃ page, hydrateAiMessages db sessionId offset requestedLimit = .ok page ∧
      (page.messages.length ≤ requestedLimit ∧
        aiBytesOf page.messages ≤ MAX_HYDRATE_PAGE_BYTES) ∧
      paging.Serves (· ≤ (db.sessionAiMessages sessionId).length)
        (fun place => ((db.sessionAiMessages sessionId).drop place).map message)
        offset page.messages page.nextOffset := by
  have hcount := ai_count_le h hlive
  unfold MAX_WORKSPACE_AI_MESSAGES at hcount
  have hrule := @aiPageRule requestedLimit hsome ((db.sessionAiMessages sessionId).drop offset)
    (fun row hrow => ai_content_le h hlive (mem_of_mem_drop hrow))
  obtain ⟨taken, rest, hsplit, hfill, ⟨hlength, hbytes, hmax⟩, htaken⟩ :=
    @paging.fill_page _ _ _ _ _ (fun row => (.ok row.message : Result WorkspaceAiMessage)) _ _ _ _
      hrule (fun _ _ => rfl)
  have hsizes := paging.length_by_offset hoffset hsplit
  have hnext : saturatingAdd offset (taken.map message).length = offset + taken.length := by
    rw [length_map]
    apply saturatingAdd_of_lt
    omega
  refine ⟨{ messages := taken.map message,
            nextOffset := rest.head?.map fun _ => offset + taken.length },
    ?_, ⟨hlength, hbytes ▸ hmax⟩, paging.serves_by_offset hoffset hsplit htaken⟩
  have hfetch : requestedLimit + 1 < 2 ^ 63 := by
    unfold MAX_HYDRATE_PAGE_AI_MESSAGES at hle
    omega
  unfold hydrateAiMessages
  rw [(h.readable hlive).1, (h.readable hlive).2, ensurePageLimit_of_le hsome hle,
    orderedAiMessages_eq h]
  simp only [i64OfNat_of_lt hfetch, i64OfNat_of_lt (show offset < 2 ^ 63 by omega), bind,
    Except.bind, hfill, hnext]
  rfl

def AiMessagesReadInFull (db : Database) (sessionId : String) (limits : Nat → Nat) : Prop :=
  ∀ fuel, (db.sessionAiMessages sessionId).length < fuel →
    ∃ pages, paging.follow (fun n place => hydrateAiMessages db sessionId place (limits n))
        (·.nextOffset) fuel 0 0 = some (.ok pages) ∧
      ReadInFull (db.sessionAiMessages sessionId) position
        ((pages.flatMap (·.messages)).mapIdx (aiRow sessionId)) ∧
      ∀ i page, pages[i]? = some page → page.messages.length ≤ limits i ∧
        aiBytesOf page.messages ≤ MAX_HYDRATE_PAGE_BYTES

/-- The message of a row, put back at its position, is the row. -/
theorem aiRow_message (h : Stored db) (sessionId : String) :
    ((db.sessionAiMessages sessionId).map message).mapIdx (aiRow sessionId) =
      db.sessionAiMessages sessionId := by
  apply ext_getElem
  · simp
  · intro i _ hi
    have hmem := getElem_mem hi
    have hposition : (db.sessionAiMessages sessionId)[i].position = i := by
      have hget := congrArg (·[i]?) (h.ai_positions sessionId)
      simpa [hi] using hget
    obtain ⟨hrow, hid⟩ := mem_filter.1 hmem
    rw [decide_eq_true_eq] at hid
    have htime := h.rows.ai_messages _ hrow
    rw [getElem_mapIdx, getElem_map]
    generalize (db.sessionAiMessages sessionId)[i] = row at hposition hid htime
    have hback : (ofNat row.timestampMs).toNat = row.timestampMs := by
      rw [toNat_ofNat']
      omega
    subst hposition hid
    simp only [aiRow, message, hback]

theorem ai_messages_read_in_full (h : Stored db) (hlive : db.hasLiveSession sessionId)
    (hlimits : ∀ n, 0 < limits n ∧ limits n ≤ MAX_HYDRATE_PAGE_AI_MESSAGES) :
    AiMessagesReadInFull db sessionId limits := by
  intro fuel hfuel
  obtain ⟨pages, hfollow, hflat, hpages⟩ := @paging.follow_complete _ _ _ _
    (fun n place => hydrateAiMessages db sessionId place (limits n)) (·.nextOffset) (·.messages)
    _ _ _ (fun n _ hplace => hydrateAiMessages_page h hlive hplace (hlimits n).1 (hlimits n).2)
    fuel 0 0 (zero_le _) (by
      rw [drop_zero, length_map]
      exact hfuel)
  refine ⟨pages, hfollow, ?_, by simpa only [Nat.zero_add] using hpages⟩
  · rw [hflat, drop_zero, aiRow_message h]
    refine ⟨List.Perm.refl _, ?_⟩
    apply pairwise_map.1
    rw [h.ai_positions sessionId]
    exact pairwise_lt_range

/-! ## Waveform -/

/-- The order of the samples: their sequence numbers, and the channels of one. -/
def WaveformSampleRow.order (row : WaveformSampleRow) : ℕ ×ₗ ℕ :=
  toLex (row.seq, row.channelIndex.toNat)

/-- What a session holds is the rows of its newest sequence numbers and no others, so the
reader leaves none of them out. -/
theorem newestSamples_eq (h : Stored db) (sessionId : String) :
    db.newestSamples sessionId = (db.sessionSamples sessionId).mergeSort sampleOrder := by
  obtain ⟨log, hsamples⟩ := h.samples
  have hretain : retainedSamples (db.sessionSamples sessionId) = db.sessionSamples sessionId := by
    rw [hsamples.retained sessionId]
    exact retention.retain_retain _ _ _
  have hfilter : (db.sessionSamples sessionId).filter (fun row =>
      (retention.newest MAX_WAVEFORM_SAMPLE_GROUPS
        ((db.sessionSamples sessionId).map seq)).contains row.seq) =
      retainedSamples (db.sessionSamples sessionId) := by
    apply filter_congr
    intro row _
    rw [contains_eq_mem]
  unfold newestSamples
  dsimp only
  rw [hfilter, hretain]

theorem sampleOrder_iff (a b : WaveformSampleRow) :
    sampleOrder a b = true ↔ a.order ≤ b.order := by
  simp [sampleOrder, order, Prod.Lex.toLex_le_toLex, UInt8.le_iff_toNat_le]

theorem newestSamples_sorted (h : Stored db) (sessionId : String) :
    (db.newestSamples sessionId).Pairwise (·.order < ·.order) := by
  rw [newestSamples_eq h]
  apply paging.sorted_by_key sampleOrder_iff
  have hkeys := @session_keys _ _ WaveformSampleRow.sessionId (fun r => (r.channelIndex, r.seq))
    _ h.rows.samples.keys_distinct sessionId
  have horder : (db.sessionSamples sessionId).map WaveformSampleRow.order =
      ((db.sessionSamples sessionId).map fun r => (r.channelIndex, r.seq)).map
        fun k => toLex (k.2, k.1.toNat) := by
    rw [map_map]
    rfl
  rw [horder]
  refine List.Nodup.map ?_ hkeys
  intro k k' hk
  obtain ⟨hseq, hindex⟩ := Prod.mk.inj (toLex.injective hk)
  exact Prod.ext (UInt8.toNat_inj.1 hindex) hseq

variable {row : WaveformSampleRow}

theorem mem_newestSamples (h : row ∈ db.newestSamples sessionId) :
    row ∈ db.waveformSamples ∧ row.sessionId = sessionId := by
  rw [newestSamples, mem_mergeSort] at h
  simpa using mem_filter.1 (mem_of_mem_filter h)

theorem sample_channel_le (h : Stored db) (hrow : row ∈ db.waveformSamples) :
    row.channelIndex ≤ 7 := by
  obtain ⟨log, hsamples⟩ := h.samples
  obtain ⟨channel, hmem, _, hindex⟩ := hasWaveformChannel_iff.1 (hsamples.have_channel row hrow)
  rw [← hindex]
  exact h.rows.channels.indices channel hmem

/-- Eight channels at most, each with one sample at most of each of the newest numbers. -/
theorem sample_count_le (h : Stored db) (sessionId : String) :
    (db.newestSamples sessionId).length ≤ MAX_WAVEFORM_SAMPLE_GROUPS * 8 := by
  obtain ⟨log, hsamples⟩ := h.samples
  have hperm : (db.newestSamples sessionId).Perm (db.sessionSamples sessionId) := by
    rw [newestSamples_eq h]
    exact mergeSort_perm _ _
  have hdistinct : ((db.newestSamples sessionId).map order).Nodup := by
    apply (pairwise_map.2 (newestSamples_sorted h sessionId)).imp
    intro a b hab
    exact ne_of_lt hab
  have hsub : ((db.newestSamples sessionId).map order).toFinset ⊆
      (((db.sessionSamples sessionId).map seq).toFinset ×ˢ
        Finset.range 8).map toLex.toEmbedding := by
    intro key hkey
    obtain ⟨row, hrow, rfl⟩ := mem_map.1 (mem_toFinset.1 hkey)
    have hindex := UInt8.le_iff_toNat_le.1 (sample_channel_le h (mem_newestSamples hrow).1)
    refine Finset.mem_map.2 ⟨(row.seq, row.channelIndex.toNat), ?_, rfl⟩
    refine Finset.mem_product.2 ⟨?_, Finset.mem_range.2 (lt_succ_of_le hindex)⟩
    exact mem_toFinset.2 (mem_map_of_mem (hperm.mem_iff.1 hrow))
  have hgroups : ((db.sessionSamples sessionId).map seq).toFinset.card ≤
      MAX_WAVEFORM_SAMPLE_GROUPS := by
    rw [hsamples.retained sessionId]
    exact retention.card_retain _ _ _
  have hcard := Finset.card_le_card hsub
  rw [toFinset_card_of_nodup hdistinct, length_map, Finset.card_map,
    Finset.card_product, Finset.card_range] at hcard
  exact hcard.trans (mul_le_mul_right 8 hgroups)

theorem mapM_ok {ε α β : Type} {f : α → Except ε β} {items : List α}
    (h : ∀ a ∈ items, ∃ b, f a = .ok b) : ∃ results, items.mapM f = .ok results := by
  induction items with
  | nil => exact ⟨[], rfl⟩
  | cons item items ih =>
    obtain ⟨result, hresult⟩ := h item mem_cons_self
    obtain ⟨results, hresults⟩ := ih fun a ha => h a (mem_cons_of_mem _ ha)
    refine ⟨result :: results, ?_⟩
    rw [mapM_cons, hresult, hresults]
    rfl

/-- What `serde_json` does with a document that it wrote: it reads it, and finds no key and no
text that the document does not have. -/
def ReadsBack (fromStr : List Char → Option Json) : Prop :=
  ∀ document : Json, document.depth ≤ SERDE_JSON_DEPTH → hasForbiddenKeys document = false →
    ∃ parsed, fromStr document.print = some parsed ∧ hasForbiddenKeys parsed = false

theorem queryWaveformChannels_ok (hfromStr : ReadsBack fromStr) (h : Stored db)
    (sessionId : String) :
    ∃ channels, queryWaveformChannels fromStr db sessionId = .ok channels := by
  apply mapM_ok
  intro row hrow
  rw [mem_mergeSort] at hrow
  have hmem := mem_of_mem_filter hrow
  obtain ⟨config, hdepth, hclean, hprint⟩ := h.rows.channels.configs row hmem
  obtain ⟨parsed, hparsed, hclean'⟩ := hfromStr config hdepth hclean
  have hindex : waveformChannelIndex row.channelIndex = .ok row.channelIndex :=
    if_neg (UInt8.not_lt.2 (h.rows.channels.indices row hmem))
  have hconfig : parseDocumentJson fromStr row.configJson = .ok parsed := by
    rw [parseDocumentJson, hprint, hparsed]
    simp [hclean']
  exact ⟨⟨row.channelIndex, parsed⟩, by rw [hindex, hconfig]; rfl⟩

theorem samplePageRule (hsome : 0 < requestedLimit) (rows : List WaveformSampleRow) :
    paging.PageRule (fun (samples : List (WorkspaceWaveformSample F64)) _ (_ : WaveformSampleRow) =>
        decide (samples.length = requestedLimit)) (fun _ => 0) WaveformSampleRow.sample
      requestedLimit (fun samples _ => samples.length ≤ requestedLimit) rows where
  empty := zero_le _
  grows := by
    intro samples _ row _ hfits hopen
    rw [decide_eq_false_iff_not] at hopen
    simp only [length_append, length_singleton]
    omega
  within _ _ hfits := hfits
  admits := by
    intro row _
    simp [hsome.ne]

theorem readSample_ok (h : Stored db) (hrow : row ∈ db.waveformSamples) :
    readSample row = .ok row.sample := by
  have hindex : waveformChannelIndex row.channelIndex = .ok row.channelIndex :=
    if_neg (UInt8.not_lt.2 (sample_channel_le h hrow))
  unfold readSample
  rw [refuseIf_of_not (by simp [h.rows.samples.finite row hrow]), hindex]
  rfl

/-- One page of samples. -/
theorem hydrateWaveform_page (hfromStr : ReadsBack fromStr) (h : Stored db)
    (hlive : db.hasLiveSession sessionId) {offset : Nat}
    (hoffset : offset ≤ (db.newestSamples sessionId).length) (hsome : 0 < requestedLimit)
    (hle : requestedLimit ≤ MAX_HYDRATE_PAGE_WAVEFORM_SAMPLES) :
    ∃ page, hydrateWaveform fromStr db sessionId offset requestedLimit = .ok page ∧
      page.samples.length ≤ requestedLimit ∧
      paging.Serves (· ≤ (db.newestSamples sessionId).length)
        (fun place => ((db.newestSamples sessionId).drop place).map WaveformSampleRow.sample)
        offset page.samples page.nextOffset := by
  have hcount := sample_count_le h sessionId
  unfold MAX_WAVEFORM_SAMPLE_GROUPS at hcount
  obtain ⟨channels, hchannels⟩ := queryWaveformChannels_ok hfromStr h sessionId
  have hrule := samplePageRule hsome ((db.newestSamples sessionId).drop offset)
  obtain ⟨taken, rest, hsplit, hfill, hlength, htaken⟩ := paging.fill_page hrule
    fun row hrow => readSample_ok h (mem_newestSamples (mem_of_mem_drop hrow)).1
  have hsizes := paging.length_by_offset hoffset hsplit
  have hnext : saturatingAdd offset (taken.map sample).length = offset + taken.length := by
    rw [length_map]
    apply saturatingAdd_of_lt
    omega
  refine ⟨{ channels, samples := taken.map sample,
            nextOffset := rest.head?.map fun _ => offset + taken.length },
    ?_, hlength, paging.serves_by_offset hoffset hsplit htaken⟩
  have hfetch : requestedLimit + 1 < 2 ^ 63 := by
    unfold MAX_HYDRATE_PAGE_WAVEFORM_SAMPLES at hle
    omega
  unfold hydrateWaveform
  rw [(h.readable hlive).1, (h.readable hlive).2, ensurePageLimit_of_le hsome hle, hchannels]
  simp only [i64OfNat_of_lt hfetch, i64OfNat_of_lt (show offset < 2 ^ 63 by omega), bind,
    Except.bind, hfill, hnext]
  rfl

def WaveformReadInFull (fromStr : List Char → Option Json) (db : Database) (sessionId : String)
    (limits : Nat → Nat) : Prop :=
  ∀ fuel, (db.sessionSamples sessionId).length < fuel →
    ∃ pages, paging.follow (fun n place => hydrateWaveform fromStr db sessionId place (limits n))
        (·.nextOffset) fuel 0 0 = some (.ok pages) ∧
      ReadInFull (db.sessionSamples sessionId) WaveformSampleRow.order
        ((pages.flatMap (·.samples)).map (sampleRow sessionId)) ∧
      ∀ i page, pages[i]? = some page → page.samples.length ≤ limits i

theorem sampleRow_sample (h : Stored db) (hrow : row ∈ db.newestSamples sessionId) :
    sampleRow sessionId row.sample = row := by
  obtain ⟨hmem, hid⟩ := mem_newestSamples hrow
  obtain ⟨hseq, htime⟩ := h.rows.samples.numbers row hmem
  have hseq' : (ofNat row.seq).toNat = row.seq := by
    rw [toNat_ofNat']
    omega
  have htime' : (ofNat row.timestampMs).toNat = row.timestampMs := by
    rw [toNat_ofNat']
    omega
  subst hid
  simp only [sampleRow, sample, hseq', htime']

theorem waveform_read_in_full (hfromStr : ReadsBack fromStr) (h : Stored db)
    (hlive : db.hasLiveSession sessionId)
    (hlimits : ∀ n, 0 < limits n ∧ limits n ≤ MAX_HYDRATE_PAGE_WAVEFORM_SAMPLES) :
    WaveformReadInFull fromStr db sessionId limits := by
  intro fuel hfuel
  have hperm : (db.newestSamples sessionId).Perm (db.sessionSamples sessionId) := by
    rw [newestSamples_eq h]
    exact mergeSort_perm _ _
  obtain ⟨pages, hfollow, hflat, hpages⟩ := @paging.follow_complete _ _ _ _
    (fun n place => hydrateWaveform fromStr db sessionId place (limits n)) (·.nextOffset)
    (·.samples) _ _ _
    (fun n _ hplace => hydrateWaveform_page hfromStr h hlive hplace (hlimits n).1 (hlimits n).2)
    fuel 0 0 (zero_le _) (by
      rw [drop_zero, length_map, hperm.length_eq]
      exact hfuel)
  refine ⟨pages, hfollow, ?_, by simpa only [Nat.zero_add] using hpages⟩
  · have hrows : (pages.flatMap (·.samples)).map (sampleRow sessionId) =
        db.newestSamples sessionId := by
      rw [hflat, drop_zero, map_map]
      exact (map_congr_left fun row hrow => sampleRow_sample h hrow).trans (map_id _)
    rw [hrows]
    exact ⟨hperm, newestSamples_sorted h sessionId⟩

/-! ## Every stored workspace -/

/-- Whatever batches a workspace was sent: the pages of a session's frames, AI messages and
samples, read from 0 on with any allowed limits, end, and they are its rows, each once and in
order. -/
theorem every_session_reads_in_full (hash : ApplyWorkspaceBatchRequest → List UInt8)
    (fromStr : List Char → Option Json) (hfromStr : ReadsBack fromStr)
    {request : CreateWorkspaceRequest} {service : WorkspaceService}
    (hcreate : createWorkspace request = .ok service) (calls : List Call)
    (hcalls : ∀ call ∈ calls, ConfigsShallow call.2) {sessionId : String}
    (hlive : (afterCalls hash service calls).db.hasLiveSession sessionId) :
    (∀ limits, (∀ n, 0 < limits n ∧ limits n ≤ MAX_HYDRATE_PAGE_FRAMES) →
      FramesReadInFull (afterCalls hash service calls).db sessionId limits) ∧
    (∀ limits, (∀ n, 0 < limits n ∧ limits n ≤ MAX_HYDRATE_PAGE_AI_MESSAGES) →
      AiMessagesReadInFull (afterCalls hash service calls).db sessionId limits) ∧
    ∀ limits, (∀ n, 0 < limits n ∧ limits n ≤ MAX_HYDRATE_PAGE_WAVEFORM_SAMPLES) →
      WaveformReadInFull fromStr (afterCalls hash service calls).db sessionId limits := by
  have h := @afterCalls_stored hash _ _ hcreate calls hcalls
  refine ⟨?_, ?_, ?_⟩
  · intro limits hlimits
    exact frames_read_in_full h hlive hlimits
  · intro limits hlimits
    exact ai_messages_read_in_full h hlive hlimits
  · intro limits hlimits
    exact waveform_read_in_full hfromStr h hlive hlimits

theorem a_recorded_session_reads_in_full :
    (((afterCalls (fun _ => []) newWorkspace
        [(quietSurroundings, recordedSession)]).db.sessionFrames "s").map FrameRow.seq = [7, 3]) ∧
      FramesReadInFull (afterCalls (fun _ => []) newWorkspace
        [(quietSurroundings, recordedSession)]).db "s" (fun _ => 1) ∧
      AiMessagesReadInFull (afterCalls (fun _ => []) newWorkspace
        [(quietSurroundings, recordedSession)]).db "s" (fun _ => 1) ∧
      WaveformReadInFull (fun _ => some (.object [])) (afterCalls (fun _ => []) newWorkspace
        [(quietSurroundings, recordedSession)]).db "s" (fun _ => 1) := by
  have hcreate : createWorkspace ⟨"w", "w", 0⟩ = .ok newWorkspace := rfl
  have hreads : ReadsBack fun _ => some (.object []) := fun _ _ _ => ⟨_, rfl, rfl⟩
  have hlive : (afterCalls (fun _ => []) newWorkspace
      [(quietSurroundings, recordedSession)]).db.hasLiveSession "s" := by
    decide +kernel
  have hshallow : ∀ call ∈ [(quietSurroundings, recordedSession)], ConfigsShallow call.2 := by
    simp [ConfigsShallow, recordedSession, channelConfigs, Json.depth, json.depthFields,
      SERDE_JSON_DEPTH]
  obtain ⟨hframes, hmessages, hsamples⟩ := every_session_reads_in_full (fun _ => [])
    (fun _ => some (.object [])) hreads hcreate [(quietSurroundings, recordedSession)] hshallow
    hlive
  exact ⟨by decide +kernel, hframes _ (fun _ => ⟨by decide, by decide⟩),
    hmessages _ (fun _ => ⟨by decide, by decide⟩), hsamples _ (fun _ => ⟨by decide, by decide⟩)⟩

end bbcom.workspace
