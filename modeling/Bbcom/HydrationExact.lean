-- A server that answers from one stored workspace: whatever pages it cuts, and in whatever order
-- its answers come, what is staged is what is stored.
import Bbcom.HydrationProgress

open bbcom.js bbcom.ordered_map bbcom.page_loop bbcom.session_adapter
open bbcom.write_epoch (MAX_SAFE_INTEGER)
open bbcom.capture (validNonNegativeInteger)
open bbcom.contracts (MAX_WORKSPACE_SESSIONS MAX_WORKSPACE_FRAMES_PER_SESSION
  MAX_WORKSPACE_AI_MESSAGES)

namespace bbcom.hydration_staging

open List Option OrderedMap

variable {D F P K C : Type}

/-! ## What is stored -/

def storedSeq (frame : WorkspaceHydratedFrame) : Nat :=
  match frame.seq with
  | .finite value => value.num.toNat
  | _ => 0

/-- A session as the server has it: the frames in the order of their sequence numbers, each
channel once, and no more samples than an array may hold. -/
structure StoredSession (D P C : Type) where
  snapshot : WorkspaceSessionSnapshot D
  frames : List WorkspaceHydratedFrame
  collections : P
  aiMessages : List WorkspaceAiMessage
  channels : List (WorkspaceWaveformChannel C)
  samples : List WorkspaceWaveformSample
  ordered : (frames.map storedSeq).Pairwise (· < ·)
  channels_once : (channels.map fun channel => mapKey channel.channelIndex).Nodup
  samples_fit : samples.length ≤ MAX_SAFE_INTEGER

def StoredSession.parts (session : StoredSession D P C) : WorkspaceSessionHydrationParts P C where
  frames := session.frames
  collections := session.collections
  aiMessages := session.aiMessages
  waveformChannels := session.channels
  waveformSamples := session.samples

def hydrateStored (adapter : SessionAdapter D F P K C) (session : StoredSession D P C) :
    Adapted (HydratedWorkspaceSession F K C) := do
  assertLimit "sessionFrames" MAX_WORKSPACE_FRAMES_PER_SESSION session.frames.length
  hydrateWorkspaceSession adapter session.snapshot session.parts

/-- What the staging of a stored workspace is: each session hydrated from all of its rows. -/
def stageStored (stage : Stage) (adapter : SessionAdapter D F P K C)
    (stored : List (StoredSession D P C)) : Adapted (WorkspaceHydrationStaging F K C) := do
  assertLimit "workspaceSessions" MAX_WORKSPACE_SESSIONS stored.length
  let hydrated ← stored.mapM (hydrateStored adapter)
  conclude stage (stored.map (·.snapshot)) hydrated

/-! ## What a server answers from it -/

def natNumber (n : Nat) : JsNumber := .finite (n : ℚ)

/-- A page of a stored list, and where the list is to be asked for next. -/
def AnswersList {β : Type} (rows : List β) (limit place : Nat) (page : Option (List β))
    (nextOffset : Option JsNumber) : Prop :=
  ∃ taken next, page = some taken ∧ taken.length ≤ limit ∧ nextOffset = next.map natNumber ∧
    paging.Serves (· ≤ rows.length) rows.drop place taken next

def framesFrom (session : StoredSession D P C) (fromSeq : Nat) : List WorkspaceHydratedFrame :=
  session.frames.filter fun frame => decide (fromSeq ≤ storedSeq frame)

def AnswersFrames (session : StoredSession D P C) (limit place : Nat)
    (page : Option (List WorkspaceHydratedFrame)) (nextSeq : Option JsNumber) : Prop :=
  ∃ taken next, page = some taken ∧ taken.length ≤ limit ∧ nextSeq = next.map natNumber ∧
    paging.Serves (· ≤ MAX_SAFE_INTEGER) (framesFrom session) place taken next

/-- The answers to the requests that are out tell of the stored workspace at the revision that is
staged. -/
def Consistent (stage : Stage) (stored : List (StoredSession D P C)) (s : State D F P K C) :
    Event D P C → Prop
  | .sessions answer => ∀ requestId place taken,
    s.sessions.phase = .waiting requestId place taken →
      ∃ response, answer = .ok response ∧ Echoes stage requestId none response.envelope ∧
        AnswersList (stored.map (·.snapshot)) stage.sessionPageSize place response.sessions
          response.nextOffset
  | .collections index answer => ∀ item task session requestId place taken,
    s.items[index]? = some item → item.phase = .staging task → stored[index]? = some session →
      task.collections.phase = .waiting requestId place taken →
        ∃ response, answer = .ok response ∧
          Echoes stage requestId (some item.snapshot.id) response.envelope ∧
          response.collections = session.collections
  | .frames index answer => ∀ item task session requestId place taken,
    s.items[index]? = some item → item.phase = .staging task → stored[index]? = some session →
      task.frames.phase = .waiting requestId place taken →
        ∃ response, answer = .ok response ∧
          Echoes stage requestId (some item.snapshot.id) response.envelope ∧
          AnswersFrames session stage.framePageSize place response.frames response.nextSeq
  | .aiMessages index answer => ∀ item task session requestId place taken,
    s.items[index]? = some item → item.phase = .staging task → stored[index]? = some session →
      task.aiMessages.phase = .waiting requestId place taken →
        ∃ response, answer = .ok response ∧
          Echoes stage requestId (some item.snapshot.id) response.envelope ∧
          AnswersList session.aiMessages stage.aiPageSize place response.messages
            response.nextOffset
  | .waveform index answer => ∀ item task session requestId place taken,
    s.items[index]? = some item → item.phase = .staging task → stored[index]? = some session →
      task.waveform.phase = .waiting requestId place taken →
        ∃ response, answer = .ok response ∧
          Echoes stage requestId (some item.snapshot.id) response.envelope ∧
          response.channels = some session.channels ∧
          AnswersList session.samples stage.waveformPageSize place response.samples
            response.nextOffset
  | .settle _ => True

/-! ## The lists -/

theorem natNumber_next {n next : Nat} (h : validNonNegativeInteger (natNumber n) = some next) :
    next = n :=
  (validNonNegativeInteger_nat.1 h).2

theorem GoesOn.next {offset count : Nat} {next next' : Option Nat}
    (h : GoesOn offset count (next.map natNumber) next') : next' = next := by
  generalize hnumber : next.map natNumber = number at h
  cases h with
  | last => exact (map_eq_none_iff.1 hnumber).symm
  | more valid forward whole =>
    obtain ⟨n, rfl, rfl⟩ := map_eq_some_iff.1 hnumber
    rw [natNumber_next valid]

theorem FramesGoOn.next {previous : Int} {count : Nat} {next next' : Option Nat}
    (h : FramesGoOn previous count (next.map natNumber) next') : next' = next := by
  generalize hnumber : next.map natNumber = number at h
  cases h with
  | last => exact (map_eq_none_iff.1 hnumber).symm
  | more valid some_frame behind =>
    obtain ⟨n, rfl, rfl⟩ := map_eq_some_iff.1 hnumber
    rw [natNumber_next valid]

variable {place : Nat} {session : StoredSession D P C} {task : SessionTask P C}
  {sessionId requestId : String} {taken : FramesTaken}

theorem Serves.goesOn {β : Type} {rows page : List β} {next : Option Nat}
    (h : paging.Serves (· ≤ rows.length) rows.drop place page next) (hplace : place ≤ rows.length)
    (hfit : rows.length ≤ MAX_SAFE_INTEGER) :
    GoesOn place page.length (next.map natNumber) next := by
  cases h with
  | last all => exact .last
  | more place' some_row split reads_on =>
    have hlength := congrArg List.length split
    rw [length_append, length_drop, length_drop] at hlength
    have hpos := length_pos_of_ne_nil some_row
    exact .more (validNonNegativeInteger_nat.2 ⟨reads_on.trans hfit, rfl⟩) (by omega) (by omega)

theorem Serves.rest {κ β : Type} {known : κ → Prop} {left : κ → List β} {place : κ}
    {page : List β} {next : Option κ} (h : paging.Serves known left place page next) :
    ∃ rest, left place = page ++ rest := by
  cases h with
  | last all => exact ⟨[], by simp [all]⟩
  | more place' some_row split reads_on => exact ⟨_, split⟩

open Serves

/-- What was taken in, and what is left, are no more than what is stored. -/
theorem Serves.length_le {κ β : Type} {known : κ → Prop} {left : κ → List β} {place : κ}
    {taken page all : List β} {next : Option κ} (h : paging.Serves known left place page next)
    (hall : taken ++ left place = all) : (taken ++ page).length ≤ all.length := by
  obtain ⟨rest, hrest⟩ := rest h
  rw [← hall, hrest, ← append_assoc]
  exact (prefix_append ..).length_le

theorem framesFrom_nodup (session : StoredSession D P C) (place : Nat) :
    (framesFrom session place).Pairwise (storedSeq · < storedSeq ·) :=
  (pairwise_map.1 session.ordered).sublist filter_sublist

/-- The frames of a page lie in front of the place where the next one begins. -/
theorem Serves.frames_lt {next : Nat} {page : List WorkspaceHydratedFrame}
    (h : framesFrom session place = page ++ framesFrom session next)
    {frame : WorkspaceHydratedFrame} (hframe : frame ∈ page) : storedSeq frame < next := by
  by_contra hle
  have hstored : frame ∈ session.frames := by
    have hmem : frame ∈ framesFrom session place := h ▸ mem_append_left _ hframe
    exact mem_of_mem_filter hmem
  have hlater : frame ∈ framesFrom session next :=
    mem_filter.2 ⟨hstored, decide_eq_true (not_lt.1 hle)⟩
  have hordered := framesFrom_nodup session place
  rw [h] at hordered
  exact lt_irrefl _ ((pairwise_append.1 hordered).2.2 frame hframe frame hlater)

/-- Stored frames in their order ascend. -/
theorem ascends_stored {fromSeq : Nat} {previous : Int} {frames : List WorkspaceHydratedFrame}
    (hvalid : ∀ frame ∈ frames, validNonNegativeInteger frame.seq = some (storedSeq frame))
    (hordered : frames.Pairwise (storedSeq · < storedSeq ·))
    (hfrom : ∀ frame ∈ frames, fromSeq ≤ storedSeq frame)
    (hbehind : ∀ frame ∈ frames, previous < storedSeq frame) :
    ∃ last, Ascends fromSeq previous frames last ∧
      (last = previous ∨ ∃ frame ∈ frames, last = storedSeq frame) := by
  induction frames generalizing previous with
  | nil => exact ⟨previous, .nil, .inl rfl⟩
  | cons first rest ih =>
    obtain ⟨hfirst, hrest⟩ := pairwise_cons.1 hordered
    obtain ⟨last, hlast, hwhich⟩ := @ih (storedSeq first)
      (fun frame hframe => hvalid frame (mem_cons_of_mem _ hframe)) hrest
      (fun frame hframe => hfrom frame (mem_cons_of_mem _ hframe))
      (fun frame hframe => by exact_mod_cast hfirst frame hframe)
    refine ⟨last, .cons (hvalid first mem_cons_self) (hfrom first mem_cons_self)
      (hbehind first mem_cons_self) hlast, .inr ?_⟩
    rcases hwhich with rfl | ⟨frame, hframe, rfl⟩
    · exact ⟨first, mem_cons_self, rfl⟩
    · exact ⟨frame, mem_cons_of_mem _ hframe, rfl⟩

/-! ## The channels -/

section

variable {stringify : WorkspaceWaveformChannel C → String}

def channelEntry (channel : WorkspaceWaveformChannel C) : JsNumber × WorkspaceWaveformChannel C :=
  (mapKey channel.channelIndex, channel)

def channelMap (session : StoredSession D P C) : OrderedMap JsNumber (WorkspaceWaveformChannel C) :=
  session.channels.map channelEntry

/-- The first page puts the channels in. -/
theorem takeChannels_first {taken : OrderedMap JsNumber (WorkspaceWaveformChannel C)}
    {channels : List (WorkspaceWaveformChannel C)}
    (hnew : (taken.map Prod.fst ++ channels.map fun channel => mapKey channel.channelIndex).Nodup) :
    takeChannels stringify taken channels = .ok (taken ++ channels.map channelEntry) := by
  induction channels generalizing taken with
  | nil => simp [takeChannels]
  | cons channel rest ih =>
    have habsent : taken.get (mapKey channel.channelIndex) = none := by
      rw [get_eq_none]
      intro hmem
      rw [nodup_append] at hnew
      exact hnew.2.2 _ hmem _ (by simp) rfl
    have hset : taken.set (mapKey channel.channelIndex) channel = taken ++ [channelEntry channel] :=
      set_of_get_eq_none habsent channel
    simp only [takeChannels, habsent]
    rw [hset]
    show takeChannels stringify (taken ++ [channelEntry channel]) rest = _
    rw [ih]
    · simp [channelEntry]
    · simpa [channelEntry] using hnew

/-- A later page finds them as they are. -/
theorem takeChannels_again {taken : OrderedMap JsNumber (WorkspaceWaveformChannel C)}
    {channels : List (WorkspaceWaveformChannel C)}
    (hsame : ∀ channel ∈ channels, taken.get (mapKey channel.channelIndex) = some channel) :
    takeChannels stringify taken channels = .ok taken := by
  induction channels with
  | nil => rfl
  | cons channel rest ih =>
    have hget := hsame channel mem_cons_self
    simp only [takeChannels, hget, set_same hget]
    rw [bind_eq_ok]
    refine ⟨(), ?_, ih fun other hother => hsame other (mem_cons_of_mem _ hother)⟩
    simp

theorem takeChannels_stored (session : StoredSession D P C) :
    takeChannels stringify [] session.channels = .ok (channelMap session) ∧
      takeChannels stringify (channelMap session) session.channels = .ok (channelMap session) := by
  constructor
  · rw [takeChannels_first]
    · rfl
    · simpa using session.channels_once
  · apply takeChannels_again
    intro channel hchannel
    have hkeys : ((channelMap session).map Prod.fst).Nodup := by
      simpa [channelMap, channelEntry, Function.comp_def] using session.channels_once
    exact get_of_mem hkeys (mem_map_of_mem hchannel)

end

/-! ## The loops of a stored session -/

variable {stage : Stage} {adapter : SessionAdapter D F P K C} {s : State D F P K C}
  {stored : List (StoredSession D P C)} {lost : Prop}

/-- What the adapter asks of a stored session, as far as the loops ask it too. -/
structure Readable (session : StoredSession D P C) : Prop where
  few_frames : session.frames.length ≤ MAX_WORKSPACE_FRAMES_PER_SESSION
  few_messages : session.aiMessages.length ≤ MAX_WORKSPACE_AI_MESSAGES
  valid : ∀ frame ∈ session.frames,
    validNonNegativeInteger frame.seq = some (storedSeq frame)

/-- Each loop of a session has what is stored, up to its place. `lost` is what follows if one of
them has failed. -/
structure TaskExact (lost : Prop) (session : StoredSession D P C) (task : SessionTask P C) :
    Prop where
  collections : Complete lost (fun _ => True) (fun _ => [session.collections])
    [session.collections] toList task.collections
  frames : Complete lost (· ≤ MAX_SAFE_INTEGER) (framesFrom session) session.frames
    FramesTaken.frames task.frames
  aiMessages : Complete lost (· ≤ session.aiMessages.length) session.aiMessages.drop
    session.aiMessages id task.aiMessages
  samples : Complete lost (· ≤ session.samples.length) session.samples.drop session.samples
    WaveformTaken.samples task.waveform
  channels : Taken (fun pages taken => (pages = [] ∧ taken.channels = []) ∨
    taken.channels = channelMap session) task.waveform

theorem framesFrom_zero (session : StoredSession D P C) :
    framesFrom session 0 = session.frames := by
  simp [framesFrom]

theorem taskExact_start {calls : Nat}
    (hdraw : ¬lost → ∀ n, ∃ request, nextRequestId stage n = .ok request)
    (h : (startSession stage calls).1 = .ok task) : TaskExact lost session task := by
  obtain ⟨request, a, b, c, rfl⟩ := startSession_ok h
  constructor
  · exact ⟨trivial, rfl⟩
  · apply complete_ask hdraw
    · exact Nat.zero_le _
    · exact framesFrom_zero session
  · apply complete_ask hdraw
    · exact Nat.zero_le _
    · rfl
  · apply complete_ask hdraw
    · exact Nat.zero_le _
    · rfl
  · apply taken_ask
    exact .inl ⟨rfl, rfl⟩

theorem TaskExact.failure (h : TaskExact lost session task) (hkept : ¬lost) :
    task.failure = none := by
  simp [SessionTask.failure, h.collections.failure hkept, h.frames.failure hkept,
    h.aiMessages.failure hkept, h.samples.failure hkept]

/-- The loops of a session that has all have what is stored. -/
theorem TaskExact.parts {parts : WorkspaceSessionHydrationParts P C}
    (h : TaskExact lost session task) (hsound : TaskSound stage adapter sessionId task)
    (hparts : task.parts = some parts) : parts = session.parts := by
  unfold SessionTask.parts at hparts
  split at hparts
  · rename_i collections frames aiMessages waveform hcollections hframes hmessages hwaveform
    cases hparts
    have hcollected := h.collections.of_result hcollections
    have hframed := h.frames.of_result hframes
    have hmessaged := h.aiMessages.of_result hmessages
    have hsampled := h.samples.of_result hwaveform
    have hpages := (hsound.waveform.reads hwaveform).pages_ne_nil
    have hchannels := (h.channels.of_result hwaveform).resolve_left fun hnone => hpages hnone.1
    simp only [toList_some, List.cons.injEq, and_true] at hcollected
    simp only [StoredSession.parts, hcollected, hframed, hsampled, hchannels]
    simp only [id_eq] at hmessaged
    simp [hmessaged, channelMap, channelEntry, Function.comp_def]
  · cases hparts

/-- Behind the pages that a loop has taken in lie the frames that it has still to read. -/
theorem previousSeq_lt {loop : FramesLoop} (h : Sound (takeFrames stage sessionId) 0 {} loop)
    (hwaiting : loop.phase = .waiting requestId place taken) : taken.previousSeq < place := by
  obtain ⟨phase, pages⟩ := loop
  cases hwaiting
  have hreads : Reads (takeFrames stage sessionId) 0 {} pages taken (some place) := h
  generalize hnext : some place = next at hreads
  cases hreads with
  | start =>
    cases hnext
    decide
  | @page _ _ _ _ _ _ page before accepted =>
    subst hnext
    obtain ⟨envelope, rows, nextSeq⟩ := page
    obtain ⟨-, _, -, -, -, -, -, hgoes⟩ := takeFrames_ok.1 accepted
    cases hgoes with
    | more valid some_frame behind => exact behind

/-- What a page of frames that is taken in has come from. -/
theorem takeFrames_serves {taken' : FramesTaken} {response : FramesResponse} {next : Option Nat}
    (hanswers : AnswersFrames session stage.framePageSize place response.frames response.nextSeq)
    (h : takeFrames stage sessionId requestId place taken response = .ok (taken', next)) :
    ∃ rows, taken'.frames = taken.frames ++ rows ∧
      paging.Serves (· ≤ MAX_SAFE_INTEGER) (framesFrom session) place rows next := by
  obtain ⟨rows, stored, hrows, -, hnext, hserves⟩ := hanswers
  obtain ⟨-, page, hpage, -, -, hframes, -, hgoes⟩ := takeFrames_ok.1 h
  cases hrows.symm.trans hpage
  rw [hnext] at hgoes
  rw [hgoes.next]
  exact ⟨_, hframes, hserves⟩

/-- A page of the stored frames is taken in. -/
theorem takeFrames_stored (hreadable : Readable session) {response : FramesResponse}
    (hprevious : taken.previousSeq < place)
    (hall : taken.frames ++ framesFrom session place = session.frames)
    (hecho : Echoes stage requestId (some sessionId) response.envelope)
    (hanswers : AnswersFrames session stage.framePageSize place response.frames response.nextSeq) :
    ∃ accepted, takeFrames stage sessionId requestId place taken response = .ok accepted := by
  obtain ⟨rows, next, hrows, hfits, hnext, hserves⟩ := hanswers
  obtain ⟨rest, hrest⟩ := rest hserves
  have hfrom : ∀ frame ∈ rows, frame ∈ session.frames ∧ place ≤ storedSeq frame := by
    intro frame hframe
    have hmem : frame ∈ framesFrom session place := hrest ▸ mem_append_left _ hframe
    obtain ⟨hstored, hle⟩ := mem_filter.1 hmem
    exact ⟨hstored, of_decide_eq_true hle⟩
  have hordered : rows.Pairwise (storedSeq · < storedSeq ·) := by
    have hpairwise := framesFrom_nodup session place
    rw [hrest] at hpairwise
    exact (pairwise_append.1 hpairwise).1
  obtain ⟨last, hascends, hlast⟩ := @ascends_stored place taken.previousSeq rows
    (fun frame hframe => hreadable.valid frame (hfrom frame hframe).1) hordered
    (fun frame hframe => (hfrom frame hframe).2)
    (fun frame hframe => by
      have hle := (hfrom frame hframe).2
      omega)
  have hgoes : FramesGoOn last rows.length response.nextSeq next := by
    rw [hnext]
    cases hserves with
    | last all => exact .last
    | more place' some_row split reads_on =>
      refine .more (validNonNegativeInteger_nat.2 ⟨reads_on, rfl⟩)
        (length_pos_of_ne_nil some_row).ne' ?_
      obtain ⟨first, hfirst⟩ := exists_mem_of_ne_nil rows some_row
      have hlt := frames_lt split hfirst
      rcases hlast with rfl | ⟨frame, hframe, rfl⟩
      · have hle := (hfrom first hfirst).2
        omega
      · exact_mod_cast frames_lt split hframe
  have hfew : (taken.frames ++ rows).length ≤ MAX_WORKSPACE_FRAMES_PER_SESSION :=
    (length_le hserves hall).trans hreadable.few_frames
  exact ⟨({ frames := taken.frames ++ rows, previousSeq := last }, next),
    takeFrames_ok.2 ⟨hecho, rows, hrows, hfits, hascends, rfl, hfew, hgoes⟩⟩

theorem takeAiMessages_serves {taken taken' : List WorkspaceAiMessage}
    {response : AiMessagesResponse} {next : Option Nat}
    (hanswers : AnswersList session.aiMessages stage.aiPageSize place response.messages
      response.nextOffset)
    (h : takeAiMessages stage sessionId requestId place taken response = .ok (taken', next)) :
    ∃ rows, taken' = taken ++ rows ∧
      paging.Serves (· ≤ session.aiMessages.length) session.aiMessages.drop place rows next := by
  obtain ⟨rows, stored, hrows, -, hnext, hserves⟩ := hanswers
  obtain ⟨-, page, hpage, -, hmessages, -, hgoes⟩ := takeAiMessages_ok.1 h
  cases hrows.symm.trans hpage
  rw [hnext] at hgoes
  rw [hgoes.next]
  exact ⟨_, hmessages, hserves⟩

theorem takeAiMessages_stored (hreadable : Readable session) {taken : List WorkspaceAiMessage}
    {response : AiMessagesResponse} (hplace : place ≤ session.aiMessages.length)
    (hall : taken ++ session.aiMessages.drop place = session.aiMessages)
    (hecho : Echoes stage requestId (some sessionId) response.envelope)
    (hanswers : AnswersList session.aiMessages stage.aiPageSize place response.messages
      response.nextOffset) :
    ∃ accepted, takeAiMessages stage sessionId requestId place taken response = .ok accepted := by
  obtain ⟨rows, next, hrows, hfits, hnext, hserves⟩ := hanswers
  have hfit : session.aiMessages.length ≤ MAX_SAFE_INTEGER :=
    hreadable.few_messages.trans (by decide)
  have hgoes : GoesOn place rows.length response.nextOffset next :=
    hnext ▸ goesOn hserves hplace hfit
  have hfew : (taken ++ rows).length ≤ MAX_WORKSPACE_AI_MESSAGES :=
    (length_le hserves hall).trans hreadable.few_messages
  exact ⟨(taken ++ rows, next), takeAiMessages_ok.2 ⟨hecho, rows, hrows, hfits, rfl, hfew, hgoes⟩⟩

theorem takeWaveform_serves {stringify : WorkspaceWaveformChannel C → String}
    {taken taken' : WaveformTaken C} {response : WaveformResponse C} {next : Option Nat}
    (hanswers : AnswersList session.samples stage.waveformPageSize place response.samples
      response.nextOffset)
    (h : takeWaveform stage stringify sessionId requestId place taken response = .ok (taken', next))
    :
    ∃ rows, taken'.samples = taken.samples ++ rows ∧
      paging.Serves (· ≤ session.samples.length) session.samples.drop place rows next := by
  obtain ⟨rows, stored, hrows, -, hnext, hserves⟩ := hanswers
  obtain ⟨-, _, page, -, hpage, -, -, hsamples, hgoes⟩ := takeWaveform_ok.1 h
  cases hrows.symm.trans hpage
  rw [hnext] at hgoes
  rw [hgoes.next]
  exact ⟨_, hsamples, hserves⟩

theorem takeWaveform_stored {stringify : WorkspaceWaveformChannel C → String}
    {taken : WaveformTaken C} {response : WaveformResponse C}
    (hplace : place ≤ session.samples.length)
    (hchannels : taken.channels = [] ∨ taken.channels = channelMap session)
    (hecho : Echoes stage requestId (some sessionId) response.envelope)
    (hsame : response.channels = some session.channels)
    (hanswers : AnswersList session.samples stage.waveformPageSize place response.samples
      response.nextOffset) :
    ∃ accepted, takeWaveform stage stringify sessionId requestId place taken response =
      .ok accepted := by
  obtain ⟨rows, next, hrows, hfits, hnext, hserves⟩ := hanswers
  have hgoes : GoesOn place rows.length response.nextOffset next :=
    hnext ▸ goesOn hserves hplace session.samples_fit
  have htake : takeChannels stringify taken.channels session.channels =
      .ok (channelMap session) := by
    rcases hchannels with hnone | hmap
    · rw [hnone]
      exact (takeChannels_stored session).1
    · rw [hmap]
      exact (takeChannels_stored session).2
  exact ⟨({ channels := channelMap session, samples := taken.samples ++ rows }, next),
    takeWaveform_ok.2 ⟨hecho, session.channels, rows, hsame, hrows, hfits, htake, rfl, hgoes⟩⟩

/-- A consistent answer keeps the loops exact. -/
theorem TaskExact.moves {index : Nat} {item : Item D F P K C} {task' : SessionTask P C}
    {e : Event D P C} (h : TaskExact lost session task)
    (hdraw : ¬lost → ∀ n, ∃ request, nextRequestId stage n = .ok request)
    (hreadable : ¬lost → Readable session) (hsound : TaskSound stage adapter item.snapshot.id task)
    (hitem : s.items[index]? = some item) (hphase : item.phase = .staging task)
    (hsession : stored[index]? = some session) (hconsistent : Consistent stage stored s e)
    (hmoves : TaskMoves stage adapter s.calls index item.snapshot.id task e task') :
    TaskExact lost session task' := by
  cases hmoves with
  | @collections response =>
    refine ⟨?_, h.frames, h.aiMessages, h.samples, h.channels⟩
    apply h.collections.answer hdraw
    intro requestId place taken hwaiting _ hall
    obtain ⟨page, rfl, hecho, hpage⟩ :=
      hconsistent item task session requestId place taken hitem hphase hsession hwaiting
    refine ⟨page, rfl, ?_, fun _ => ⟨_, takeCollections_ok.2 ⟨hecho, rfl, rfl⟩⟩⟩
    intro taken' next hok
    obtain ⟨-, rfl, rfl⟩ := takeCollections_ok.1 hok
    refine ⟨[page.collections], ?_, .last (by rw [hpage])⟩
    cases taken with
    | none => rfl
    | some before => simp at hall
  | @frames response waiting =>
    refine ⟨h.collections, ?_, h.aiMessages, h.samples, h.channels⟩
    apply h.frames.answer hdraw
    intro requestId place taken hwaiting _ hall
    obtain ⟨page, rfl, hecho, hanswers⟩ :=
      hconsistent item task session requestId place taken hitem hphase hsession hwaiting
    have hobserved : observedAnswer (.ok page) = .ok page := by
      obtain ⟨rows, _, hrows, -⟩ := hanswers
      simp [observedAnswer, hrows]
    exact ⟨page, hobserved, fun _ _ hok => takeFrames_serves hanswers hok, fun hkept =>
      takeFrames_stored (hreadable hkept) (previousSeq_lt hsound.frames hwaiting) hall hecho
        hanswers⟩
  | @aiMessages response =>
    refine ⟨h.collections, h.frames, ?_, h.samples, h.channels⟩
    apply h.aiMessages.answer hdraw
    intro requestId place taken hwaiting hknown hall
    obtain ⟨page, rfl, hecho, hanswers⟩ :=
      hconsistent item task session requestId place taken hitem hphase hsession hwaiting
    exact ⟨page, rfl, fun _ _ hok => takeAiMessages_serves hanswers hok, fun hkept =>
      takeAiMessages_stored (hreadable hkept) hknown hall hecho hanswers⟩
  | @waveform response =>
    refine ⟨h.collections, h.frames, h.aiMessages, ?_, ?_⟩
    · apply h.samples.answer hdraw
      intro requestId place taken hwaiting hknown hall
      obtain ⟨page, rfl, hecho, hsame, hanswers⟩ :=
        hconsistent item task session requestId place taken hitem hphase hsession hwaiting
      have hchannels : taken.channels = [] ∨ taken.channels = channelMap session := by
        have htaken := h.channels
        rw [Taken, hwaiting] at htaken
        exact htaken.imp (·.2) id
      exact ⟨page, rfl, fun _ _ hok => takeWaveform_serves hanswers hok, fun _ =>
        takeWaveform_stored hknown hchannels hecho hsame hanswers⟩
    · apply h.channels.answer
      intro requestId place taken page taken' next hwaiting hresponse htaken accepted
      obtain ⟨page', hsome, -, hsame, -⟩ :=
        hconsistent item task session requestId place taken hitem hphase hsession hwaiting
      rw [hsome] at hresponse
      cases hresponse
      obtain ⟨-, channels, -, hchannels, -, -, hmap, -⟩ := takeWaveform_ok.1 accepted
      rw [hsame] at hchannels
      cases hchannels
      right
      rcases htaken with ⟨-, hnone⟩ | hold
      · rw [hnone, (takeChannels_stored session).1] at hmap
        exact (Except.ok.inj hmap).symm
      · rw [hold, (takeChannels_stored session).2] at hmap
        exact (Except.ok.inj hmap).symm

end bbcom.hydration_staging
