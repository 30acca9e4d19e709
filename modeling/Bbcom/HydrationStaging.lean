-- The staging of a workspace (`workspace-hydration-staging.ts`), with the port that keeps the
-- high-water marks of the frame sequences (`abortable-hydration-port.ts`) and what the pipeline
-- installs of it (`hydration-pipeline.ts`). An event is one answer of the server, or the
-- continuation behind the loops of one session.
import Bbcom.Lib.PageLoop
import Bbcom.WorkspaceSessionAdapter

open bbcom.js bbcom.serial bbcom.ordered_map bbcom.page_loop bbcom.session_adapter
open bbcom.contracts (MAX_WORKSPACE_SESSIONS MAX_WORKSPACE_FRAMES MAX_WORKSPACE_FRAMES_PER_SESSION
  MAX_WORKSPACE_CAPTURE_BYTES MAX_WORKSPACE_AI_MESSAGES)
open bbcom.capture (validNonNegativeInteger)

namespace bbcom.hydration_staging

/-! ## Answers -/

/-- What an answer says it answers. Only the list of the sessions names no session. -/
structure Envelope where
  requestId : String
  workspaceId : String
  sessionId : Option String := none
  revision : JsNumber
  otherKeys : List String := []
  deriving DecidableEq

/-- Lists are `none` where they are not arrays. -/
structure SessionsResponse (D : Type) where
  envelope : Envelope
  sessions : Option (List (WorkspaceSessionSnapshot D))
  nextOffset : Option JsNumber
  deriving DecidableEq

structure CollectionsResponse (P : Type) where
  envelope : Envelope
  collections : P
  deriving DecidableEq

structure FramesResponse where
  envelope : Envelope
  frames : Option (List WorkspaceHydratedFrame)
  nextSeq : Option JsNumber
  deriving DecidableEq

structure AiMessagesResponse where
  envelope : Envelope
  messages : Option (List WorkspaceAiMessage)
  nextOffset : Option JsNumber
  deriving DecidableEq

structure WaveformResponse (C : Type) where
  envelope : Envelope
  channels : Option (List (WorkspaceWaveformChannel C))
  samples : Option (List WorkspaceWaveformSample)
  nextOffset : Option JsNumber
  deriving DecidableEq

/-! ## Options -/

/-- The options, as `stageWorkspaceHydration` goes on with them behind their checks. `requestId` is
what the factory gives out, call by call. -/
structure Stage where
  workspaceId : String
  revision : Nat
  activeSessionId : Option String
  requestId : Nat → String
  sessionPageSize : Nat
  framePageSize : Nat
  aiPageSize : Nat
  waveformPageSize : Nat
  concurrency : Nat
  workers : 0 < concurrency

section

variable {D F P K C : Type} (stage : Stage)

@[irreducible] def nextRequestId (call : Nat) : Adapted String :=
  workspaceIdentifier (stage.requestId call) "requestId"

def assertResponse (requestId : String) (sessionId : Option String) (envelope : Envelope) :
    Adapted Unit :=
  validUnless
    (envelope.requestId ≠ requestId ∨ envelope.workspaceId ≠ stage.workspaceId ∨
      validNonNegativeInteger envelope.revision ≠ some stage.revision ∨
      (sessionId ≠ none ∧ envelope.sessionId ≠ sessionId))
    "hydrate.responseEnvelope"

/-- A list that is an array, and no longer than it may be. -/
def pageOf {α : Type} (rows : Option (List α)) (limit : Nat) (field : String) :
    Adapted (List α) := do
  let rows ← orInvalid rows field
  validUnless (rows.length > limit) field
  pure rows

/-! ## Taking pages in -/

def takeSessions (requestId : String) (offset : Nat) (sessions : List (WorkspaceSessionSnapshot D))
    (response : SessionsResponse D) :
    Adapted (List (WorkspaceSessionSnapshot D) × Option Nat) := do
  assertResponse stage requestId none response.envelope
  assertExactKeys response.envelope.otherKeys "sessions.response"
  let page ← pageOf response.sessions stage.sessionPageSize "sessions.page"
  assertLimit "workspaceSessions" MAX_WORKSPACE_SESSIONS (sessions ++ page).length
  match response.nextOffset with
  | none => pure (sessions ++ page, none)
  | some nextOffset => do
    let next ← nonNegativeInteger nextOffset "sessions.nextOffset"
    validUnless (page.length = 0 ∨ next ≤ offset ∨ next ≠ offset + page.length)
      "sessions.nextOffset"
    pure (sessions ++ page, some next)

def takeCollections (sessionId : String) (requestId : String) (_ : Unit) (_ : Option P)
    (response : CollectionsResponse P) : Adapted (Option P × Option Unit) := do
  assertResponse stage requestId (some sessionId) response.envelope
  assertExactKeys response.envelope.otherKeys "collections.response"
  pure (some response.collections, none)

/-- The sequence number of the last of the frames, which follow `previousSeq` in order. -/
def checkSequences (fromSeq : Nat) (previousSeq : Int) :
    List WorkspaceHydratedFrame → Adapted Int
  | [] => .ok previousSeq
  | frame :: rest => do
    let seq ← nonNegativeInteger frame.seq "frames.seq"
    validUnless (seq < fromSeq ∨ seq ≤ previousSeq) "frames.seq"
    checkSequences fromSeq seq rest

/-- `frames`, and `previousSeq` of the last of them. -/
structure FramesTaken where
  frames : List WorkspaceHydratedFrame := []
  previousSeq : Int := -1
  deriving DecidableEq

def takeFrames (sessionId : String) (requestId : String) (fromSeq : Nat) (taken : FramesTaken)
    (response : FramesResponse) : Adapted (FramesTaken × Option Nat) := do
  assertResponse stage requestId (some sessionId) response.envelope
  assertExactKeys response.envelope.otherKeys "frames.response"
  let page ← pageOf response.frames stage.framePageSize "frames.page"
  let previousSeq ← checkSequences fromSeq taken.previousSeq page
  assertLimit "sessionFrames" MAX_WORKSPACE_FRAMES_PER_SESSION (taken.frames ++ page).length
  match response.nextSeq with
  | none => pure ({ frames := taken.frames ++ page, previousSeq }, none)
  | some nextSeq => do
    let next ← nonNegativeInteger nextSeq "frames.nextSeq"
    validUnless (page.length = 0 ∨ next ≤ previousSeq) "frames.nextSeq"
    pure ({ frames := taken.frames ++ page, previousSeq }, some next)

def takeAiMessages (sessionId : String) (requestId : String) (offset : Nat)
    (messages : List WorkspaceAiMessage) (response : AiMessagesResponse) :
    Adapted (List WorkspaceAiMessage × Option Nat) := do
  assertResponse stage requestId (some sessionId) response.envelope
  assertExactKeys response.envelope.otherKeys "aiMessages.response"
  let page ← pageOf response.messages stage.aiPageSize "aiMessages.page"
  assertLimit "aiMessages" MAX_WORKSPACE_AI_MESSAGES (messages ++ page).length
  match response.nextOffset with
  | none => pure (messages ++ page, none)
  | some nextOffset => do
    let next ← nonNegativeInteger nextOffset "aiMessages.nextOffset"
    validUnless (next ≤ offset ∨ next ≠ offset + page.length) "aiMessages.nextOffset"
    pure (messages ++ page, some next)

/-- `channelMap` and `samples`. -/
structure WaveformTaken (C : Type) where
  channels : OrderedMap JsNumber (WorkspaceWaveformChannel C) := []
  samples : List WorkspaceWaveformSample := []
  deriving DecidableEq

/-- Every page carries the channels; one that has changed is refused. -/
def takeChannels (stringify : WorkspaceWaveformChannel C → String)
    (channels : OrderedMap JsNumber (WorkspaceWaveformChannel C)) :
    List (WorkspaceWaveformChannel C) →
      Adapted (OrderedMap JsNumber (WorkspaceWaveformChannel C))
  | [] => .ok channels
  | channel :: rest => do
    let existing := channels.get (mapKey channel.channelIndex)
    validUnless (existing.any fun existing => stringify existing ≠ stringify channel)
      "waveform.channels"
    takeChannels stringify (channels.set (mapKey channel.channelIndex) channel) rest

def takeWaveform (stringify : WorkspaceWaveformChannel C → String) (sessionId : String)
    (requestId : String) (offset : Nat) (taken : WaveformTaken C) (response : WaveformResponse C) :
    Adapted (WaveformTaken C × Option Nat) := do
  assertResponse stage requestId (some sessionId) response.envelope
  assertExactKeys response.envelope.otherKeys "waveform.response"
  let page ← orInvalid response.channels "waveform.page"
  let samples ← pageOf response.samples stage.waveformPageSize "waveform.page"
  let channels ← takeChannels stringify taken.channels page
  match response.nextOffset with
  | none => pure ({ channels, samples := taken.samples ++ samples }, none)
  | some nextOffset => do
    let next ← nonNegativeInteger nextOffset "waveform.nextOffset"
    validUnless (next ≤ offset ∨ next ≠ offset + samples.length) "waveform.nextOffset"
    pure ({ channels, samples := taken.samples ++ samples }, some next)

/-! ## The loops of one session -/

abbrev SessionsLoop (D : Type) :=
  Loop String Nat (List (WorkspaceSessionSnapshot D)) (SessionsResponse D) WorkspaceAdapterError
abbrev CollectionsLoop (P : Type) :=
  Loop String Unit (Option P) (CollectionsResponse P) WorkspaceAdapterError
abbrev FramesLoop := Loop String Nat FramesTaken FramesResponse WorkspaceAdapterError
abbrev AiMessagesLoop :=
  Loop String Nat (List WorkspaceAiMessage) AiMessagesResponse WorkspaceAdapterError
abbrev WaveformLoop (C : Type) :=
  Loop String Nat (WaveformTaken C) (WaveformResponse C) WorkspaceAdapterError

/-- `hydrateSessionParts`: four requests at a time. -/
structure SessionTask (P C : Type) where
  collections : CollectionsLoop P
  frames : FramesLoop
  aiMessages : AiMessagesLoop
  waveform : WaveformLoop C
  deriving DecidableEq

/-- What the loops have, once all of them have all. -/
def SessionTask.parts (task : SessionTask P C) : Option (WorkspaceSessionHydrationParts P C) :=
  match task.collections.result, task.frames.result, task.aiMessages.result,
    task.waveform.result with
  | some (some collections), some frames, some aiMessages, some waveform =>
    some
      { frames := frames.frames
        collections
        aiMessages
        waveformChannels := waveform.channels.map (·.2)
        waveformSamples := waveform.samples }
  | _, _, _, _ => none

/-- The first loop that has failed is what `Promise.all` rejects with. -/
def SessionTask.failure (task : SessionTask P C) : Option WorkspaceAdapterError :=
  task.collections.failure.or
    (task.frames.failure.or (task.aiMessages.failure.or task.waveform.failure))

/-- The requests go out in the order in which their ids are drawn. -/
def startSession (calls : Nat) : Adapted (SessionTask P C) × Nat :=
  match nextRequestId stage calls with
  | .error error => (.error error, calls + 1)
  | .ok collectionsId =>
    let (frames, calls) := ask (nextRequestId stage) (calls + 1) 0 {} []
    let (aiMessages, calls) := ask (nextRequestId stage) calls 0 [] []
    let (waveform, calls) := ask (nextRequestId stage) calls 0 {} []
    (.ok { collections := ⟨.waiting collectionsId () none, []⟩, frames, aiMessages, waveform },
      calls)

/-! ## The staging -/

inductive ItemPhase (F P K C : Type)
  | queued
  | staging (task : SessionTask P C)
  | staged (task : SessionTask P C) (hydrated : HydratedWorkspaceSession F K C)
  | rejected
  deriving DecidableEq

/-- A session of the list, and how far its staging is. -/
structure Item (D F P K C : Type) where
  snapshot : WorkspaceSessionSnapshot D
  phase : ItemPhase F P K C := .queued
  deriving DecidableEq

structure WorkspaceHydrationStaging (F K C : Type) where
  workspaceId : String
  revision : Nat
  activeSessionId : Option String
  sessions : List (HydratedWorkspaceSession F K C)
  deriving DecidableEq

structure State (D F P K C : Type) where
  sessions : SessionsLoop D
  items : List (Item D F P K C) := []
  /-- The index that the next free worker takes. -/
  next : Nat := 0
  calls : Nat := 0
  /-- The map of `observeWorkspaceFrameSequences`; `⊤` is the infinity of the language. -/
  nextSequences : OrderedMap String (WithTop Nat) := []
  /-- How the promise of the staging has settled. -/
  outcome : Option (Adapted (WorkspaceHydrationStaging F K C)) := none
  deriving DecidableEq

variable (adapter : SessionAdapter D F P K C)

/-- A promise settles once. -/
def State.settleWith (s : State D F P K C)
    (outcome : Adapted (WorkspaceHydrationStaging F K C)) : State D F P K C :=
  match s.outcome with
  | none => { s with outcome := some outcome }
  | some _ => s

def State.rejectWith (s : State D F P K C) (failure : Option WorkspaceAdapterError) :
    State D F P K C :=
  match failure with
  | some error => s.settleWith (.error error)
  | none => s

def State.setItem (s : State D F P K C) (index : Nat) (item : Item D F P K C) :
    State D F P K C :=
  { s with items := s.items.set index item }

/-- What a worker does when it is free. -/
def State.takeNext (s : State D F P K C) : State D F P K C :=
  match s.items[s.next]? with
  | none => s
  | some item =>
    let (started, calls) := startSession stage s.calls
    match started with
    | .error error =>
      ({ s with next := s.next + 1, calls }.setItem s.next
        { item with phase := .rejected }).settleWith (.error error)
    | .ok task =>
      ({ s with next := s.next + 1, calls }.setItem s.next
        { item with phase := .staging task }).rejectWith task.failure

/-- As many workers as may work at a time. -/
def State.startWorkers (s : State D F P K C) : Nat → State D F P K C
  | 0 => s
  | workers + 1 => (s.takeNext stage).startWorkers workers

def Item.hydrated (item : Item D F P K C) : Option (HydratedWorkspaceSession F K C) :=
  match item.phase with
  | .staged _ hydrated => some hydrated
  | _ => none

/-- The ids of the list, if each is one and is there once. -/
def sessionIdsOf (snapshots : List (WorkspaceSessionSnapshot D)) : Adapted (List String) := do
  let sessionIds ← snapshots.mapM fun snapshot => workspaceIdentifier snapshot.id "snapshot.id"
  assertUniqueIds sessionIds "snapshot.id"
  pure sessionIds

/-- What `stageWorkspaceHydration` does behind `mapConcurrent`. -/
def conclude (snapshots : List (WorkspaceSessionSnapshot D))
    (hydrated : List (HydratedWorkspaceSession F K C)) :
    Adapted (WorkspaceHydrationStaging F K C) := do
  let sessionIds ← sessionIdsOf snapshots
  assertLimit "workspaceFrames" MAX_WORKSPACE_FRAMES
    (hydrated.map fun entry => entry.session.frames.length).sum
  assertLimit "workspaceCaptureBytes" MAX_WORKSPACE_CAPTURE_BYTES
    (hydrated.map fun entry => framesByteLength entry.session.frames).sum
  -- an empty id is none
  let activeSessionId ← match stage.activeSessionId.filter (· ≠ "") with
    | none => pure none
    | some id => (workspaceIdentifier id "activeSessionId").map some
  validUnless (activeSessionId.any (· ∉ sessionIds)) "activeSessionId"
  pure
    { workspaceId := stage.workspaceId
      revision := stage.revision
      activeSessionId
      sessions := hydrated }

/-- `mapConcurrent` ends when no worker is left and each item has its result. -/
def State.finish (s : State D F P K C) : State D F P K C :=
  match s.items.mapM Item.hydrated with
  | none => s
  | some hydrated => s.settleWith (conclude stage (s.items.map (·.snapshot)) hydrated)

/-- What the list of the sessions leads on to, once it is there. -/
def State.begin (s : State D F P K C) (snapshots : List (WorkspaceSessionSnapshot D)) :
    State D F P K C :=
  match sessionIdsOf snapshots with
  | .error error => s.settleWith (.error error)
  | .ok _ =>
    let s := { s with items := snapshots.map fun snapshot => { snapshot } }
    (s.startWorkers stage stage.concurrency).finish stage

/-- A sequence number, or infinity where it is not safe. -/
def orInfinity : Option Nat → WithTop Nat
  | some next => WithTop.some next
  | none => ⊤

/-- The sequence number behind that of a frame; what is no sequence number is passed over. -/
def sequenceBehind (frame : WorkspaceHydratedFrame) : Option (WithTop Nat) :=
  (validNonNegativeInteger frame.seq).map fun (seq : Nat) =>
    orInfinity (validNonNegativeInteger (.finite ((seq + 1 : Nat) : ℚ)))

/-- `observeWorkspaceFrameSequences`, on an answer to a request for frames. -/
def observe (nextSequences : OrderedMap String (WithTop Nat)) (sessionId : String) :
    List WorkspaceHydratedFrame → OrderedMap String (WithTop Nat)
  | [] => nextSequences
  | frame :: rest =>
    match sequenceBehind frame with
    | none => observe nextSequences sessionId rest
    | some next =>
      let known := (nextSequences.get sessionId).getD (WithTop.some 0)
      observe (nextSequences.set sessionId (max known next)) sessionId rest

/-- What the port hands on; it throws on frames that are no list. -/
def observedAnswer : Adapted FramesResponse → Adapted FramesResponse
  | .ok response => if response.frames.isSome then .ok response else .error .port
  | .error error => .error error

def framesOfAnswer : Adapted FramesResponse → List WorkspaceHydratedFrame
  | .ok response => response.frames.getD []
  | .error _ => []

/-! ## Events -/

inductive Event (D P C : Type)
  | sessions (response : Adapted (SessionsResponse D))
  | collections (index : Nat) (response : Adapted (CollectionsResponse P))
  | frames (index : Nat) (response : Adapted FramesResponse)
  | aiMessages (index : Nat) (response : Adapted AiMessagesResponse)
  | waveform (index : Nat) (response : Adapted (WaveformResponse C))
  /-- The continuation behind the loops of a session. -/
  | settle (index : Nat)

/-- Put the loops of a session back, behind an answer. -/
def State.setTask (s : State D F P K C) (index : Nat) (item : Item D F P K C)
    (task : SessionTask P C) (calls : Nat) : State D F P K C :=
  ({ s with calls }.setItem index { item with phase := .staging task }).rejectWith task.failure

def State.answerSessions (s : State D F P K C) (response : Adapted (SessionsResponse D)) :
    State D F P K C :=
  let (loop, calls) := answer (takeSessions stage) (nextRequestId stage) s.calls s.sessions response
  let s := { s with sessions := loop, calls }.rejectWith loop.failure
  match loop.result with
  | some snapshots => s.begin stage snapshots
  | none => s

def State.settleSession (s : State D F P K C) (index : Nat) (item : Item D F P K C)
    (task : SessionTask P C) : State D F P K C :=
  match task.parts with
  | none => s
  | some parts =>
    match hydrateWorkspaceSession adapter item.snapshot parts with
    | .error error => (s.setItem index { item with phase := .rejected }).settleWith (.error error)
    | .ok hydrated =>
      ((s.setItem index { item with phase := .staged task hydrated }).takeNext stage).finish stage

/-- The loop that waits for the event, if there is one. -/
def State.onTask (s : State D F P K C) (index : Nat)
    (go : Item D F P K C → SessionTask P C → State D F P K C) : State D F P K C :=
  match s.items[index]? with
  | none => s
  | some item =>
    match item.phase with
    | .staging task => go item task
    | _ => s

def step (s : State D F P K C) : Event D P C → State D F P K C
  | .sessions response => if s.sessions.isWaiting then s.answerSessions stage response else s
  | .collections index response => s.onTask index fun item task =>
    let (loop, calls) := answer (takeCollections stage item.snapshot.id) (nextRequestId stage)
      s.calls task.collections response
    s.setTask index item { task with collections := loop } calls
  | .frames index response => s.onTask index fun item task =>
    if task.frames.isWaiting then
      let (loop, calls) := answer (takeFrames stage item.snapshot.id) (nextRequestId stage) s.calls
        task.frames (observedAnswer response)
      let nextSequences := observe s.nextSequences item.snapshot.id (framesOfAnswer response)
      { s with nextSequences }.setTask index item { task with frames := loop } calls
    else s
  | .aiMessages index response => s.onTask index fun item task =>
    let (loop, calls) := answer (takeAiMessages stage item.snapshot.id) (nextRequestId stage)
      s.calls task.aiMessages response
    s.setTask index item { task with aiMessages := loop } calls
  | .waveform index response => s.onTask index fun item task =>
    let (loop, calls) := answer (takeWaveform stage adapter.stringify item.snapshot.id)
      (nextRequestId stage) s.calls task.waveform response
    s.setTask index item { task with waveform := loop } calls
  | .settle index => s.onTask index fun item task => s.settleSession stage adapter index item task

/-- The call of `stageWorkspaceHydration`, up to its first request. -/
def start : State D F P K C :=
  let (sessions, calls) := ask (nextRequestId stage) 0 0 [] []
  ({ sessions, calls } : State D F P K C).rejectWith sessions.failure

/-! ## What the pipeline installs -/

/-- An entry of `captureAccounting.replaceWorkspace`. -/
structure CaptureAccountingEntry where
  sessionId : String
  nextSequence : WithTop Nat
  frameCount : Nat
  captureBytes : Nat
  deriving DecidableEq

def accountingEntry (frameNextSequences : OrderedMap String (WithTop Nat))
    (entry : HydratedWorkspaceSession F K C) : CaptureAccountingEntry where
  sessionId := entry.session.id
  nextSequence := (frameNextSequences.get entry.session.id).getD (WithTop.some 0)
  frameCount := entry.session.frames.length
  captureBytes := framesByteLength entry.session.frames

/-- `installHydratedWorkspace`, for the capture accounting. -/
def accountingEntries (staging : WorkspaceHydrationStaging F K C)
    (frameNextSequences : OrderedMap String (WithTop Nat)) : List CaptureAccountingEntry :=
  staging.sessions.map (accountingEntry frameNextSequences)

end

end bbcom.hydration_staging
