-- The save queue of captured frames (`frame-save-queue.ts`): frames wait until a timer, a full
-- queue or a drain releases them, and leave as append commands of contiguous frames, one group
-- of commands for each save context.
import Bbcom.CaptureApplication
import Bbcom.Lib.Runs

open bbcom.js bbcom.runs bbcom.base64

namespace bbcom.frame_save_queue

open List

/-! ## Frames and commands -/

structure SaveContext where
  epoch : Nat
  workspaceId : String
  deriving DecidableEq

structure PendingFrame where
  context : SaveContext
  sessionId : String
  sequence : Nat
  payload : capture.WorkspaceQueuedFramePayload
  deriving DecidableEq

structure WorkspaceFramePayload where
  id : String
  direction : serial.Direction
  timestampMs : Nat
  data : Uint8Array
  dataB64 : String
  txStatus : Option serial.TxStatus
  requestedBytes : Option Nat
  omittedBytes : Option Nat
  deriving DecidableEq

/-- The bytes cross the boundary as base64. -/
def toIpcFramePayload (payload : capture.WorkspaceQueuedFramePayload) : WorkspaceFramePayload where
  id := payload.id
  direction := payload.direction
  timestampMs := payload.timestampMs
  data := []
  dataB64 := bytesToBase64 payload.data
  txStatus := payload.txStatus
  requestedBytes := payload.requestedBytes
  omittedBytes := payload.omittedBytes

/-- An `append-frames` command. -/
structure AppendFrames where
  sessionId : String
  startSeq : Nat
  frames : List WorkspaceFramePayload
  deriving DecidableEq

/-- The frames of a command, each under its session and its sequence number. -/
def AppendFrames.entries (command : AppendFrames) : List (String × Nat × WorkspaceFramePayload) :=
  command.frames.zipIdx.map fun (frame, index) =>
    (command.sessionId, command.startSeq + index, frame)

def PendingFrame.entry (frame : PendingFrame) : String × Nat × WorkspaceFramePayload :=
  (frame.sessionId, frame.sequence, toIpcFramePayload frame.payload)

def PendingFrame.bytes (frame : PendingFrame) : Nat := frame.payload.data.length

/-! ## frameAppendCommands -/

/-- The variables of `frameAppendCommands`. -/
structure Appending where
  commands : List AppendFrames
  sessionId : String
  startSeq : Nat
  previousSeq : Int
  payloads : List WorkspaceFramePayload

namespace Appending

variable (building : Appending)

def release : List AppendFrames :=
  if building.payloads.length = 0 then building.commands
  else building.commands ++ [⟨building.sessionId, building.startSeq, building.payloads⟩]

/-- One turn of the loop. -/
def add (frame : PendingFrame) : Appending :=
  let building :=
    if frame.sessionId ≠ building.sessionId ∨ (frame.sequence : Int) ≠ building.previousSeq + 1 then
      { building with
          commands := building.release
          sessionId := frame.sessionId
          startSeq := frame.sequence
          payloads := [] }
    else building
  { building with
      payloads := building.payloads ++ [toIpcFramePayload frame.payload]
      previousSeq := frame.sequence }

end Appending

def frameAppendCommands (frames : List PendingFrame) : List AppendFrames :=
  match frames with
  | [] => []
  | first :: _ =>
    (frames.foldl Appending.add
      ⟨[], first.sessionId, first.sequence, (first.sequence : Int) - 1, []⟩).release

/-- The frame goes on where the one before it ends. -/
def continues (previous frame : PendingFrame) : Bool :=
  frame.sessionId = previous.sessionId ∧ frame.sequence = previous.sequence + 1

/-- The loop of `frameAppendCommandCount` behind a frame. -/
def countAfter : PendingFrame → List PendingFrame → Nat
  | _, [] => 0
  | previous, frame :: frames =>
    (if continues previous frame then 0 else 1) + countAfter frame frames

def frameAppendCommandCount : List PendingFrame → Nat
  | [] => 0
  | first :: frames => 1 + countAfter first frames

/-! ## groupFramesByContext -/

structure ContextGroup where
  context : SaveContext
  frames : List PendingFrame
  deriving DecidableEq

/-- One turn of the loop. -/
def addToGroups (groups : List ContextGroup) (item : PendingFrame) : List ContextGroup :=
  match groups.getLast? with
  | some last =>
    if last.context.epoch = item.context.epoch ∧
        last.context.workspaceId = item.context.workspaceId then
      groups.dropLast ++ [{ last with frames := last.frames ++ [item] }]
    else groups ++ [⟨item.context, [item]⟩]
  | none => groups ++ [⟨item.context, [item]⟩]

def groupFramesByContext (queued : List PendingFrame) : List ContextGroup :=
  queued.foldl addToGroups []

/-- The commands that a release of the queue hands on. -/
def releasedCommands (queued : List PendingFrame) : List AppendFrames :=
  (groupFramesByContext queued).flatMap fun group => frameAppendCommands group.frames

/-! ## The queue -/

def WORKSPACE_FRAME_AUTOSAVE_MAX_FRAMES : Nat := 256
def WORKSPACE_FRAME_AUTOSAVE_MAX_BYTES : Nat := 512 * 1024

/-- What leaves the queue: a group that is handed to the saves with its commands, or frames that
`abandon` and `reset` drop. -/
inductive Leaves
  | scheduled (group : ContextGroup) (commands : List AppendFrames)
  | dropped (frames : List PendingFrame)
  deriving DecidableEq

def Leaves.frames : Leaves → List PendingFrame
  | .scheduled group _ => group.frames
  | .dropped frames => frames

/-- The queue, the timers of the host, every frame that was enqueued and all that left, both in
order. -/
structure FrameSaveQueue where
  queue : List PendingFrame
  queueBytes : Nat
  timer : Option Nat
  liveTimers : List Nat
  nextTimer : Nat
  enqueued : List PendingFrame
  left : List Leaves
  deriving DecidableEq

namespace FrameSaveQueue

def new : FrameSaveQueue := ⟨[], 0, none, [], 0, [], []⟩

variable (s : FrameSaveQueue)

def mutationCount : Nat := frameAppendCommandCount s.queue

def clearTimer : FrameSaveQueue :=
  match s.timer with
  | some id => { s with liveTimers := s.liveTimers.filter (· ≠ id), timer := none }
  | none => s

def release : FrameSaveQueue :=
  let s := s.clearTimer
  if s.queue.length = 0 then s
  else
    let queued := s.queue
    { s with
        queue := []
        queueBytes := 0
        left := s.left ++ (groupFramesByContext queued).map fun group =>
          .scheduled group (frameAppendCommands group.frames) }

/-- The new frame does not fit behind the frames that wait. -/
def overflows (frame : PendingFrame) : Prop :=
  s.queue.length > 0 ∧
    (s.queue.length + 1 > WORKSPACE_FRAME_AUTOSAVE_MAX_FRAMES ∨
      s.queueBytes + frame.bytes > WORKSPACE_FRAME_AUTOSAVE_MAX_BYTES)

instance (frame : PendingFrame) : Decidable (s.overflows frame) :=
  inferInstanceAs (Decidable (_ ∧ _))

def push (frame : PendingFrame) : FrameSaveQueue :=
  let s := { s with
    queue := s.queue ++ [frame]
    queueBytes := s.queueBytes + frame.bytes
    enqueued := s.enqueued ++ [frame] }
  if s.queue.length = 1 then
    { s with
        timer := some s.nextTimer
        liveTimers := s.liveTimers ++ [s.nextTimer]
        nextTimer := s.nextTimer + 1 }
  else s

/-- The queue has come to one of its limits. -/
def full : Prop :=
  s.queue.length ≥ WORKSPACE_FRAME_AUTOSAVE_MAX_FRAMES ∨
    s.queueBytes ≥ WORKSPACE_FRAME_AUTOSAVE_MAX_BYTES

instance : Decidable s.full := inferInstanceAs (Decidable (_ ∨ _))

/-- The queue with the new frame, before its limits are looked at again. -/
def pushed (frame : PendingFrame) : FrameSaveQueue :=
  (if s.overflows frame then s.release else s).push frame

def enqueue (frame : PendingFrame) : FrameSaveQueue :=
  if (s.pushed frame).full then (s.pushed frame).release else s.pushed frame

/-- `abandon`, with the number of commands that it gives up. -/
def abandon : FrameSaveQueue × Nat :=
  let s := s.clearTimer
  ({ s with queue := [], queueBytes := 0, left := s.left ++ [.dropped s.queue] },
    frameAppendCommandCount s.queue)

/-- `reset`, which leaves the timer set. -/
def reset : FrameSaveQueue :=
  { s with queue := [], queueBytes := 0, left := s.left ++ [.dropped s.queue] }

/-- A timer fires. -/
def fire (id : Nat) : FrameSaveQueue :=
  if id ∈ s.liveTimers then
    release { s with liveTimers := s.liveTimers.filter (· ≠ id), timer := none }
  else s

end FrameSaveQueue

inductive Event
  | enqueue (frame : PendingFrame)
  | fire (id : Nat)
  | release
  | abandon
  | reset

def step (s : FrameSaveQueue) : Event → FrameSaveQueue
  | .enqueue frame => s.enqueue frame
  | .fire id => s.fire id
  | .release => s.release
  | .abandon => s.abandon.1
  | .reset => s.reset

/-! ## The owner of the queue -/

/-- The workspace that the service shows, and of `WorkspaceSaveCoordinator` the epoch and the queue
of frames. -/
structure SaveCoordinator where
  current : Option String
  workspaceEpoch : Nat
  frames : FrameSaveQueue

inductive SaveEvent
  /-- `enqueueCapturedFrame`, which takes the save context of the moment. -/
  | capture (sessionId : String) (sequence : Nat) (payload : capture.WorkspaceQueuedFramePayload)
  | fire (id : Nat)
  | releaseAll
  | abandon
  /-- A workspace is installed, or the current one is deleted: `openEpoch`. -/
  | openEpoch (current : Option String)

namespace SaveCoordinator

def new : SaveCoordinator := ⟨none, 0, .new⟩

/-- Without a workspace there is no save context, and the frame is rejected. -/
def step (s : SaveCoordinator) : SaveEvent → SaveCoordinator
  | .capture sessionId sequence payload =>
    match s.current with
    | none => s
    | some workspaceId =>
      let context : SaveContext := ⟨s.workspaceEpoch, workspaceId⟩
      { s with frames := s.frames.enqueue ⟨context, sessionId, sequence, payload⟩ }
  | .fire id => { s with frames := s.frames.fire id }
  | .releaseAll => { s with frames := s.frames.release }
  | .abandon => { s with frames := s.frames.abandon.1 }
  | .openEpoch current => ⟨current, s.workspaceEpoch + 1, s.frames.reset⟩

end SaveCoordinator

/-! ## The commands of one group -/

section adjacent

variable {α : Type}

/-- How many neighbours of a list stand in a relation. -/
def neighbours (related : α → α → Bool) : List α → Nat
  | a :: b :: rest => (if related a b then 1 else 0) + neighbours related (b :: rest)
  | _ => 0

theorem neighbours_concat (related : α → α → Bool) (items : List α) (item : α) :
    neighbours related (items ++ [item]) =
      neighbours related items + if items.getLast?.any (related · item) then 1 else 0 := by
  induction items with
  | nil => rfl
  | cons a items ih =>
    cases items with
    | nil => exact (Nat.zero_add _).symm
    | cons b items =>
      have hstep : neighbours related (a :: b :: items ++ [item]) =
          (if related a b then 1 else 0) + neighbours related (b :: items ++ [item]) := rfl
      rw [hstep, ih, neighbours, getLast?_cons_cons]
      omega

theorem neighbours_eq_zero {related : α → α → Bool} {items : List α}
    (h : ∀ a ∈ items, ∀ b ∈ items, related a b = false) : neighbours related items = 0 := by
  induction items with
  | nil => rfl
  | cons a items ih =>
    have hrest := ih fun b hb c hc => h b (mem_cons_of_mem a hb) c (mem_cons_of_mem a hc)
    cases items with
    | nil => rfl
    | cons b items => rw [neighbours, h a (by simp) b (by simp), hrest]; rfl

end adjacent

/-- The frame goes on where the last of the frames ends. -/
def continuesLast (frames : List PendingFrame) (frame : PendingFrame) : Bool :=
  frames.getLast?.any (continues · frame)

theorem countAfter_eq (previous : PendingFrame) (frames : List PendingFrame) :
    countAfter previous frames = neighbours (fun a b => !continues a b) (previous :: frames) := by
  induction frames generalizing previous with
  | nil => rfl
  | cons next frames ih =>
    rw [countAfter, neighbours, ih]
    cases continues previous next <;> rfl

/-- One more frame is one more command, unless it continues the last. -/
theorem frameAppendCommandCount_concat (frames : List PendingFrame) (frame : PendingFrame) :
    frameAppendCommandCount (frames ++ [frame]) =
      frameAppendCommandCount frames + if continuesLast frames frame then 0 else 1 := by
  cases frames with
  | nil => rfl
  | cons first frames =>
    rw [cons_append, frameAppendCommandCount, frameAppendCommandCount, countAfter_eq,
      countAfter_eq, ← cons_append, neighbours_concat]
    obtain ⟨last, hlast⟩ : ∃ last, (first :: frames).getLast? = some last :=
      ⟨_, getLast?_eq_some_getLast (by simp)⟩
    rw [continuesLast, hlast]
    cases hnext : continues last frame <;> simp [hnext, Nat.add_assoc]

open AppendFrames PendingFrame

/-- What the loop of `frameAppendCommands` has built of the frames that it has seen. -/
structure Built (building : Appending) (done : List PendingFrame) : Prop where
  entries : building.release.flatMap entries = done.map entry
  counted : building.release.length = frameAppendCommandCount done
  some_frame : ∀ command ∈ building.commands, command.frames ≠ []
  at_last : ∀ last, done.getLast? = some last →
    building.payloads ≠ [] ∧ building.sessionId = last.sessionId ∧
      building.previousSeq = last.sequence ∧
      building.startSeq + building.payloads.length = last.sequence + 1

theorem entries_concat (sessionId : String) (startSeq : Nat)
    (frames : List WorkspaceFramePayload) (frame : WorkspaceFramePayload) :
    entries ⟨sessionId, startSeq, frames ++ [frame]⟩ =
      entries ⟨sessionId, startSeq, frames⟩ ++
        [(sessionId, startSeq + frames.length, frame)] := by
  simp [entries, zipIdx_append]

variable {building : Appending} {done : List PendingFrame} {groups : List ContextGroup}

theorem Appending.release_of_some (h : building.payloads ≠ []) :
    building.release =
      building.commands ++ [⟨building.sessionId, building.startSeq, building.payloads⟩] := by
  unfold Appending.release
  rw [if_neg (by simpa using h)]

/-- The loop's comparison with what it keeps is that with the last frame. -/
theorem continuesLast_iff {frames : List PendingFrame} {last : PendingFrame}
    (hlast : frames.getLast? = some last) (frame : PendingFrame) :
    continuesLast frames frame = true ↔
      frame.sessionId = last.sessionId ∧ frame.sequence = last.sequence + 1 := by
  simp [continuesLast, hlast, continues]

theorem Built.add (h : Built building done) (hdone : done ≠ []) (frame : PendingFrame) :
    Built (building.add frame) (done ++ [frame]) := by
  obtain ⟨last, hlast⟩ : ∃ last, done.getLast? = some last :=
    ⟨_, getLast?_eq_some_getLast hdone⟩
  obtain ⟨hsome, hsession, hprevious, hlength⟩ := h.at_last last hlast
  have hentries := h.entries
  have hcounted := h.counted
  have hcount := frameAppendCommandCount_concat done frame
  have hiff := continuesLast_iff hlast frame
  rw [Appending.release_of_some hsome] at hentries hcounted
  by_cases hnext : frame.sessionId = last.sessionId ∧ frame.sequence = last.sequence + 1
  · -- the frame joins the command that is being built
    have hadd : building.add frame =
        { building with
            payloads := building.payloads ++ [toIpcFramePayload frame.payload]
            previousSeq := frame.sequence } := by
      unfold Appending.add
      rw [if_neg]
      rw [hsession, hprevious, not_or, not_not, not_not]
      exact ⟨hnext.1, by omega⟩
    rw [hiff.mpr hnext, if_pos rfl] at hcount
    rw [hadd]
    refine ⟨?_, ?_, h.some_frame, ?_⟩
    · rw [Appending.release_of_some (by simp)]
      simp only [flatMap_append, flatMap_singleton] at hentries ⊢
      rw [entries_concat, ← append_assoc, hentries, map_append, hlength, hsession,
        ← hnext.1, ← hnext.2]
      rfl
    · rw [Appending.release_of_some (by simp), hcount]
      simpa using hcounted
    · intro next hnext'
      obtain rfl : frame = next := by simpa using hnext'
      refine ⟨by simp, hsession.trans hnext.1.symm, rfl, ?_⟩
      simp only [length_append, length_singleton]
      omega
  · -- the command is released, and the frame begins another
    have hadd : building.add frame =
        { building with
            commands := building.release
            sessionId := frame.sessionId
            startSeq := frame.sequence
            payloads := [toIpcFramePayload frame.payload]
            previousSeq := frame.sequence } := by
      unfold Appending.add
      rw [if_pos]
      · rfl
      · rw [hsession, hprevious]
        by_contra hnot
        rw [not_or, not_not, not_not] at hnot
        exact hnext ⟨hnot.1, by omega⟩
    have hother : continuesLast done frame = false := by
      rw [← Bool.not_eq_true, hiff]
      exact hnext
    rw [hother] at hcount
    rw [hadd]
    refine ⟨?_, ?_, ?_, ?_⟩
    · rw [Appending.release_of_some (by simp), Appending.release_of_some hsome]
      simp only [flatMap_append, flatMap_singleton, map_append] at hentries ⊢
      rw [hentries]
      rfl
    · rw [Appending.release_of_some (by simp), Appending.release_of_some hsome, hcount, ← hcounted]
      simp
    · intro command hin
      simp only at hin
      rw [Appending.release_of_some hsome] at hin
      rcases mem_append.mp hin with hin | hin
      · exact h.some_frame command hin
      · rw [mem_singleton.mp hin]
        exact hsome
    · intro next hnext'
      obtain rfl : frame = next := by simpa using hnext'
      exact ⟨by simp, rfl, rfl, rfl⟩

/-- The commands of a list of frames: their entries are the frames in order, there are as many as
were counted, and none is empty. -/
structure Appended (commands : List AppendFrames) (frames : List PendingFrame) : Prop where
  entries : commands.flatMap entries = frames.map entry
  counted : commands.length = frameAppendCommandCount frames
  some_frame : ∀ command ∈ commands, command.frames ≠ []

theorem Built.appended (h : Built building done) : Appended building.release done where
  entries := h.entries
  counted := h.counted
  some_frame command hin := by
    unfold Appending.release at hin
    split at hin
    · exact h.some_frame command hin
    · rename_i hsome
      rcases mem_append.mp hin with hin | hin
      · exact h.some_frame command hin
      · rw [mem_singleton.mp hin]
        exact fun hnil => hsome (by simp [show building.payloads = [] from hnil])

theorem built_foldl (h : Built building done) (hdone : done ≠ []) (frames : List PendingFrame) :
    Built (frames.foldl Appending.add building) (done ++ frames) := by
  induction frames generalizing building done with
  | nil => simpa using h
  | cons frame frames ih =>
    have hnext := ih (h.add hdone frame) (by simp)
    simpa using hnext

theorem frameAppendCommands_appended (frames : List PendingFrame) :
    Appended (frameAppendCommands frames) frames := by
  cases frames with
  | nil => exact ⟨rfl, rfl, by simp [frameAppendCommands]⟩
  | cons first frames =>
    have hfirst : Built (Appending.add
        ⟨[], first.sessionId, first.sequence, (first.sequence : Int) - 1, []⟩ first) [first] := by
      have hadd : Appending.add
          ⟨[], first.sessionId, first.sequence, (first.sequence : Int) - 1, []⟩ first =
          ⟨[], first.sessionId, first.sequence, first.sequence,
            [toIpcFramePayload first.payload]⟩ := by
        simp [Appending.add]
      rw [hadd]
      refine ⟨rfl, rfl, by simp, ?_⟩
      intro last hlast
      obtain rfl : first = last := by simpa using hlast
      exact ⟨by simp, rfl, rfl, rfl⟩
    exact (built_foldl hfirst (by simp) frames).appended

/-! ## The groups of one release -/

/-- The frame continues one that was queued for another save context. -/
def crosses (previous frame : PendingFrame) : Bool :=
  continues previous frame ∧ previous.context ≠ frame.context

/-- What the loop of `groupFramesByContext` has built of the frames that it has seen: every frame
in order, each in a group of its context; and the commands of the groups are as many as were
counted, and one more for each frame that continues one of another context. -/
structure Grouped (groups : List ContextGroup) (done : List PendingFrame) : Prop where
  frames : groups.flatMap ContextGroup.frames = done
  own_context : ∀ group ∈ groups, ∀ frame ∈ group.frames, frame.context = group.context
  some_frame : ∀ group ∈ groups, group.frames ≠ []
  at_last : ∀ group, groups.getLast? = some group → group.frames.getLast? = done.getLast?
  counted : (groups.flatMap fun group => frameAppendCommands group.frames).length =
    frameAppendCommandCount done + neighbours crosses done

theorem length_frameAppendCommands (frames : List PendingFrame) :
    (frameAppendCommands frames).length = frameAppendCommandCount frames :=
  (frameAppendCommands_appended frames).counted

/-- A frame begins a group, behind groups that it does not belong to. -/
theorem Grouped.begin_group (h : Grouped groups done) (frame : PendingFrame)
    (hother : ∀ last, done.getLast? = some last → last.context ≠ frame.context) :
    Grouped (groups ++ [⟨frame.context, [frame]⟩]) (done ++ [frame]) where
  frames := by simp [h.frames]
  own_context group hin f hf := by
    rcases mem_append.mp hin with hin | hin
    · exact h.own_context group hin f hf
    · obtain rfl := mem_singleton.mp hin
      rw [mem_singleton.mp hf]
  some_frame group hin := by
    rcases mem_append.mp hin with hin | hin
    · exact h.some_frame group hin
    · simp [mem_singleton.mp hin]
  at_last group hgroup := by
    obtain rfl : (⟨frame.context, [frame]⟩ : ContextGroup) = group := by simpa using hgroup
    simp
  counted := by
    rw [flatMap_append, length_append, h.counted, frameAppendCommandCount_concat,
      neighbours_concat, flatMap_singleton, length_frameAppendCommands]
    unfold continuesLast
    rcases hlast : done.getLast? with _ | last
    · simp [frameAppendCommandCount, countAfter]
      omega
    · have hne := hother last hlast
      cases hnext : continues last frame <;>
        simp [crosses, hnext, hne, frameAppendCommandCount, countAfter] <;> omega

/-- A frame joins the last group, whose context it has. -/
theorem Grouped.join {last : ContextGroup} (h : Grouped (groups ++ [last]) done)
    (frame : PendingFrame) (hsame : last.context = frame.context) :
    Grouped (groups ++ [{ last with frames := last.frames ++ [frame] }]) (done ++ [frame]) := by
  have hlast : last.frames.getLast? = done.getLast? := h.at_last last (by simp)
  refine ⟨?_, ?_, ?_, ?_, ?_⟩
  · have hframes := h.frames
    simp only [flatMap_append, flatMap_singleton] at hframes ⊢
    rw [← append_assoc, hframes]
  · intro group hin f hf
    rcases mem_append.mp hin with hin | hin
    · exact h.own_context group (by simp [hin]) f hf
    · obtain rfl := mem_singleton.mp hin
      rcases mem_append.mp hf with hf | hf
      · exact h.own_context last (by simp) f hf
      · rw [mem_singleton.mp hf]
        exact hsame.symm
  · intro group hin
    rcases mem_append.mp hin with hin | hin
    · exact h.some_frame group (by simp [hin])
    · simp [mem_singleton.mp hin]
  · intro group hgroup
    obtain rfl : { last with frames := last.frames ++ [frame] } = group := by simpa using hgroup
    simp
  · have hcounted := h.counted
    have hcross : done.getLast?.any (crosses · frame) = false := by
      rw [← hlast]
      rcases hget : last.frames.getLast? with _ | f
      · rfl
      · have hown := h.own_context last (by simp) f (mem_of_getLast? hget)
        simp [crosses, hown, hsame]
    simp only [flatMap_append, flatMap_singleton, length_append,
      length_frameAppendCommands] at hcounted ⊢
    rw [frameAppendCommandCount_concat, frameAppendCommandCount_concat, neighbours_concat, hcross]
    unfold continuesLast
    rw [hlast]
    simp only [Bool.false_eq_true, if_false]
    omega

theorem Grouped.add (h : Grouped groups done) (frame : PendingFrame) :
    Grouped (addToGroups groups frame) (done ++ [frame]) := by
  unfold addToGroups
  rcases hlast : groups.getLast? with _ | last
  · obtain rfl : groups = [] := by simpa using hlast
    have hdone : done = [] := h.frames.symm
    subst hdone
    exact h.begin_group frame (by simp)
  · simp only
    obtain ⟨front, hgroups⟩ := getLast?_eq_some_iff.mp hlast
    have hdrop : groups.dropLast = front := by simp [hgroups]
    split
    · rename_i hsame
      rw [hdrop]
      rw [hgroups] at h
      apply h.join frame
      obtain ⟨hepoch, hworkspace⟩ := hsame
      rcases hcontext : last.context with ⟨epoch, workspaceId⟩
      rcases hcontext' : frame.context with ⟨epoch', workspaceId'⟩
      simp_all
    · rename_i hdifferent
      apply h.begin_group frame
      intro f hf hcontext
      have hown : f.context = last.context := by
        have hframes := h.at_last last hlast
        rw [hf] at hframes
        exact h.own_context last (mem_of_getLast? hlast) f (mem_of_getLast? hframes)
      rw [← hown, hcontext] at hdifferent
      exact hdifferent ⟨rfl, rfl⟩

theorem groupFramesByContext_grouped (queued : List PendingFrame) :
    Grouped (groupFramesByContext queued) queued := by
  have hall : ∀ groups done, Grouped groups done → ∀ frames,
      Grouped (frames.foldl addToGroups groups) (done ++ frames) := by
    intro groups done h frames
    induction frames generalizing groups done with
    | nil => simpa using h
    | cons frame frames ih => simpa using ih _ _ (h.add frame)
  exact hall [] [] ⟨rfl, by simp, by simp, by simp, rfl⟩ queued

/-- The count of a queue is that of the commands that its release hands on, unless a frame
continues one of another context. -/
theorem releasedCommands_length (queued : List PendingFrame) :
    (releasedCommands queued).length = frameAppendCommandCount queued + neighbours crosses queued :=
  (groupFramesByContext_grouped queued).counted

/-! ## What every state keeps -/

def totalBytes (frames : List PendingFrame) : Nat := (frames.map bytes).sum

/-- At most as many frames and bytes as the limits say, unless it is one larger frame. -/
def Bounded (frames : List PendingFrame) : Prop :=
  frames.length ≤ WORKSPACE_FRAME_AUTOSAVE_MAX_FRAMES ∧
    (totalBytes frames ≤ WORKSPACE_FRAME_AUTOSAVE_MAX_BYTES ∨ frames.length = 1)

/-- A group that was handed to the saves with its commands. -/
structure Scheduled (group : ContextGroup) (commands : List AppendFrames) : Prop where
  entries : commands.flatMap entries = group.frames.map entry
  some_frame : ∀ command ∈ commands, command.frames ≠ []
  own_context : ∀ frame ∈ group.frames, frame.context = group.context
  bounded : Bounded group.frames

/-- Every frame that was enqueued left in order or still waits, and what was scheduled are the
frames as they were enqueued. -/
structure Kept (s : FrameSaveQueue) : Prop where
  frames : s.enqueued = s.left.flatMap Leaves.frames ++ s.queue
  scheduled : ∀ group commands, Leaves.scheduled group commands ∈ s.left → Scheduled group commands
  counted : s.queueBytes = totalBytes s.queue

/-- `Kept`, and the queue is below both of its limits. -/
structure Saved (s : FrameSaveQueue) : Prop extends Kept s where
  few_frames : s.queue.length < WORKSPACE_FRAME_AUTOSAVE_MAX_FRAMES
  few_bytes : s.queueBytes < WORKSPACE_FRAME_AUTOSAVE_MAX_BYTES

open FrameSaveQueue

theorem saved_new : Saved .new := ⟨⟨rfl, by simp [new], rfl⟩, by decide, by decide⟩

@[simp] theorem totalBytes_concat (frames : List PendingFrame) (frame : PendingFrame) :
    totalBytes (frames ++ [frame]) = totalBytes frames + frame.bytes := by
  simp [totalBytes]

/-- A group of a bounded queue is bounded. -/
theorem Bounded.group {queued : List PendingFrame} (h : Bounded queued)
    (hgrouped : Grouped groups queued) {group : ContextGroup} (hin : group ∈ groups) :
    Bounded group.frames := by
  have hsub : group.frames.Sublist queued := by
    rw [← hgrouped.frames, flatMap_def]
    exact sublist_flatten_of_mem (mem_map_of_mem hin)
  have hlength := hsub.length_le
  refine ⟨hlength.trans h.1, ?_⟩
  rcases h.2 with hbytes | hone
  · exact .inl (((hsub.map bytes).sum_le_sum (by simp)).trans hbytes)
  · have hpos := length_pos_of_ne_nil (hgrouped.some_frame group hin)
    exact .inr (by omega)

variable {s : FrameSaveQueue}

/-- Timers carry no frames. -/
theorem Kept.congr {t : FrameSaveQueue} (h : Kept s) (hqueue : t.queue = s.queue)
    (hbytes : t.queueBytes = s.queueBytes) (henqueued : t.enqueued = s.enqueued)
    (hleft : t.left = s.left) : Kept t := by
  refine ⟨?_, ?_, ?_⟩
  · rw [henqueued, hleft, hqueue]
    exact h.frames
  · rw [hleft]
    exact h.scheduled
  · rw [hbytes, hqueue]
    exact h.counted

theorem clearTimer_fields (s : FrameSaveQueue) :
    s.clearTimer.queue = s.queue ∧ s.clearTimer.queueBytes = s.queueBytes ∧
      s.clearTimer.enqueued = s.enqueued ∧ s.clearTimer.left = s.left := by
  unfold clearTimer
  split <;> exact ⟨rfl, rfl, rfl, rfl⟩

theorem Kept.clearTimer (h : Kept s) : Kept s.clearTimer := by
  obtain ⟨hqueue, hbytes, henqueued, hleft⟩ := clearTimer_fields s
  exact h.congr hqueue hbytes henqueued hleft

theorem release_empties (s : FrameSaveQueue) : s.release.queue = [] := by
  unfold release
  dsimp only
  split
  · rename_i hempty
    exact length_eq_zero_iff.mp hempty
  · rfl

theorem Kept.release (h : Kept s) (hbounded : Bounded s.queue) : Kept s.release := by
  have hcleared := h.clearTimer
  obtain ⟨hqueue, -, -, -⟩ := clearTimer_fields s
  unfold FrameSaveQueue.release
  dsimp only
  split
  · exact hcleared
  · rw [hqueue]
    have hgrouped := groupFramesByContext_grouped s.queue
    refine ⟨?_, ?_, rfl⟩
    · have hframes := hcleared.frames
      rw [hqueue, ← hgrouped.frames] at hframes
      simpa [flatMap_map, Leaves.frames] using hframes
    · intro group commands hin
      rcases mem_append.mp hin with hin | hin
      · exact hcleared.scheduled group commands hin
      · obtain ⟨group', hin', heq⟩ := mem_map.mp hin
        obtain ⟨rfl, rfl⟩ : group' = group ∧ frameAppendCommands group'.frames = commands := by
          simpa using heq
        have happended := frameAppendCommands_appended group'.frames
        exact ⟨happended.entries, happended.some_frame, hgrouped.own_context group' hin',
          hbounded.group hgrouped hin'⟩

theorem Saved.bounded (h : Saved s) : Bounded s.queue := by
  have hframes := h.few_frames
  have hbytes := h.few_bytes
  rw [h.counted] at hbytes
  exact ⟨hframes.le, .inl hbytes.le⟩

/-- A queue that was released is at rest. -/
theorem Kept.rest (h : Kept s) (hempty : s.queue = []) : Saved s := by
  have hcounted := h.counted
  rw [hempty] at hcounted
  exact ⟨h, by simp [hempty, WORKSPACE_FRAME_AUTOSAVE_MAX_FRAMES],
    by simp [hcounted, totalBytes, WORKSPACE_FRAME_AUTOSAVE_MAX_BYTES]⟩

theorem Saved.release (h : Saved s) : Saved s.release :=
  (h.toKept.release h.bounded).rest (release_empties s)

theorem push_fields (s : FrameSaveQueue) (frame : PendingFrame) :
    (s.push frame).queue = s.queue ++ [frame] ∧
      (s.push frame).queueBytes = s.queueBytes + frame.bytes ∧
      (s.push frame).enqueued = s.enqueued ++ [frame] ∧ (s.push frame).left = s.left := by
  unfold push
  dsimp only
  split <;> exact ⟨rfl, rfl, rfl, rfl⟩

theorem Kept.push (h : Kept s) (frame : PendingFrame) : Kept (s.push frame) := by
  obtain ⟨hqueue, hbytes, henqueued, hleft⟩ := push_fields s frame
  refine ⟨?_, ?_, ?_⟩
  · rw [henqueued, hleft, hqueue, h.frames, append_assoc]
  · rw [hleft]
    exact h.scheduled
  · rw [hbytes, hqueue, totalBytes_concat, h.counted]

/-- The new frame stands alone, or it fits behind the others. -/
theorem Saved.pushed (h : Saved s) (frame : PendingFrame) :
    Kept (s.pushed frame) ∧ Bounded (s.pushed frame).queue := by
  unfold FrameSaveQueue.pushed
  split
  · have hreleased := h.release
    refine ⟨hreleased.toKept.push frame, ?_⟩
    rw [(push_fields _ frame).1, release_empties]
    exact ⟨by simp [WORKSPACE_FRAME_AUTOSAVE_MAX_FRAMES], .inr rfl⟩
  · rename_i hfits
    refine ⟨h.toKept.push frame, ?_⟩
    rw [(push_fields _ frame).1]
    have hfew := h.few_frames
    refine ⟨by simp; omega, ?_⟩
    by_cases hempty : s.queue.length > 0
    · have hroom := not_or.mp (not_and.mp hfits hempty)
      left
      rw [totalBytes_concat, ← h.counted]
      omega
    · right
      simp only [length_append, length_singleton]
      omega

theorem Saved.enqueue (h : Saved s) (frame : PendingFrame) : Saved (s.enqueue frame) := by
  obtain ⟨hkept, hbounded⟩ := h.pushed frame
  unfold FrameSaveQueue.enqueue
  split
  · exact (hkept.release hbounded).rest (release_empties _)
  · rename_i hroom
    obtain ⟨hframes, hbytes⟩ := not_or.mp hroom
    exact ⟨hkept, by omega, by omega⟩

theorem Saved.dropped (h : Saved s) :
    Saved { s with queue := [], queueBytes := 0, left := s.left ++ [.dropped s.queue] } := by
  refine Kept.rest ⟨?_, ?_, rfl⟩ rfl
  · simpa [Leaves.frames] using h.frames
  · intro group commands hin
    rcases mem_append.mp hin with hin | hin
    · exact h.scheduled group commands hin
    · cases mem_singleton.mp hin

theorem Saved.clearTimer (h : Saved s) : Saved s.clearTimer := by
  obtain ⟨hqueue, hbytes, -, -⟩ := clearTimer_fields s
  exact ⟨h.toKept.clearTimer, hqueue ▸ h.few_frames, hbytes ▸ h.few_bytes⟩

theorem Saved.fire (h : Saved s) (id : Nat) : Saved (s.fire id) := by
  unfold FrameSaveQueue.fire
  split
  · apply Saved.release
    exact ⟨h.toKept.congr rfl rfl rfl rfl, h.few_frames, h.few_bytes⟩
  · exact h

theorem Saved.step (h : Saved s) (e : Event) : Saved (frame_save_queue.step s e) := by
  cases e with
  | enqueue frame => exact h.enqueue frame
  | fire id => exact h.fire id
  | release => exact h.release
  | abandon => exact h.clearTimer.dropped
  | reset => exact h.dropped

/-! ## When the count is right -/

/-- The count of the queue is that of the commands that a release of it would hand on. -/
def Counted (s : FrameSaveQueue) : Prop := s.mutationCount = (releasedCommands s.queue).length

theorem counted_iff (s : FrameSaveQueue) : Counted s ↔ neighbours crosses s.queue = 0 := by
  unfold Counted mutationCount
  rw [releasedCommands_length]
  omega

/-- What a step leaves in the queue was there, or it is the frame of the step. -/
theorem step_queue {e : Event} {f : PendingFrame} (h : f ∈ (step s e).queue) :
    f ∈ s.queue ∨ e = .enqueue f := by
  cases e with
  | enqueue frame =>
    simp only [step, enqueue] at h
    split at h
    · rw [release_empties] at h
      cases h
    · unfold pushed at h
      rw [(push_fields _ frame).1, mem_append, mem_singleton] at h
      rcases h with hold | rfl
      · split at hold
        · rw [release_empties] at hold
          cases hold
        · exact .inl hold
      · exact .inr rfl
  | fire id =>
    simp only [step, fire] at h
    split at h
    · rw [release_empties] at h
      cases h
    · exact .inl h
  | release =>
    rw [step, release_empties] at h
    cases h
  | abandon => cases h
  | reset => cases h

/-- Nothing is lost, doubled or reordered, and the count is right. -/
structure Exact (s : FrameSaveQueue) : Prop where
  saved : Saved s
  counted : Counted s

theorem saved_run (events : List Event) : Saved (run step .new events) :=
  run_invariant (fun _ e h => h.step e) saved_new events

namespace SaveCoordinator

/-- `Saved`, and all that waits is of the current save context. -/
structure OneContext (s : SaveCoordinator) : Prop where
  saved : Saved s.frames
  context : ∀ frame ∈ s.frames.queue,
    s.current = some frame.context.workspaceId ∧ s.workspaceEpoch = frame.context.epoch

variable {s : SaveCoordinator}

/-- Timers and drains bring no frame. -/
theorem OneContext.drain (h : OneContext s) {e : Event} (hnone : ∀ frame, e ≠ .enqueue frame) :
    OneContext { s with frames := frame_save_queue.step s.frames e } :=
  ⟨h.saved.step e, fun frame hframe =>
    h.context frame ((step_queue hframe).resolve_right (hnone frame))⟩

theorem OneContext.step (h : OneContext s) (e : SaveEvent) : OneContext (s.step e) := by
  cases e with
  | capture sessionId sequence payload =>
    unfold SaveCoordinator.step
    dsimp only
    split
    · exact h
    · rename_i workspaceId hcurrent
      refine ⟨h.saved.enqueue _, fun frame hframe => ?_⟩
      rcases step_queue (e := .enqueue _) hframe with hold | hnew
      · exact h.context frame hold
      · cases hnew
        exact ⟨hcurrent, rfl⟩
  | fire id => exact h.drain (e := .fire id) (by simp)
  | releaseAll => exact h.drain (e := .release) (by simp)
  | abandon => exact h.drain (e := .abandon) (by simp)
  | openEpoch current => exact ⟨h.saved.dropped, by simp [SaveCoordinator.step, reset]⟩

/-- Within one save context no frame crosses from another. -/
theorem OneContext.exact (h : OneContext s) : Exact s.frames := by
  refine ⟨h.saved, (counted_iff _).mpr (neighbours_eq_zero fun a ha b hb => ?_)⟩
  obtain ⟨hworkspace, hepoch⟩ := h.context a ha
  obtain ⟨hworkspace', hepoch'⟩ := h.context b hb
  have hepochs : a.context.epoch = b.context.epoch := hepoch.symm.trans hepoch'
  have hworkspaces : a.context.workspaceId = b.context.workspaceId :=
    Option.some.inj (hworkspace.symm.trans hworkspace')
  have hsame : a.context = b.context := by
    calc a.context = ⟨a.context.epoch, a.context.workspaceId⟩ := rfl
      _ = b.context := by rw [hepochs, hworkspaces]
  simp [crosses, hsame]

theorem oneContext_run (events : List SaveEvent) :
    OneContext (run SaveCoordinator.step .new events) :=
  run_invariant (fun _ e h => h.step e)
    ⟨saved_new, by simp [SaveCoordinator.new, FrameSaveQueue.new]⟩ events

end SaveCoordinator

end bbcom.frame_save_queue
