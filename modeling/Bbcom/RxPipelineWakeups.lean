-- Pending bytes have a drain on its way, in every state of every run: unless a scheduler was
-- replaced while they were pending.
import Bbcom.RxPipeline
import Bbcom.Lib.OrderedMap

open bbcom.js bbcom.runs bbcom.serial_rx bbcom.ordered_map

namespace bbcom.rx_pipeline

open SerialRxDrainScheduler

/-! ## The property -/

/-- A callback of the scheduler in use that will hand all pending bytes to the capture. -/
structure Wakes (pipeline : RxPipeline) (callback : ScheduledCallback) : Prop where
  scheduled : callback ∈ pipeline.timers.callbacks
  current : callback.scheduler = pipeline.rxDrain.id
  valid : callback.generation = pipeline.rxDrain.generation
  drains : (pipeline.runHandle callback.handle).captured =
    pipeline.captured ++ [pipeline.rxQueue.pending]

def NoLostWakeup (pipeline : RxPipeline) : Prop :=
  0 < pipeline.rxQueue.byteLength → ∃ callback, Wakes pipeline callback

/-- A scheduler is replaced only while nothing is pending, or right before a flush. -/
def ResetsEmpty (pipeline : RxPipeline) : RxEvent → Prop
  | .started _ leased => leased = true ∨ pipeline.rxQueue.byteLength = 0
  | .reconnecting _ => pipeline.rxQueue.byteLength = 0
  | .reconfigured _ => pipeline.rxQueue.byteLength = 0
  | _ => True

/-! ## The invariant -/

/-- The queue is sound, and the flags of the scheduler are right. -/
structure Wired (pipeline : RxPipeline) : Prop where
  sound : ∃ live, Sound pipeline.rxQueue live
  truthful : Truthful pipeline.rxDrain pipeline.timers
  one : OneDrain pipeline.rxDrain

/-- Pending bytes have a drain on its way. -/
structure Watched (pipeline : RxPipeline) : Prop extends Wired pipeline where
  awake : 0 < pipeline.rxQueue.byteLength → Awake pipeline.rxDrain

variable {pipeline : RxPipeline}

theorem Wired.chunks (h : Wired pipeline) (hbytes : 0 < pipeline.rxQueue.byteLength) :
    0 < pipeline.rxQueue.liveCount := by
  obtain ⟨live, hsound⟩ := h.sound
  rw [hsound.liveCount]
  cases live with
  | nil =>
    have hzero := hsound.bytes
    simp only [totalLength_nil] at hzero
    omega
  | cons chunk live => simp

theorem Wired.bytes_nonneg (h : Wired pipeline) : 0 ≤ pipeline.rxQueue.byteLength := by
  obtain ⟨live, hsound⟩ := h.sound
  rw [hsound.bytes]
  exact Int.natCast_nonneg _

/-- A scheduler that is awake has a callback that drains. -/
theorem Wired.wakes (h : Wired pipeline) (hawake : Awake pipeline.rxDrain)
    (hbytes : 0 < pipeline.rxQueue.byteLength) : ∃ callback, Wakes pipeline callback := by
  have hscheduled : ∃ handle delayMs,
      (⟨handle, pipeline.rxDrain.id, pipeline.rxDrain.generation, delayMs⟩ : ScheduledCallback) ∈
        pipeline.timers.callbacks := by
    rcases hawake with htimer | himmediate
    · obtain ⟨handle, hhandle⟩ := Option.isSome_iff_exists.1 htimer
      obtain ⟨delayMs, hmem⟩ := h.truthful.timer handle hhandle
      exact ⟨handle, some delayMs, hmem⟩
    · obtain ⟨handle, hmem⟩ := h.truthful.immediate himmediate
      exact ⟨handle, none, hmem⟩
  obtain ⟨handle, delayMs, hmem⟩ := hscheduled
  refine ⟨_, hmem, rfl, rfl, ?_⟩
  have hfind := find_of_mem h.truthful.handles hmem
  have hchunks := h.chunks hbytes
  unfold RxPipeline.runHandle
  simp only at hfind ⊢
  rw [hfind]
  unfold RxPipeline.runCallback RxPipeline.drainPending RxPipeline.flushQueue
  simp only [RxPipeline.pending]
  rw [if_pos trivial, if_neg (by simp), if_neg (by omega), if_neg (by omega)]
  rfl

theorem Watched.noLostWakeup (h : Watched pipeline) : NoLostWakeup pipeline :=
  fun hbytes => h.wakes (h.awake hbytes) hbytes

/-! ## What each operation keeps -/

theorem Wired.notify (h : Wired pipeline) : Watched pipeline.notify := by
  obtain ⟨htruthful, hone, _, hawake⟩ := notify_spec h.truthful h.one pipeline.pending
  refine ⟨⟨h.sound, htruthful, hone⟩, fun hbytes => hawake (.inr ⟨hbytes, h.chunks hbytes⟩)⟩

theorem Wired.cancelRxDrain (h : Wired pipeline) : Wired pipeline.cancelRxDrain :=
  ⟨h.sound, h.truthful.invalidate, by
    simp [OneDrain, RxPipeline.cancelRxDrain, cancel, invalidateScheduledWork]⟩

/-- A new scheduler has nothing on its way. -/
theorem Wired.resetRxDrain (h : Wired pipeline) (rxFrameGapMs : JsNumber) :
    Wired (pipeline.resetRxDrain rxFrameGapMs) := by
  obtain ⟨_, _, hhandles, hbelow, hknown⟩ := h.truthful.invalidate
  refine ⟨h.sound, ⟨?_, ?_, hhandles, hbelow, ?_⟩, ?_⟩
  · intro handle htimer
    cases htimer
  · intro himmediate
    cases himmediate
  · intro callback hcallback
    exact Nat.le_succ_of_le (hknown callback hcallback)
  · intro htimer
    cases htimer

theorem sound_clearPending {q : SerialRxQueue} {live : List Uint8Array} (h : Sound q live) :
    Sound q.clearPending [] :=
  ⟨Nat.zero_le _, rfl, rfl, h.notified⟩

section

variable (h : Wired pipeline)
include h

theorem Wired.emptied {rxQueue : SerialRxQueue} (hsound : Sound rxQueue []) {after : RxPipeline}
    (hqueue : after.rxQueue = rxQueue) (hdrain : after.rxDrain = pipeline.rxDrain)
    (htimers : after.timers = pipeline.timers) : Watched after := by
  refine ⟨⟨⟨[], ?_⟩, ?_, ?_⟩, ?_⟩
  · rw [hqueue]
    exact hsound
  · rw [hdrain, htimers]
    exact h.truthful
  · rw [hdrain]
    exact h.one
  · intro hbytes
    rw [hqueue, hsound.bytes] at hbytes
    simp at hbytes

/-- A flush leaves nothing pending. -/
theorem Wired.flushQueue :
    Watched pipeline.flushQueue ∧ pipeline.flushQueue.rxQueue.byteLength = 0 := by
  obtain ⟨live, hsound⟩ := h.sound
  unfold RxPipeline.flushQueue
  split
  · rename_i hnone
    have hzero : ¬0 < pipeline.rxQueue.byteLength := by
      intro hbytes
      have hchunks := h.chunks hbytes
      omega
    have hnonneg := h.bytes_nonneg
    exact ⟨⟨h, fun hbytes => absurd hbytes hzero⟩, by omega⟩
  · exact ⟨h.emptied (sound_clearPending hsound) rfl rfl rfl, rfl⟩

theorem Wired.drainPending : Watched pipeline.drainPending := by
  unfold RxPipeline.drainPending
  split
  · rename_i hnone
    refine ⟨h, fun hbytes => ?_⟩
    have hchunks := h.chunks hbytes
    simp only [RxPipeline.pending] at hnone
    omega
  · exact h.flushQueue.1.toWired.notify

theorem Wired.flushRxAndPublish : Watched pipeline.flushRxAndPublish := h.cancelRxDrain.drainPending

theorem Wired.showOverflow (droppedSinceDrain : Nat) :
    Wired (pipeline.showOverflow droppedSinceDrain) := by
  unfold RxPipeline.showOverflow
  split
  · exact ⟨h.sound, h.truthful, h.one⟩
  split
  · exact ⟨h.sound, h.truthful, h.one⟩
  · exact h

end

theorem Watched.enqueueReceivedBytes (h : Watched pipeline) (bytes : Uint8Array) :
    Watched (pipeline.enqueueReceivedBytes bytes) := by
  unfold RxPipeline.enqueueReceivedBytes
  split
  · exact h
  obtain ⟨live, hsound⟩ := h.sound
  obtain ⟨live', _, _, hsound', _⟩ := hsound.enqueue bytes
  generalize pipeline.rxQueue.enqueue bytes = enqueued at hsound'
  obtain ⟨rxQueue, result⟩ := enqueued
  have hqueued : Wired { pipeline with rxQueue, totalDroppedBytes := result.totalDroppedBytes } :=
    ⟨⟨live', hsound'⟩, h.truthful, h.one⟩
  exact (hqueued.showOverflow result.droppedSinceDrain).notify

/-! ## Callbacks -/

theorem oneDrain_ran (d : SerialRxDrainScheduler) (delayMs : Option Nat) :
    OneDrain (d.ran delayMs) := by
  unfold ran
  cases delayMs with
  | some delay => simp [OneDrain]
  | none => simp [OneDrain]

/-- A callback of a scheduler that was replaced is a flush at most. -/
theorem Watched.drainReplaced (h : Watched pipeline) (d : SerialRxDrainScheduler) :
    Watched (pipeline.drainReplaced d) := by
  unfold RxPipeline.drainReplaced
  split
  · exact h
  obtain ⟨hwatched, hzero⟩ := h.toWired.flushQueue
  have hnothing : d.notify pipeline.flushQueue.timers pipeline.flushQueue.pending =
      (d, pipeline.flushQueue.timers) := by
    unfold notify
    exact if_pos (.inl (le_of_eq hzero))
  dsimp only
  rw [hnothing]
  exact ⟨⟨hwatched.sound, hwatched.truthful, hwatched.one⟩, hwatched.awake⟩

theorem Watched.runHandle (h : Watched pipeline) (handle : Nat) :
    Watched (pipeline.runHandle handle) := by
  unfold RxPipeline.runHandle
  split
  · exact h
  rename_i callback hfind
  have hfound : callback ∈ pipeline.timers.callbacks ∧ callback.handle = handle := find_mem hfind
  obtain ⟨hmem, rfl⟩ := hfound
  unfold RxPipeline.runCallback
  by_cases hcurrent : callback.scheduler = pipeline.rxDrain.id ∧
      callback.generation = pipeline.rxDrain.generation
  · rw [if_pos hcurrent.1, if_neg (by simp [hcurrent.2])]
    apply Wired.drainPending
    exact ⟨h.sound, h.truthful.ran hmem, oneDrain_ran _ _⟩
  · -- the callback is none that the flags stand for
    have hrest := h.truthful.outdated hmem (not_and_or.1 hcurrent)
    have hwatched : Watched { pipeline with timers := pipeline.timers.cancel callback.handle } :=
      ⟨⟨h.sound, hrest, h.one⟩, h.awake⟩
    split
    · rename_i hid
      rw [if_pos fun hgeneration => hcurrent ⟨hid, hgeneration⟩]
      exact hwatched
    split
    · exact hwatched
    split
    · exact hwatched
    · exact hwatched.drainReplaced _

/-! ## Runs -/

theorem Watched.of_empty (h : Wired pipeline) (hempty : pipeline.rxQueue.byteLength = 0) :
    Watched pipeline :=
  ⟨h, fun hbytes => absurd hempty (by omega)⟩

theorem Watched.step (h : Watched pipeline) (event : RxEvent)
    (hreset : ResetsEmpty pipeline event) : Watched (pipeline.step event) := by
  obtain ⟨live, hsound⟩ := h.sound
  cases event with
  | received bytes => exact h.enqueueReceivedBytes bytes
  | callback handle => exact h.runHandle handle
  | flushed => exact h.toWired.flushRxAndPublish
  | started rxFrameGapMs leased =>
    have hnew := h.toWired.resetRxDrain rxFrameGapMs
    change Watched (pipeline.start rxFrameGapMs leased)
    unfold RxPipeline.start
    cases leased with
    | true =>
      have hquiet := hnew.flushRxAndPublish.toWired.cancelRxDrain
      obtain ⟨rest, hrest⟩ := hquiet.sound
      exact hquiet.emptied ⟨Nat.zero_le _, rfl, rfl, rfl⟩ rfl rfl rfl
    | false =>
      have hempty : pipeline.rxQueue.byteLength = 0 := hreset.resolve_left (by simp)
      exact Watched.of_empty hnew hempty
  | reconnecting rxFrameGapMs =>
    exact Watched.of_empty (h.toWired.resetRxDrain rxFrameGapMs) hreset
  | reconfigured rxFrameGapMs =>
    exact Watched.of_empty (h.toWired.resetRxDrain rxFrameGapMs) hreset
  | stopped =>
    exact h.toWired.cancelRxDrain.emptied (sound_clearPending hsound) rfl rfl rfl

/-- Behind a reset no callback is one of the new scheduler. -/
theorem Wired.reset_lost (h : Wired pipeline) (rxFrameGapMs : JsNumber)
    (hpending : pipeline.rxQueue.byteLength ≠ 0) :
    ¬NoLostWakeup (pipeline.resetRxDrain rxFrameGapMs) := by
  intro hwake
  have hnonneg := h.bytes_nonneg
  have hbytes : 0 < (pipeline.resetRxDrain rxFrameGapMs).rxQueue.byteLength :=
    lt_of_le_of_ne hnonneg (Ne.symm hpending)
  obtain ⟨callback, hscheduled, hcurrent, _, _⟩ := hwake hbytes
  have hknown : callback.scheduler ≤ pipeline.rxDrain.id :=
    h.truthful.invalidate.known callback hscheduled
  change callback.scheduler = pipeline.rxDrain.id + 1 at hcurrent
  omega

theorem Watched.step_lost (h : Watched pipeline) (event : RxEvent)
    (hreset : ¬ResetsEmpty pipeline event) : ¬NoLostWakeup (pipeline.step event) := by
  cases event with
  | started rxFrameGapMs leased =>
    simp only [ResetsEmpty, not_or, Bool.not_eq_true] at hreset
    obtain ⟨rfl, hpending⟩ := hreset
    exact h.toWired.reset_lost rxFrameGapMs hpending
  | reconnecting rxFrameGapMs => exact h.toWired.reset_lost rxFrameGapMs hreset
  | reconfigured rxFrameGapMs => exact h.toWired.reset_lost rxFrameGapMs hreset
  | received bytes => exact absurd trivial hreset
  | callback handle => exact absurd trivial hreset
  | flushed => exact absurd trivial hreset
  | stopped => exact absurd trivial hreset

theorem watched_new : Watched {} := by
  refine Watched.of_empty ⟨⟨[], Nat.zero_le _, rfl, rfl, rfl⟩, ?_, ?_⟩ rfl
  · exact ⟨by simp, by simp, List.nodup_nil, by simp, by simp⟩
  · simp [OneDrain]

/-- Throughout a run pending bytes have a drain on its way, just when no scheduler is replaced
in it while bytes are pending. -/
theorem no_wakeup_is_lost_unless_a_reset_finds_bytes (events : List RxEvent) :
    (∀ before, before <+: events → NoLostWakeup (run RxPipeline.step {} before)) ↔
      Along RxPipeline.step ResetsEmpty {} events :=
  throughout_iff (fun _ event h => h.step event) (fun _ h => h.noLostWakeup)
    (fun _ event h => h.step_lost event) watched_new events

/-- A byte that came in less than a gap before a reconfiguration waits for the next one. -/
theorem a_reconfiguration_strands_a_byte :
    ¬∀ events, NoLostWakeup (run RxPipeline.step {} events) := by
  intro hall
  have hreceived : Watched (run RxPipeline.step {} [.received [0x41]]) :=
    watched_new.step (.received [0x41]) trivial
  have hpending : (run RxPipeline.step {} [.received [0x41]]).rxQueue.byteLength ≠ 0 := by decide
  exact hreceived.toWired.reset_lost (.finite 5) hpending
    (hall [.received [0x41], .reconfigured (.finite 5)])

end bbcom.rx_pipeline
