-- When the receive queue is drained (`serial-rx-scheduler.ts`): behind a gap without new bytes,
-- or with the next microtask once much is pending.
import Bbcom.Js

open bbcom.js

namespace bbcom.rx_pipeline

open List

/-! ## Timers and microtasks -/

/-- A callback that the environment has yet to run: the object that asked for it, and the
generation that it had then. A microtask has no delay. -/
structure ScheduledCallback where
  handle : Nat
  scheduler : Nat
  generation : Nat
  delayMs : Option Nat
  deriving DecidableEq

structure SerialTimerScheduler where
  nextHandle : Nat := 0
  callbacks : List ScheduledCallback := []
  deriving DecidableEq

namespace SerialTimerScheduler

variable (timers : SerialTimerScheduler)

/-- The handle of a callback that is added, and the environment with it. -/
def add (scheduler generation : Nat) (delayMs : Option Nat) : Nat × SerialTimerScheduler :=
  (timers.nextHandle,
    { nextHandle := timers.nextHandle + 1
      callbacks := timers.callbacks ++ [⟨timers.nextHandle, scheduler, generation, delayMs⟩] })

def schedule (scheduler generation delayMs : Nat) : Nat × SerialTimerScheduler :=
  timers.add scheduler generation (some delayMs)

def microtask (scheduler generation : Nat) : SerialTimerScheduler :=
  (timers.add scheduler generation none).2

/-- Only timers have a handle that someone holds. -/
def cancel (handle : Nat) : SerialTimerScheduler :=
  { timers with callbacks := timers.callbacks.filter (·.handle ≠ handle) }

end SerialTimerScheduler

/-! ## The scheduler -/

def SERIAL_RX_DRAIN_BYTES : Nat := 64 * 1024
def SERIAL_RX_DRAIN_CHUNKS : Nat := 64
def DEFAULT_RX_FRAME_GAP_MS : Nat := 5
def MIN_RX_FRAME_GAP_MS : Nat := 1
def MAX_RX_FRAME_GAP_MS : Nat := 1000

def normalizeRxFrameGapMs (value : JsNumber) : Nat :=
  if h : value.isFinite then
    max MIN_RX_FRAME_GAP_MS
      (min (MAX_RX_FRAME_GAP_MS : Int) ⌊FiniteNumber.toRat ⟨value, h⟩⌋).toNat
  else DEFAULT_RX_FRAME_GAP_MS

structure SerialRxPending where
  bytes : Int
  chunks : Nat

/-- `id` tells the scheduler from those that it replaces. -/
structure SerialRxDrainScheduler where
  id : Nat
  inactivityGapMs : Nat
  timer : Option Nat := none
  immediateScheduled : Bool := false
  generation : Nat := 0
  deriving DecidableEq

namespace SerialRxDrainScheduler

variable (d : SerialRxDrainScheduler) (timers : SerialTimerScheduler)

/-- `if (this.timer !== null)` with its body in `notify`. -/
def restart : SerialRxDrainScheduler × SerialTimerScheduler :=
  match d.timer with
  | some handle =>
    ({ d with timer := none, generation := d.generation + 1 }, timers.cancel handle)
  | none => (d, timers)

/-- The microtask of a burst that is large. -/
def scheduleImmediate : SerialRxDrainScheduler × SerialTimerScheduler :=
  ({ d with immediateScheduled := true }, timers.microtask d.id d.generation)

/-- The timer of a small burst. -/
def scheduleGap : SerialRxDrainScheduler × SerialTimerScheduler :=
  let (handle, timers) := timers.schedule d.id d.generation d.inactivityGapMs
  ({ d with timer := some handle }, timers)

def notify (pending : SerialRxPending) : SerialRxDrainScheduler × SerialTimerScheduler :=
  if pending.bytes ≤ 0 ∨ pending.chunks = 0 then (d, timers)
  else if pending.bytes ≥ SERIAL_RX_DRAIN_BYTES ∨ pending.chunks ≥ SERIAL_RX_DRAIN_CHUNKS then
    let (d, timers) := d.restart timers
    if d.immediateScheduled then (d, timers) else d.scheduleImmediate timers
  else if d.immediateScheduled then (d, timers)
  else
    let (d, timers) := d.restart timers
    d.scheduleGap timers

def invalidateScheduledWork : SerialRxDrainScheduler × SerialTimerScheduler :=
  ({ d with generation := d.generation + 1, immediateScheduled := false, timer := none },
    match d.timer with
    | some handle => timers.cancel handle
    | none => timers)

/-- `cancel`. -/
def cancel : SerialRxDrainScheduler × SerialTimerScheduler := d.invalidateScheduledWork timers

/-- What a callback of that kind clears when it runs. -/
def ran (delayMs : Option Nat) : SerialRxDrainScheduler :=
  match delayMs with
  | some _ => { d with timer := none }
  | none => { d with immediateScheduled := false }

end SerialRxDrainScheduler

/-! ## What is scheduled -/

/-- The flags of the scheduler are right: its timer and its microtask are there to run, with
the generation that it has. -/
structure Truthful (d : SerialRxDrainScheduler) (timers : SerialTimerScheduler) : Prop where
  timer : ∀ handle, d.timer = some handle →
    ∃ delayMs, ⟨handle, d.id, d.generation, some delayMs⟩ ∈ timers.callbacks
  immediate : d.immediateScheduled = true →
    ∃ handle, ⟨handle, d.id, d.generation, none⟩ ∈ timers.callbacks
  handles : (timers.callbacks.map (·.handle)).Nodup
  below : ∀ callback ∈ timers.callbacks, callback.handle < timers.nextHandle
  known : ∀ callback ∈ timers.callbacks, callback.scheduler ≤ d.id

/-- A drain is on its way. -/
def Awake (d : SerialRxDrainScheduler) : Prop := d.timer.isSome ∨ d.immediateScheduled = true

section

variable {d : SerialRxDrainScheduler} {timers : SerialTimerScheduler}

section

variable (h : Truthful d timers)
include h

theorem Truthful.cancelled (handle : Nat) :
    ((timers.cancel handle).callbacks.map (·.handle)).Nodup ∧
      (∀ callback ∈ (timers.cancel handle).callbacks, callback.handle < timers.nextHandle) ∧
      ∀ callback ∈ (timers.cancel handle).callbacks, callback.scheduler ≤ d.id := by
  refine ⟨h.handles.sublist (filter_sublist.map _), ?_, ?_⟩
  · intro callback hcallback
    exact h.below callback (mem_filter.1 hcallback).1
  · intro callback hcallback
    exact h.known callback (mem_filter.1 hcallback).1

theorem Truthful.invalidate :
    Truthful (d.invalidateScheduledWork timers).1 (d.invalidateScheduledWork timers).2 := by
  unfold SerialRxDrainScheduler.invalidateScheduledWork
  cases d.timer with
  | none => exact ⟨by simp, by simp, h.handles, h.below, h.known⟩
  | some handle =>
    obtain ⟨hhandles, hbelow, hknown⟩ := h.cancelled handle
    exact ⟨by simp, by simp, hhandles, hbelow, hknown⟩

/-- Behind a restart there is no timer, and only a timer has been taken away. -/
theorem Truthful.restart (hone : d.timer.isSome → d.immediateScheduled = false) :
    Truthful (d.restart timers).1 (d.restart timers).2 ∧ (d.restart timers).1.timer = none ∧
      (d.restart timers).1.immediateScheduled = d.immediateScheduled ∧
      (d.restart timers).1.id = d.id := by
  unfold SerialRxDrainScheduler.restart
  cases htimer : d.timer with
  | none => exact ⟨h, htimer, rfl, rfl⟩
  | some handle =>
    obtain ⟨hhandles, hbelow, hknown⟩ := h.cancelled handle
    have hno : d.immediateScheduled = false := hone (by simp [htimer])
    exact ⟨⟨by simp, by simp [hno], hhandles, hbelow, hknown⟩, rfl, rfl, rfl⟩

theorem Truthful.added (scheduler generation : Nat) (delayMs : Option Nat)
    (hscheduler : scheduler ≤ d.id) :
    ((timers.add scheduler generation delayMs).2.callbacks.map (·.handle)).Nodup ∧
      (∀ callback ∈ (timers.add scheduler generation delayMs).2.callbacks,
        callback.handle < (timers.add scheduler generation delayMs).2.nextHandle) ∧
      ∀ callback ∈ (timers.add scheduler generation delayMs).2.callbacks,
        callback.scheduler ≤ d.id := by
  unfold SerialTimerScheduler.add
  dsimp only
  refine ⟨?_, ?_, ?_⟩
  · rw [map_append, map_singleton, nodup_append]
    refine ⟨h.handles, nodup_singleton _, ?_⟩
    intro a ha b hb
    obtain ⟨callback, hcallback, rfl⟩ := mem_map.1 ha
    rw [mem_singleton] at hb
    subst hb
    exact Nat.ne_of_lt (h.below callback hcallback)
  · intro callback hcallback
    rcases mem_append.1 hcallback with hold | hnew
    · exact Nat.lt_succ_of_lt (h.below callback hold)
    · rw [mem_singleton] at hnew
      rw [hnew]
      exact Nat.lt_succ_self _
  · intro callback hcallback
    rcases mem_append.1 hcallback with hold | hnew
    · exact h.known callback hold
    · rw [mem_singleton] at hnew
      rw [hnew]
      exact hscheduler

theorem Truthful.scheduleImmediate :
    Truthful (d.scheduleImmediate timers).1 (d.scheduleImmediate timers).2 := by
  obtain ⟨hhandles, hbelow, hknown⟩ := h.added d.id d.generation none le_rfl
  refine ⟨?_, ?_, hhandles, hbelow, hknown⟩
  · intro handle htimer
    obtain ⟨delayMs, hmem⟩ := h.timer handle htimer
    exact ⟨delayMs, mem_append_left _ hmem⟩
  · intro _
    exact ⟨timers.nextHandle, mem_append_right _ (mem_singleton_self _)⟩

theorem Truthful.scheduleGap : Truthful (d.scheduleGap timers).1 (d.scheduleGap timers).2 := by
  obtain ⟨hhandles, hbelow, hknown⟩ := h.added d.id d.generation (some d.inactivityGapMs) le_rfl
  refine ⟨?_, ?_, hhandles, hbelow, hknown⟩
  · intro handle htimer
    cases htimer
    exact ⟨d.inactivityGapMs, mem_append_right _ (mem_singleton_self _)⟩
  · intro himmediate
    obtain ⟨handle, hmem⟩ := h.immediate himmediate
    exact ⟨handle, mem_append_left _ hmem⟩

end

/-- There is never a timer beside a microtask. -/
def OneDrain (d : SerialRxDrainScheduler) : Prop :=
  d.timer.isSome → d.immediateScheduled = false

/-- What `notify` leaves: the flags are right, and a drain is on its way if bytes are pending. -/
theorem notify_spec (h : Truthful d timers) (hone : OneDrain d) (pending : SerialRxPending) :
    Truthful (d.notify timers pending).1 (d.notify timers pending).2 ∧
      OneDrain (d.notify timers pending).1 ∧ (d.notify timers pending).1.id = d.id ∧
      (Awake d ∨ 0 < pending.bytes ∧ 0 < pending.chunks → Awake (d.notify timers pending).1) := by
  unfold SerialRxDrainScheduler.notify
  obtain ⟨hrestart, hnone, hsame, hid⟩ := h.restart hone
  split
  · rename_i hnothing
    refine ⟨h, hone, rfl, ?_⟩
    rintro (hawake | ⟨hbytes, hchunks⟩)
    · exact hawake
    · omega
  split
  · generalize d.restart timers = restarted at hrestart hnone hsame hid
    obtain ⟨d', timers'⟩ := restarted
    dsimp only at hrestart hnone hsame hid ⊢
    split
    · rename_i himmediate
      exact ⟨hrestart, by simp [OneDrain, hnone], hid, fun _ => .inr himmediate⟩
    · exact ⟨hrestart.scheduleImmediate, by
        simp [OneDrain, SerialRxDrainScheduler.scheduleImmediate, hnone], hid, fun _ => .inr rfl⟩
  split
  · rename_i himmediate
    exact ⟨h, hone, rfl, fun _ => .inr himmediate⟩
  · rename_i himmediate
    generalize d.restart timers = restarted at hrestart hnone hsame hid
    obtain ⟨d', timers'⟩ := restarted
    dsimp only at hrestart hnone hsame hid ⊢
    refine ⟨hrestart.scheduleGap, ?_, hid, fun _ => .inl rfl⟩
    intro _
    change d'.immediateScheduled = false
    rw [hsame]
    simpa using himmediate

/-! ## What has run -/

variable {callback : ScheduledCallback}

theorem Truthful.mem_cancel (h : Truthful d timers) {other : ScheduledCallback}
    (hcallback : callback ∈ timers.callbacks) (hother : other ∈ timers.callbacks)
    (hne : other ≠ callback) : other ∈ (timers.cancel callback.handle).callbacks := by
  apply mem_filter.2
  refine ⟨hother, ?_⟩
  simp only [ne_eq, decide_not, Bool.not_eq_true', decide_eq_false_iff_not]
  exact fun heq => hne (inj_on_of_nodup_map h.handles hother hcallback heq)

/-- A callback of another scheduler, or of an earlier generation, is no loss. -/
theorem Truthful.outdated (h : Truthful d timers) (hcallback : callback ∈ timers.callbacks)
    (hother : callback.scheduler ≠ d.id ∨ callback.generation ≠ d.generation) :
    Truthful d (timers.cancel callback.handle) := by
  obtain ⟨hhandles, hbelow, hknown⟩ := h.cancelled callback.handle
  have hdiffers : ∀ handle delayMs, (⟨handle, d.id, d.generation, delayMs⟩ : ScheduledCallback) ≠
      callback := by
    rintro handle delayMs rfl
    simp at hother
  refine ⟨?_, ?_, hhandles, hbelow, hknown⟩
  · intro handle htimer
    obtain ⟨delayMs, hmem⟩ := h.timer handle htimer
    exact ⟨delayMs, h.mem_cancel hcallback hmem (hdiffers _ _)⟩
  · intro himmediate
    obtain ⟨handle, hmem⟩ := h.immediate himmediate
    exact ⟨handle, h.mem_cancel hcallback hmem (hdiffers _ _)⟩

/-- A callback that runs clears the flag that stands for it. -/
theorem Truthful.ran (h : Truthful d timers) (hcallback : callback ∈ timers.callbacks) :
    Truthful (d.ran callback.delayMs) (timers.cancel callback.handle) := by
  obtain ⟨hhandles, hbelow, hknown⟩ := h.cancelled callback.handle
  unfold SerialRxDrainScheduler.ran
  cases hdelay : callback.delayMs with
  | some delay =>
    refine ⟨by simp, ?_, hhandles, hbelow, hknown⟩
    intro himmediate
    obtain ⟨handle, hmem⟩ := h.immediate himmediate
    refine ⟨handle, h.mem_cancel hcallback hmem ?_⟩
    rintro rfl
    cases hdelay
  | none =>
    refine ⟨?_, by simp, hhandles, hbelow, hknown⟩
    intro handle htimer
    obtain ⟨delayMs, hmem⟩ := h.timer handle htimer
    refine ⟨delayMs, h.mem_cancel hcallback hmem ?_⟩
    rintro rfl
    cases hdelay

end

end bbcom.rx_pipeline
