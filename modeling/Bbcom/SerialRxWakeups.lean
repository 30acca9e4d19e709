-- Whether a drain scheduler (`serial-rx-scheduler.ts`) ever loses a wakeup, for any queue behind
-- it and any drain: a drain may leave a tail, and may come back to the scheduler or replace it
-- before it returns.
import Bbcom.Lib.Runs
import Bbcom.SerialRxScheduler

open bbcom.js bbcom.runs bbcom.rx_pipeline

namespace bbcom.rx_drain

open List Function SerialTimerScheduler Nat

/-! ## The schedulers and who calls them -/

/-- What a drain does before it returns: the queue changes, or the scheduler in use is called.
A `flushNow` in it calls a drain again. -/
inductive Drain
  | done
  | pending (pending : SerialRxPending) (rest : Drain)
  | notify (rest : Drain)
  | flushNow (drain rest : Drain)
  | cancel (rest : Drain)
  | replace (rxFrameGapMs : JsNumber) (rest : Drain)

/-- All schedulers, by their ids, with what `getPending` answers them. A change of the mode makes
a new scheduler, `inUse`. The last two fields only record what happened: the calls of `drain`,
and that a `notify` of a scheduler has come while these data were pending. -/
structure RxDrains where
  schedulers : Nat → SerialRxDrainScheduler
  inUse : Nat
  timers : SerialTimerScheduler
  pending : SerialRxPending
  drained : Nat
  heard : Nat → Bool

def newScheduler (id : Nat) (rxFrameGapMs : JsNumber) : SerialRxDrainScheduler :=
  { id, inactivityGapMs := normalizeRxFrameGapMs rxFrameGapMs }

namespace RxDrains

def new (rxFrameGapMs : JsNumber) : RxDrains where
  schedulers id := newScheduler id rxFrameGapMs
  inUse := 0
  timers := {}
  pending := ⟨0, 0⟩
  drained := 0
  heard _ := false

variable (s : RxDrains) (id : Nat)

def hasData : Bool := decide (0 < s.pending.bytes ∧ 0 < s.pending.chunks)

/-- Data that come when there are none have not been heard of. -/
def setPending (pending : SerialRxPending) : RxDrains :=
  { s with pending, heard := fun id => s.heard id && s.hasData }

def put (result : SerialRxDrainScheduler × SerialTimerScheduler) (heard : Bool) : RxDrains :=
  { s with
    schedulers := update s.schedulers id result.1
    timers := result.2
    heard := update s.heard id heard }

def notify : RxDrains := s.put id ((s.schedulers id).notify s.timers s.pending) true

def cancel : RxDrains := s.put id ((s.schedulers id).cancel s.timers) false

def replace (rxFrameGapMs : JsNumber) : RxDrains :=
  let s := s.cancel s.inUse
  let s := s.put (s.inUse + 1) (newScheduler (s.inUse + 1) rxFrameGapMs, s.timers) false
  { s with inUse := s.inUse + 1 }

def called : RxDrains := { s with drained := s.drained + 1 }

end RxDrains

def Drain.run : Drain → RxDrains → RxDrains
  | .done, s => s
  | .pending found rest, s => rest.run (s.setPending found)
  | .notify rest, s => rest.run (s.notify s.inUse)
  | .flushNow drain rest, s =>
    let id := s.inUse
    let s := s.cancel id
    rest.run (if s.hasData then (drain.run s.called).notify id else s)
  | .cancel rest, s => rest.run (s.cancel s.inUse)
  | .replace rxFrameGapMs rest, s => rest.run (s.replace rxFrameGapMs)

namespace RxDrains

variable (s : RxDrains) (id : Nat)

def drainPending (drain : Drain) : RxDrains :=
  if s.hasData then (drain.run s.called).notify id else s

def flushNow (drain : Drain) : RxDrains := (s.cancel s.inUse).drainPending s.inUse drain

/-- The body of a callback, of the scheduler that asked for it. -/
def runCallback (callback : ScheduledCallback) (drain : Drain) : RxDrains :=
  let scheduler := s.schedulers callback.scheduler
  if callback.generation ≠ scheduler.generation then s
  else
    (s.put callback.scheduler (scheduler.ran callback.delayMs, s.timers) false).drainPending
      callback.scheduler drain

def runHandle (handle : Nat) (drain : Drain) : RxDrains :=
  match s.timers.callbacks.find? (·.handle = handle) with
  | none => s
  | some callback => runCallback { s with timers := s.timers.cancel handle } callback drain

end RxDrains

/-- What happens next, with the drain that it calls if it calls one. -/
inductive Event
  | pending (pending : SerialRxPending)
  | notify
  | flushNow (drain : Drain)
  | cancel
  | callback (handle : Nat) (drain : Drain)
  | replace (rxFrameGapMs : JsNumber)

def step (s : RxDrains) : Event → RxDrains
  | .pending pending => s.setPending pending
  | .notify => s.notify s.inUse
  | .flushNow drain => s.flushNow drain
  | .cancel => s.cancel s.inUse
  | .callback handle drain => s.runHandle handle drain
  | .replace rxFrameGapMs => s.replace rxFrameGapMs

/-! ## The callbacks of one scheduler -/

section Callbacks

variable (timers : SerialTimerScheduler) (d : SerialRxDrainScheduler)

def callbacksOf (id : Nat) : List ScheduledCallback :=
  timers.callbacks.filter (·.scheduler = id)

/-- The callbacks that will drain. -/
def currentOf : List ScheduledCallback :=
  (callbacksOf timers d.id).filter (·.generation = d.generation)

/-- No two callbacks have a handle in common. -/
structure Distinct : Prop where
  handles : (timers.callbacks.map (·.handle)).Nodup
  below : ∀ callback ∈ timers.callbacks, callback.handle < timers.nextHandle

end Callbacks

/-- The flags of a scheduler say exactly which callback will drain, one at most. -/
inductive Ticking (d : SerialRxDrainScheduler) : List ScheduledCallback → Prop
  | idle (timer : d.timer = none) (immediate : d.immediateScheduled = false) : Ticking d []
  | gap {handle delayMs : Nat} (timer : d.timer = some handle)
      (immediate : d.immediateScheduled = false) :
      Ticking d [⟨handle, d.id, d.generation, some delayMs⟩]
  | immediate {handle : Nat} (timer : d.timer = none) (immediate : d.immediateScheduled = true) :
      Ticking d [⟨handle, d.id, d.generation, none⟩]

structure Exact (timers : SerialTimerScheduler) (d : SerialRxDrainScheduler) : Prop where
  ticking : Ticking d (currentOf timers d)
  older : ∀ callback ∈ callbacksOf timers d.id, callback.generation ≤ d.generation

/-- What a call of one scheduler leaves to the others. -/
structure Spares (id : Nat) (timers timers' : SerialTimerScheduler) : Prop where
  distinct : Distinct timers'
  others : ∀ other, other ≠ id → callbacksOf timers' other = callbacksOf timers other

variable {timers timers' : SerialTimerScheduler} {d d' : SerialRxDrainScheduler}

theorem Spares.refl (id : Nat) (h : Distinct timers) : Spares id timers timers :=
  ⟨h, fun _ _ => rfl⟩

theorem Spares.trans {id : Nat} {timers'' : SerialTimerScheduler} (h : Spares id timers timers')
    (h' : Spares id timers' timers'') : Spares id timers timers'' :=
  ⟨h'.distinct, fun other hother => (h'.others other hother).trans (h.others other hother)⟩

variable {callback : ScheduledCallback}

theorem mem_callbacksOf {id : Nat} :
    callback ∈ callbacksOf timers id ↔ callback ∈ timers.callbacks ∧ callback.scheduler = id := by
  simp [callbacksOf]

theorem mem_currentOf :
    callback ∈ currentOf timers d ↔ callback ∈ timers.callbacks ∧ callback.scheduler = d.id ∧
      callback.generation = d.generation := by
  simp [currentOf, mem_callbacksOf, and_assoc]

/-- A callback that is cancelled, or that runs, is the only one that goes. -/
theorem Distinct.gone (h : Distinct timers) (hcallback : callback ∈ timers.callbacks)
    (other : ScheduledCallback) (hother : other ∈ timers.callbacks) :
    other.handle = callback.handle ↔ other = callback :=
  ⟨inj_on_of_nodup_map h.handles hother hcallback, congrArg _⟩

theorem Distinct.spares_cancel (h : Distinct timers) (hcallback : callback ∈ timers.callbacks) :
    Spares callback.scheduler timers (timers.cancel callback.handle) := by
  refine ⟨⟨h.handles.sublist (filter_sublist.map _), fun other hother => ?_⟩, ?_⟩
  · exact h.below other (mem_filter.1 hother).1
  · intro other hother
    unfold callbacksOf cancel
    rw [filter_filter]
    apply filter_congr
    intro kept hkept
    by_cases hscheduler : kept.scheduler = other
    · have hne : kept ≠ callback := fun heq => hother (by rw [← hscheduler, heq])
      simp [hscheduler, (h.gone hcallback kept hkept).not.2 hne]
    · simp [hscheduler]

theorem Distinct.spares_add (h : Distinct timers) (id generation : Nat) (delayMs : Option Nat) :
    Spares id timers (timers.add id generation delayMs).2 := by
  refine ⟨⟨?_, ?_⟩, ?_⟩
  · unfold add
    rw [map_append, nodup_append]
    refine ⟨h.handles, nodup_singleton _, ?_⟩
    intro handle hhandle new hnew
    obtain ⟨callback, hcallback, rfl⟩ := mem_map.1 hhandle
    obtain rfl : new = timers.nextHandle := by simpa using hnew
    exact (h.below callback hcallback).ne
  · intro callback hcallback
    rcases mem_append.1 hcallback with hold | hnew
    · exact lt_succ_of_lt (h.below callback hold)
    · rw [mem_singleton.1 hnew]
      exact lt_succ_self _
  · intro other hother
    simp [callbacksOf, add, Ne.symm hother]

/-! ## What the calls of one scheduler do -/

/-- Behind a new generation no callback is current. -/
theorem Exact.next_generation (h : Exact timers d)
    (hsub : callbacksOf timers' d.id ⊆ callbacksOf timers d.id) (hid : d'.id = d.id)
    (hgeneration : d'.generation = d.generation + 1) (htimer : d'.timer = none)
    (himmediate : d'.immediateScheduled = false) : Exact timers' d' := by
  have hnone : currentOf timers' d' = [] := by
    apply filter_eq_nil_iff.2
    intro callback hcallback
    rw [hid] at hcallback
    have hle := h.older callback (hsub hcallback)
    simp only [hgeneration, decide_eq_true_eq]
    omega
  refine ⟨hnone ▸ .idle htimer himmediate, fun callback hcallback => ?_⟩
  rw [hid] at hcallback
  have hle := h.older callback (hsub hcallback)
  omega

theorem callbacksOf_cancel_subset (handle id : Nat) :
    callbacksOf (timers.cancel handle) id ⊆ callbacksOf timers id := by
  intro callback hcallback
  obtain ⟨hmem, hid⟩ := mem_callbacksOf.1 hcallback
  exact mem_callbacksOf.2 ⟨(mem_filter.1 hmem).1, hid⟩

section

variable (h : Exact timers d)
include h

/-- The timer of a scheduler is one of its own callbacks. -/
theorem Exact.timer_mem {handle : Nat} (htimer : d.timer = some handle) :
    ∃ callback ∈ timers.callbacks, callback.scheduler = d.id ∧ callback.handle = handle := by
  have hticking := h.ticking
  generalize hcurrent : currentOf timers d = current at hticking
  cases hticking with
  | idle hnone _ => simp [hnone] at htimer
  | immediate hnone _ => simp [hnone] at htimer
  | @gap other delayMs hsome _ =>
    obtain rfl : handle = other := by simpa [htimer] using hsome
    have hmem := mem_currentOf.1 (hcurrent ▸ mem_singleton_self _)
    exact ⟨_, hmem.1, rfl, rfl⟩

theorem Exact.spares_timer (hdistinct : Distinct timers) {handle : Nat}
    (htimer : d.timer = some handle) : Spares d.id timers (timers.cancel handle) := by
  obtain ⟨callback, hmem, hid, rfl⟩ := h.timer_mem htimer
  exact hid ▸ hdistinct.spares_cancel hmem

theorem Exact.restart (hdistinct : Distinct timers) :
    Exact (d.restart timers).2 (d.restart timers).1 ∧
      Spares d.id timers (d.restart timers).2 ∧ (d.restart timers).1.id = d.id ∧
      (d.restart timers).1.timer = none ∧
      (d.restart timers).1.immediateScheduled = d.immediateScheduled := by
  unfold SerialRxDrainScheduler.restart
  cases htimer : d.timer with
  | none => exact ⟨h, .refl _ hdistinct, rfl, htimer, rfl⟩
  | some handle =>
    have hno : d.immediateScheduled = false := by
      have hticking := h.ticking
      generalize currentOf timers d = current at hticking
      cases hticking with
      | idle _ hno => exact hno
      | gap _ hno => exact hno
      | immediate hnone _ => simp [hnone] at htimer
    exact ⟨h.next_generation (callbacksOf_cancel_subset handle d.id) rfl rfl rfl hno,
      h.spares_timer hdistinct htimer, rfl, rfl, rfl⟩

/-- A callback that is asked for when none is current becomes the current one. -/
theorem Exact.added (hnone : currentOf timers d = []) (delayMs : Option Nat) (hid : d'.id = d.id)
    (hgeneration : d'.generation = d.generation)
    (hticking : Ticking d' [⟨timers.nextHandle, d.id, d.generation, delayMs⟩]) :
    Exact (timers.add d.id d.generation delayMs).2 d' := by
  have hold : (timers.callbacks.filter (·.scheduler = d.id)).filter
      (·.generation = d.generation) = [] := hnone
  constructor
  · have hcurrent : currentOf (timers.add d.id d.generation delayMs).2 d' =
        [⟨timers.nextHandle, d.id, d.generation, delayMs⟩] := by
      unfold currentOf callbacksOf add
      rw [hid, hgeneration, filter_append, filter_append, hold]
      simp
    rw [hcurrent]
    exact hticking
  · intro callback hcallback
    rw [hid] at hcallback
    rw [hgeneration]
    obtain ⟨hmem, hscheduler⟩ := mem_callbacksOf.1 hcallback
    rcases mem_append.1 hmem with hkept | hnew
    · exact h.older callback (mem_callbacksOf.2 ⟨hkept, hscheduler⟩)
    · rw [mem_singleton.1 hnew]

theorem Exact.none_current (htimer : d.timer = none) (himmediate : d.immediateScheduled = false) :
    currentOf timers d = [] := by
  have hticking := h.ticking
  generalize currentOf timers d = current at hticking
  cases hticking with
  | idle _ _ => rfl
  | gap hsome _ => simp [htimer] at hsome
  | immediate _ hyes => simp [himmediate] at hyes

theorem Exact.one_current (hawake : d.timer.isSome ∨ d.immediateScheduled = true) :
    (currentOf timers d).length = 1 := by
  have hticking := h.ticking
  generalize currentOf timers d = current at hticking
  cases hticking with
  | idle hnone hno => simp [hnone, hno] at hawake
  | gap _ _ => rfl
  | immediate _ _ => rfl

theorem Exact.notify (hdistinct : Distinct timers) (pending : SerialRxPending) :
    Exact (d.notify timers pending).2 (d.notify timers pending).1 ∧
      Spares d.id timers (d.notify timers pending).2 ∧
      (d.notify timers pending).1.id = d.id ∧
      (0 < pending.bytes ∧ 0 < pending.chunks →
        (currentOf (d.notify timers pending).2 (d.notify timers pending).1).length = 1) := by
  unfold SerialRxDrainScheduler.notify
  obtain ⟨hrestart, hspares, hid, hnone, hsame⟩ := h.restart hdistinct
  split
  · rename_i hnothing
    refine ⟨h, .refl _ hdistinct, rfl, fun hdata => ?_⟩
    omega
  split
  -- much is pending: the next microtask drains, and takes the place of a timer
  · generalize d.restart timers = restarted at hrestart hspares hid hnone hsame
    obtain ⟨d', timers'⟩ := restarted
    dsimp only at hrestart hspares hid hnone hsame ⊢
    split
    · rename_i himmediate
      exact ⟨hrestart, hspares, hid, fun _ => hrestart.one_current (.inr himmediate)⟩
    · rename_i himmediate
      have hadded : Exact (timers'.microtask d'.id d'.generation)
          { d' with immediateScheduled := true } :=
        hrestart.added (hrestart.none_current hnone (by simpa using himmediate)) none rfl rfl
          (.immediate hnone rfl)
      refine ⟨hadded, hspares.trans (hid ▸ hspares.distinct.spares_add _ _ _), hid, fun _ => ?_⟩
      exact hadded.one_current (.inr rfl)
  split
  · rename_i himmediate
    exact ⟨h, .refl _ hdistinct, rfl, fun _ => h.one_current (.inr himmediate)⟩
  -- little is pending: the gap starts again
  · rename_i himmediate
    generalize d.restart timers = restarted at hrestart hspares hid hnone hsame
    obtain ⟨d', timers'⟩ := restarted
    dsimp only at hrestart hspares hid hnone hsame ⊢
    have hno : d'.immediateScheduled = false := by simpa [hsame] using himmediate
    have hadded : Exact (timers'.schedule d'.id d'.generation d'.inactivityGapMs).2
        { d' with timer := some timers'.nextHandle } :=
      hrestart.added (hrestart.none_current hnone hno) (some d'.inactivityGapMs) rfl rfl
        (.gap rfl hno)
    refine ⟨hadded, hspares.trans (hid ▸ hspares.distinct.spares_add _ _ _), hid, fun _ => ?_⟩
    exact hadded.one_current (.inl rfl)

theorem Exact.cancel (hdistinct : Distinct timers) :
    Exact (d.cancel timers).2 (d.cancel timers).1 ∧ Spares d.id timers (d.cancel timers).2 := by
  unfold SerialRxDrainScheduler.cancel SerialRxDrainScheduler.invalidateScheduledWork
  cases htimer : d.timer with
  | none =>
    exact ⟨h.next_generation (Subset.refl _) rfl rfl rfl rfl, .refl _ hdistinct⟩
  | some handle =>
    exact ⟨h.next_generation (callbacksOf_cancel_subset handle d.id) rfl rfl rfl rfl,
      h.spares_timer hdistinct htimer⟩

/-- A current callback that runs takes the flag with it that stands for it. -/
theorem Exact.ran (hcallback : callback ∈ currentOf timers d) :
    Exact (timers.cancel callback.handle) (d.ran callback.delayMs) ∧
      (d.ran callback.delayMs).id = d.id := by
  obtain ⟨hmem, hscheduler, hgeneration⟩ := mem_currentOf.1 hcallback
  have hsame : (d.ran callback.delayMs).id = d.id ∧
      (d.ran callback.delayMs).generation = d.generation := by
    unfold SerialRxDrainScheduler.ran
    cases callback.delayMs <;> exact ⟨rfl, rfl⟩
  have hflags : currentOf timers d = [callback] ∧ (d.ran callback.delayMs).timer = none ∧
      (d.ran callback.delayMs).immediateScheduled = false := by
    have hticking := h.ticking
    generalize currentOf timers d = current at hticking hcallback
    cases hticking with
    | idle _ _ => exact absurd hcallback not_mem_nil
    | gap _ hno =>
      obtain rfl := mem_singleton.1 hcallback
      exact ⟨rfl, rfl, hno⟩
    | immediate hnone _ =>
      obtain rfl := mem_singleton.1 hcallback
      exact ⟨rfl, hnone, rfl⟩
  obtain ⟨hone, htimer, himmediate⟩ := hflags
  have hnone : currentOf (timers.cancel callback.handle) (d.ran callback.delayMs) = [] := by
    apply eq_nil_iff_forall_not_mem.2
    intro other hother
    obtain ⟨hleft, hid, hcurrent⟩ := mem_currentOf.1 hother
    rw [hsame.1] at hid
    rw [hsame.2] at hcurrent
    obtain ⟨hkept, hhandle⟩ := mem_filter.1 hleft
    have hcase : other ∈ currentOf timers d := mem_currentOf.2 ⟨hkept, hid, hcurrent⟩
    rw [hone, mem_singleton] at hcase
    simp [hcase] at hhandle
  refine ⟨⟨hnone ▸ .idle htimer himmediate, fun other hother => ?_⟩, hsame.1⟩
  rw [hsame.1] at hother
  rw [hsame.2]
  exact h.older other (callbacksOf_cancel_subset _ _ hother)

/-- A callback of an earlier generation is no loss. -/
theorem Exact.outdated (hdistinct : Distinct timers) (hcallback : callback ∈ timers.callbacks)
    (holder : callback.generation ≠ d.generation) :
    Exact (timers.cancel callback.handle) d ∧
      currentOf (timers.cancel callback.handle) d = currentOf timers d := by
  have hsame : currentOf (timers.cancel callback.handle) d = currentOf timers d := by
    unfold currentOf callbacksOf SerialTimerScheduler.cancel
    rw [filter_filter, filter_filter, filter_filter]
    apply filter_congr
    intro kept hkept
    by_cases hgeneration : kept.generation = d.generation
    · have hne : kept ≠ callback := fun heq => holder (by rw [← heq, hgeneration])
      simp [hgeneration, (hdistinct.gone hcallback kept hkept).not.2 hne]
    · simp [hgeneration]
  refine ⟨⟨hsame ▸ h.ticking, fun other hother => ?_⟩, hsame⟩
  exact h.older other (callbacksOf_cancel_subset _ _ hother)

end

/-! ## All schedulers -/

/-- The callbacks of a scheduler that will drain. -/
def RxDrains.current (s : RxDrains) (id : Nat) : List ScheduledCallback :=
  currentOf s.timers (s.schedulers id)

structure Sound (s : RxDrains) : Prop where
  distinct : Distinct s.timers
  ids : ∀ id, (s.schedulers id).id = id
  exact : ∀ id, Exact s.timers (s.schedulers id)
  unused : ∀ id, s.inUse < id → callbacksOf s.timers id = []
  awake : ∀ id, s.heard id = true → s.hasData = true → (s.current id).length = 1

variable {s : RxDrains} {id : Nat}

/-- What one scheduler does says nothing about the others. -/
theorem Exact.of_spared {id other : Nat} (h : Exact timers d) (hid : d.id = other)
    (hspares : Spares id timers timers') (hother : other ≠ id) :
    Exact timers' d ∧ currentOf timers' d = currentOf timers d := by
  have hsame : callbacksOf timers' d.id = callbacksOf timers d.id :=
    hspares.others d.id (hid ▸ hother)
  have hcurrent : currentOf timers' d = currentOf timers d := by
    unfold currentOf
    rw [hsame]
  exact ⟨⟨hcurrent ▸ h.ticking, hsame ▸ h.older⟩, hcurrent⟩

theorem Sound.put (h : Sound s) (hid : id ≤ s.inUse)
    {result : SerialRxDrainScheduler × SerialTimerScheduler} {heard : Bool}
    (hexact : Exact result.2 result.1) (hspares : Spares id s.timers result.2)
    (hsame : result.1.id = id)
    (hawake : heard = true → s.hasData = true → (currentOf result.2 result.1).length = 1) :
    Sound (s.put id result heard) := by
  have hothers : ∀ other, other ≠ id → Exact result.2 (s.schedulers other) ∧
      currentOf result.2 (s.schedulers other) = s.current other :=
    fun other hother => (h.exact other).of_spared (h.ids other) hspares hother
  constructor
  · exact hspares.distinct
  · intro other
    by_cases hother : other = id
    · subst hother
      simpa [RxDrains.put] using hsame
    · simpa [RxDrains.put, hother] using h.ids other
  · intro other
    by_cases hother : other = id
    · subst hother
      simpa [RxDrains.put] using hexact
    · simpa [RxDrains.put, hother] using (hothers other hother).1
  · intro other hlt
    have hne : other ≠ id := by
      rintro rfl
      exact absurd hlt (by simpa [RxDrains.put] using hid)
    exact (hspares.others other hne).trans (h.unused other hlt)
  · intro other hheard hdata
    by_cases hother : other = id
    · subst hother
      simp only [RxDrains.put, update_self] at hheard
      simpa [RxDrains.current, RxDrains.put] using hawake hheard hdata
    · simp only [RxDrains.put, update_of_ne hother] at hheard
      simpa [RxDrains.current, RxDrains.put, hother, (hothers other hother).2]
        using h.awake other hheard hdata

theorem Sound.notify (h : Sound s) (hid : id ≤ s.inUse) :
    Sound (s.notify id) ∧ (s.hasData = true → ((s.notify id).current id).length = 1) := by
  obtain ⟨hexact, hspares, hsame, hone⟩ := (h.exact id).notify h.distinct s.pending
  rw [h.ids id] at hspares hsame
  have hawake : s.hasData = true → (currentOf ((s.schedulers id).notify s.timers s.pending).2
      ((s.schedulers id).notify s.timers s.pending).1).length = 1 :=
    fun hdata => hone (by simpa [RxDrains.hasData] using hdata)
  refine ⟨h.put hid hexact hspares hsame fun _ => hawake, fun hdata => ?_⟩
  simpa [RxDrains.current, RxDrains.notify, RxDrains.put] using hawake hdata

theorem Sound.cancel (h : Sound s) (hid : id ≤ s.inUse) : Sound (s.cancel id) := by
  obtain ⟨hexact, hspares⟩ := (h.exact id).cancel h.distinct
  rw [h.ids id] at hspares
  exact h.put hid hexact hspares (h.ids id) fun hheard => absurd hheard (by decide)

theorem Sound.setPending (h : Sound s) (pending : SerialRxPending) :
    Sound (s.setPending pending) := by
  refine ⟨h.distinct, h.ids, h.exact, h.unused, fun id hheard _ => ?_⟩
  obtain ⟨hbefore, hdata⟩ : s.heard id = true ∧ s.hasData = true := by
    simpa [RxDrains.setPending] using hheard
  exact h.awake id hbefore hdata

theorem Sound.called (h : Sound s) : Sound s.called :=
  ⟨h.distinct, h.ids, h.exact, h.unused, h.awake⟩

theorem Sound.replace (h : Sound s) (rxFrameGapMs : JsNumber) : Sound (s.replace rxFrameGapMs) := by
  have hcut : Sound (s.cancel s.inUse) := h.cancel le_rfl
  have hnone : callbacksOf (s.cancel s.inUse).timers (s.inUse + 1) = [] :=
    hcut.unused (s.inUse + 1) (lt_succ_self _)
  have hwider : Sound { s.cancel s.inUse with inUse := s.inUse + 1 } :=
    ⟨hcut.distinct, hcut.ids, hcut.exact, fun id hlt => hcut.unused id (lt_of_succ_lt hlt),
      hcut.awake⟩
  have hnew : Exact (s.cancel s.inUse).timers (newScheduler (s.inUse + 1) rxFrameGapMs) := by
    have hcurrent : currentOf (s.cancel s.inUse).timers
        (newScheduler (s.inUse + 1) rxFrameGapMs) = [] := by
      change (callbacksOf (s.cancel s.inUse).timers (s.inUse + 1)).filter _ = []
      rw [hnone]
      rfl
    refine ⟨hcurrent ▸ .idle rfl rfl, fun callback hcallback => ?_⟩
    change callback ∈ callbacksOf (s.cancel s.inUse).timers (s.inUse + 1) at hcallback
    rw [hnone] at hcallback
    exact absurd hcallback not_mem_nil
  exact hwider.put le_rfl hnew (.refl _ hcut.distinct) rfl fun hheard => absurd hheard (by decide)

/-! ## Drains -/

/-- A drain leaves everything in order, whatever it calls, and no scheduler comes back into
use. -/
theorem Sound.run (drain : Drain) : ∀ {s : RxDrains}, Sound s →
    Sound (drain.run s) ∧ s.inUse ≤ (drain.run s).inUse := by
  induction drain with
  | done => exact fun h => ⟨h, le_rfl⟩
  | pending found rest ih => exact fun h => ih (h.setPending found)
  | notify rest ih => exact fun h => ih (h.notify le_rfl).1
  | cancel rest ih => exact fun h => ih (h.cancel le_rfl)
  | replace rxFrameGapMs rest ih =>
    intro s h
    obtain ⟨hrest, hle⟩ := ih (h.replace rxFrameGapMs)
    exact ⟨hrest, (le_succ _).trans hle⟩
  | flushNow drain rest ihdrain ih =>
    intro s h
    have hcut := h.cancel (le_refl s.inUse)
    unfold Drain.run
    dsimp only
    split
    · obtain ⟨hinner, hle⟩ := ihdrain hcut.called
      obtain ⟨hrest, hle'⟩ := ih (hinner.notify hle).1
      exact ⟨hrest, hle.trans hle'⟩
    · exact ih hcut

theorem Sound.drainPending (h : Sound s) (hid : id ≤ s.inUse) (drain : Drain) :
    Sound (s.drainPending id drain) ∧ ((s.drainPending id drain).hasData = true →
      ((s.drainPending id drain).current id).length = 1) := by
  unfold RxDrains.drainPending
  split
  · obtain ⟨hdrained, hle⟩ := h.called.run drain
    exact hdrained.notify (hid.trans hle)
  · rename_i hnothing
    exact ⟨h, fun hdata => absurd hdata hnothing⟩

theorem Sound.flushNow (h : Sound s) (drain : Drain) :
    Sound (s.flushNow drain) ∧ ((s.flushNow drain).hasData = true →
      ((s.flushNow drain).current s.inUse).length = 1) :=
  (h.cancel le_rfl).drainPending le_rfl drain

section

variable (h : Sound s) (hcallback : callback ∈ s.timers.callbacks)
include h hcallback

theorem Sound.find : s.timers.callbacks.find? (·.handle = callback.handle) = some callback := by
  have hsome : (s.timers.callbacks.find? (·.handle = callback.handle)).isSome := by
    rw [find?_isSome]
    exact ⟨callback, hcallback, by simp⟩
  obtain ⟨found, hfound⟩ := Option.isSome_iff_exists.1 hsome
  have hhandle : found.handle = callback.handle := by simpa using find?_some hfound
  rw [hfound, (h.distinct.gone hcallback found (mem_of_find?_eq_some hfound)).1 hhandle]

theorem Sound.used : callback.scheduler ≤ s.inUse := by
  by_contra hlt
  have hmem := mem_callbacksOf.2 ⟨hcallback, rfl⟩
  rw [h.unused callback.scheduler (Nat.lt_of_not_le hlt)] at hmem
  exact absurd hmem not_mem_nil

/-- A callback of an earlier generation takes itself away, and that is all. -/
theorem Sound.runHandle_outdated
    (hother : callback.generation ≠ (s.schedulers callback.scheduler).generation) (drain : Drain) :
    s.runHandle callback.handle drain = { s with timers := s.timers.cancel callback.handle } := by
  unfold RxDrains.runHandle
  rw [h.find hcallback]
  exact if_pos hother

theorem Sound.runHandle_current
    (hsame : callback.generation = (s.schedulers callback.scheduler).generation) (drain : Drain) :
    Sound (s.runHandle callback.handle drain) ∧
      ((s.runHandle callback.handle drain).hasData = true →
        ((s.runHandle callback.handle drain).current callback.scheduler).length = 1) := by
  have hid := h.ids callback.scheduler
  have hcurrent : callback ∈ currentOf s.timers (s.schedulers callback.scheduler) :=
    mem_currentOf.2 ⟨hcallback, hid.symm, hsame⟩
  obtain ⟨hran, hranId⟩ := (h.exact callback.scheduler).ran hcurrent
  have hput : Sound (s.put callback.scheduler
      ((s.schedulers callback.scheduler).ran callback.delayMs,
        s.timers.cancel callback.handle) false) :=
    h.put (h.used hcallback) hran (h.distinct.spares_cancel hcallback) (hranId.trans hid)
      fun hheard => absurd hheard (by decide)
  have hrun : s.runHandle callback.handle drain =
      (s.put callback.scheduler ((s.schedulers callback.scheduler).ran callback.delayMs,
        s.timers.cancel callback.handle) false).drainPending callback.scheduler drain := by
    unfold RxDrains.runHandle
    rw [h.find hcallback]
    exact if_neg (not_not.2 hsame)
  rw [hrun]
  exact hput.drainPending (h.used hcallback) drain

end

theorem Sound.runHandle (h : Sound s) (handle : Nat) (drain : Drain) :
    Sound (s.runHandle handle drain) := by
  cases hfound : s.timers.callbacks.find? (·.handle = handle) with
  | none =>
    unfold RxDrains.runHandle
    rw [hfound]
    exact h
  | some callback =>
    have hcallback := mem_of_find?_eq_some hfound
    obtain rfl : callback.handle = handle := by simpa using find?_some hfound
    by_cases hsame : callback.generation = (s.schedulers callback.scheduler).generation
    · exact (h.runHandle_current hcallback hsame drain).1
    · rw [h.runHandle_outdated hcallback hsame]
      obtain ⟨hexact, hcurrent⟩ := (h.exact callback.scheduler).outdated h.distinct hcallback hsame
      have hput : Sound (s.put callback.scheduler
          (s.schedulers callback.scheduler, s.timers.cancel callback.handle)
          (s.heard callback.scheduler)) := by
        refine h.put (h.used hcallback) hexact (h.distinct.spares_cancel hcallback) (h.ids _) ?_
        rw [hcurrent]
        exact h.awake callback.scheduler
      simpa [RxDrains.put] using hput

/-! ## Runs -/

theorem Sound.step (h : Sound s) (event : Event) : Sound (step s event) := by
  cases event with
  | pending found => exact h.setPending found
  | notify => exact (h.notify le_rfl).1
  | flushNow drain => exact (h.flushNow drain).1
  | cancel => exact h.cancel le_rfl
  | callback handle drain => exact h.runHandle handle drain
  | replace rxFrameGapMs => exact h.replace rxFrameGapMs

theorem sound_new (rxFrameGapMs : JsNumber) : Sound (.new rxFrameGapMs) := by
  refine ⟨⟨nodup_nil, by simp [RxDrains.new]⟩, fun _ => rfl, fun id => ?_, fun _ _ => rfl, ?_⟩
  · exact ⟨.idle rfl rfl, fun callback hcallback => absurd hcallback not_mem_nil⟩
  · intro id hheard
    simp [RxDrains.new] at hheard

/-- What a state says about wakeups. -/
structure Wakeful (s : RxDrains) : Prop where
  /-- While data are pending that a `notify` has found, one callback will drain them. -/
  heard : ∀ id, s.heard id = true → s.hasData = true → (s.current id).length = 1
  never_two : ∀ id, (s.current id).length ≤ 1
  notify : (step s .notify).hasData = true → ((step s .notify).current s.inUse).length = 1
  flushNow : ∀ drain, (step s (.flushNow drain)).hasData = true →
    ((step s (.flushNow drain)).current s.inUse).length = 1
  /-- A callback that drains leaves no tail without a callback. -/
  callback : ∀ callback ∈ s.timers.callbacks,
    callback.generation = (s.schedulers callback.scheduler).generation → ∀ drain,
      (step s (.callback callback.handle drain)).hasData = true →
        ((step s (.callback callback.handle drain)).current callback.scheduler).length = 1
  known : ∀ callback ∈ s.timers.callbacks,
    callback.generation ≤ (s.schedulers callback.scheduler).generation
  outdated : ∀ callback ∈ s.timers.callbacks,
    callback.generation < (s.schedulers callback.scheduler).generation → ∀ drain,
      step s (.callback callback.handle drain) =
        { s with timers := s.timers.cancel callback.handle }

theorem Sound.wakeful (h : Sound s) : Wakeful s where
  heard := h.awake
  never_two id := by
    have hticking := (h.exact id).ticking
    change (currentOf s.timers (s.schedulers id)).length ≤ 1
    generalize currentOf s.timers (s.schedulers id) = current at hticking
    cases hticking with
    | idle _ _ => exact zero_le 1
    | gap _ _ => exact le_rfl
    | immediate _ _ => exact le_rfl
  notify := (h.notify le_rfl).2
  flushNow drain := (h.flushNow drain).2
  callback callback hcallback hsame drain := (h.runHandle_current hcallback hsame drain).2
  known callback hcallback := by
    apply (h.exact callback.scheduler).older callback
    rw [h.ids]
    exact mem_callbacksOf.2 ⟨hcallback, rfl⟩
  outdated callback hcallback hlt drain := h.runHandle_outdated hcallback hlt.ne drain

/-- In every run data that a `notify` has found have exactly one callback on its way, and
callbacks of an earlier generation never drain. -/
theorem no_wakeup_is_lost (rxFrameGapMs : JsNumber) (events : List Event) :
    Wakeful (run step (.new rxFrameGapMs) events) := by
  have hsound : Sound (run step (.new rxFrameGapMs) events) :=
    run_invariant (fun _ event h => h.step event) (sound_new rxFrameGapMs) events
  exact hsound.wakeful

/-- A drain that leaves a tail, and a large burst that takes the place of a timer. -/
example :
    let s := run step (.new (.finite 0))
      [.pending ⟨5, 1⟩, .notify, .pending ⟨70000, 2⟩, .notify, .callback 1 (.pending ⟨3, 1⟩ .done)]
    s.drained = 1 ∧ s.current 0 = [⟨2, 0, 1, some 1⟩] := by
  decide +kernel

end bbcom.rx_drain
