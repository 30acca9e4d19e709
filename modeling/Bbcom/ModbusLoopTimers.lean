-- The timers of the loop coordinator: what `schedule`, `pause`, `resume` and a timer that fires
-- make of them.
import Bbcom.ModbusLoopCoordinator

namespace bbcom.modbus_loops

open ModbusLoopCoordinator List Function

/-! ## The timers of the coordinator -/

variable {s : ModbusLoopCoordinator} {options : ModbusLoopCoordinatorOptions}

/-- The host's timers are those that the coordinator knows. -/
structure Timed (s : ModbusLoopCoordinator) : Prop where
  known : ∀ timer ∈ s.liveTimers, s.timer timer.loop = some timer.id
  nodup : (s.liveTimers.map (·.id)).Nodup
  fresh : ∀ timer ∈ s.liveTimers, timer.id < s.nextTimer
  live : ∀ loop id, s.timer loop = some id →
    ∃ timer ∈ s.liveTimers, timer.id = id ∧ timer.loop = loop

/-- A tick is only held back for a task, and has no timer then. -/
def HeldBack (s : ModbusLoopCoordinator) : Prop :=
  ∀ loop, s.dueWhileBusy loop = true → s.busy = true ∧ s.timer loop = none

theorem timed_new : Timed .new :=
  ⟨by rintro timer ⟨⟩, nodup_nil, by rintro timer ⟨⟩, by rintro loop id ⟨⟩⟩

/-- The timers do not look at the other fields. -/
theorem Timed.congr {t : ModbusLoopCoordinator} (h : Timed s) (htimer : t.timer = s.timer)
    (hlive : t.liveTimers = s.liveTimers) (hnext : t.nextTimer = s.nextTimer) : Timed t := by
  obtain ⟨hknown, hnodup, hfresh, hall⟩ := h
  rw [← htimer, ← hlive] at hknown hall
  rw [← hlive] at hnodup hfresh
  rw [← hnext] at hfresh
  exact ⟨hknown, hnodup, hfresh, hall⟩

variable {loop : Loop} {timer : LoopTimer}

theorem Timed.setLoopTimeout (h : Timed s) (hnone : s.timer loop = none) (delayMs : Nat) :
    Timed (s.setLoopTimeout loop delayMs) := by
  have hother : ∀ timer ∈ s.liveTimers, timer.loop ≠ loop := by
    intro timer htimer heq
    have hknown := h.known timer htimer
    rw [heq, hnone] at hknown
    cases hknown
  refine ⟨?_, ?_, ?_, ?_⟩
  · intro timer htimer
    rcases mem_append.1 htimer with htimer | htimer
    · exact (update_of_ne (hother timer htimer) _ _).trans (h.known timer htimer)
    · rw [mem_singleton.1 htimer]
      exact update_self _ _ _
  · unfold ModbusLoopCoordinator.setLoopTimeout
    rw [map_append, nodup_append]
    refine ⟨h.nodup, nodup_singleton _, ?_⟩
    intro id hid next hnext
    obtain ⟨timer, htimer, rfl⟩ := mem_map.1 hid
    have hlt := h.fresh timer htimer
    simp only [map_singleton, mem_singleton] at hnext
    omega
  · intro timer htimer
    rcases mem_append.1 htimer with htimer | htimer
    · exact (h.fresh timer htimer).trans (Nat.lt_succ_self _)
    · rw [mem_singleton.1 htimer]
      exact Nat.lt_succ_self _
  · intro other id hid
    unfold ModbusLoopCoordinator.setLoopTimeout at hid ⊢
    by_cases hsame : other = loop
    · subst hsame
      simp only [update_self, Option.some.injEq] at hid
      exact ⟨_, mem_append_right _ (mem_singleton_self _), hid, rfl⟩
    · simp only [update_of_ne hsame] at hid
      obtain ⟨timer, htimer, heq⟩ := h.live other id hid
      exact ⟨timer, mem_append_left _ htimer, heq⟩

/-- A loop's timer goes, whether it is cleared or fires. -/
theorem Timed.dropTimer (h : Timed s) {id : Nat} (hid : s.timer loop = some id) :
    Timed { s with
      timer := update s.timer loop none
      liveTimers := s.liveTimers.filter fun timer => timer.id ≠ id } := by
  refine ⟨?_, h.nodup.sublist (filter_sublist.map _), ?_, ?_⟩
  · intro timer htimer
    obtain ⟨hin, hne⟩ := mem_filter.1 htimer
    have hknown := h.known timer hin
    have hother : timer.loop ≠ loop := by
      intro heq
      rw [heq, hid, Option.some.injEq] at hknown
      exact of_decide_eq_true hne hknown.symm
    exact (update_of_ne hother _ _).trans hknown
  · intro timer htimer
    exact h.fresh timer (mem_of_mem_filter htimer)
  · intro other id' hid'
    by_cases hsame : other = loop
    · subst hsame
      simp only [update_self] at hid'
      cases hid'
    · simp only [update_of_ne hsame] at hid'
      obtain ⟨timer, htimer, rfl, hloop⟩ := h.live other id' hid'
      obtain ⟨own, hown, rfl, hownLoop⟩ := h.live loop id hid
      refine ⟨timer, mem_filter.2 ⟨htimer, decide_eq_true ?_⟩, rfl, hloop⟩
      intro heq
      have hone := inj_on_of_nodup_map h.nodup htimer hown heq
      rw [hone, hownLoop] at hloop
      exact hsame hloop.symm

/-! ## What each operation keeps -/

/-- What `schedule` can do. -/
theorem schedule_cases (s : ModbusLoopCoordinator) (options : ModbusLoopCoordinatorOptions)
    (loop : Loop) (delayMs : Nat) :
    s.schedule options loop delayMs = s ∧ s.timer loop ≠ none ∨
    s.schedule options loop delayMs = s.setDue loop false ∧ s.timer loop = none ∧
      (s.stopped = true ∨ options.shouldRun loop = false) ∨
    s.schedule options loop delayMs = s.setDue loop true ∧ s.timer loop = none ∧
      s.stopped = false ∧ options.shouldRun loop = true ∧ s.busy = true ∨
    s.schedule options loop delayMs = s.setLoopTimeout loop delayMs ∧ s.timer loop = none ∧
      s.stopped = false ∧ options.shouldRun loop = true ∧ s.busy = false := by
  unfold schedule
  by_cases htimer : s.timer loop = none
  · by_cases hoff : s.stopped = true ∨ options.shouldRun loop = false
    · simp [htimer, hoff]
    · obtain ⟨hstopped, hrun⟩ := not_or.1 hoff
      rw [Bool.not_eq_true] at hstopped
      rw [Bool.not_eq_false] at hrun
      cases hbusy : s.busy with
      | true => simp [htimer, hstopped, hrun]
      | false => simp [htimer, hstopped, hrun]
  · simp [htimer]

theorem Timed.schedule (h : Timed s) (options : ModbusLoopCoordinatorOptions) (loop : Loop)
    (delayMs : Nat) : Timed (s.schedule options loop delayMs) := by
  rcases schedule_cases s options loop delayMs with ⟨heq, -⟩ | ⟨heq, -⟩ | ⟨heq, -⟩ | ⟨heq, hnone, -⟩
  · rw [heq]
    exact h
  · rw [heq]
    exact h.congr rfl rfl rfl
  · rw [heq]
    exact h.congr rfl rfl rfl
  · rw [heq]
    exact h.setLoopTimeout hnone delayMs

theorem HeldBack.setDue (h : HeldBack s) {due : Bool}
    (hdue : due = true → s.busy = true ∧ s.timer loop = none) : HeldBack (s.setDue loop due) := by
  intro other hother
  unfold ModbusLoopCoordinator.setDue at hother ⊢
  by_cases hsame : other = loop
  · subst hsame
    simp only [update_self] at hother
    exact hdue hother
  · simp only [update_of_ne hsame] at hother
    exact h other hother

theorem HeldBack.schedule (h : HeldBack s) (options : ModbusLoopCoordinatorOptions) (loop : Loop)
    (delayMs : Nat) : HeldBack (s.schedule options loop delayMs) := by
  rcases schedule_cases s options loop delayMs with
    ⟨heq, -⟩ | ⟨heq, -⟩ | ⟨heq, hnone, -, -, hbusy⟩ | ⟨heq, -, -, -, hbusy⟩
  · rw [heq]
    exact h
  · rw [heq]
    exact h.setDue (by rintro ⟨⟩)
  · rw [heq]
    exact h.setDue fun _ => ⟨hbusy, hnone⟩
  · rw [heq]
    intro other hother
    have hidle := (h other hother).1
    rw [hbusy] at hidle
    cases hidle

/-- `schedule` does not touch these. -/
@[simp] theorem schedule_busy (s : ModbusLoopCoordinator) (options : ModbusLoopCoordinatorOptions)
    (loop : Loop) (delayMs : Nat) : (s.schedule options loop delayMs).busy = s.busy := by
  rcases schedule_cases s options loop delayMs with ⟨heq, -⟩ | ⟨heq, -⟩ | ⟨heq, -⟩ | ⟨heq, -⟩ <;>
    rw [heq] <;> rfl

@[simp] theorem schedule_stopped (s : ModbusLoopCoordinator)
    (options : ModbusLoopCoordinatorOptions) (loop : Loop) (delayMs : Nat) :
    (s.schedule options loop delayMs).stopped = s.stopped := by
  rcases schedule_cases s options loop delayMs with ⟨heq, -⟩ | ⟨heq, -⟩ | ⟨heq, -⟩ | ⟨heq, -⟩ <;>
    rw [heq] <;> rfl

@[simp] theorem schedule_idleWaiters (s : ModbusLoopCoordinator)
    (options : ModbusLoopCoordinatorOptions) (loop : Loop) (delayMs : Nat) :
    (s.schedule options loop delayMs).idleWaiters = s.idleWaiters := by
  rcases schedule_cases s options loop delayMs with ⟨heq, -⟩ | ⟨heq, -⟩ | ⟨heq, -⟩ | ⟨heq, -⟩ <;>
    rw [heq] <;> rfl

/-- A loop that is stopped or has nothing to do gets no timer. -/
theorem schedule_off (h : s.stopped = true ∨ options.shouldRun loop = false) (delayMs : Nat) :
    (s.schedule options loop delayMs).liveTimers = s.liveTimers := by
  rcases schedule_cases s options loop delayMs with
    ⟨heq, -⟩ | ⟨heq, -⟩ | ⟨heq, -⟩ | ⟨-, -, hstopped, hrun, -⟩
  · rw [heq]
  · rw [heq]
    rfl
  · rw [heq]
    rfl
  · rw [hstopped, hrun] at h
    simp at h

theorem Timed.clearTimer (h : Timed s) (loop : Loop) : Timed (s.clearTimer loop) := by
  unfold ModbusLoopCoordinator.clearTimer
  cases hid : s.timer loop with
  | none => exact h
  | some id => exact h.dropTimer hid

theorem clearTimer_timer (s : ModbusLoopCoordinator) (loop : Loop) :
    (s.clearTimer loop).timer = update s.timer loop none := by
  unfold clearTimer
  cases hid : s.timer loop with
  | none =>
    simp only
    rw [← hid, update_eq_self]
  | some id => rfl

@[simp] theorem clearTimer_busy (s : ModbusLoopCoordinator) (loop : Loop) :
    (s.clearTimer loop).busy = s.busy := by
  unfold clearTimer
  cases s.timer loop <;> rfl

@[simp] theorem clearTimer_stopped (s : ModbusLoopCoordinator) (loop : Loop) :
    (s.clearTimer loop).stopped = s.stopped := by
  unfold clearTimer
  cases s.timer loop <;> rfl

@[simp] theorem clearTimer_dueWhileBusy (s : ModbusLoopCoordinator) (loop : Loop) :
    (s.clearTimer loop).dueWhileBusy = s.dueWhileBusy := by
  unfold clearTimer
  cases s.timer loop <;> rfl

@[simp] theorem clearTimer_idleWaiters (s : ModbusLoopCoordinator) (loop : Loop) :
    (s.clearTimer loop).idleWaiters = s.idleWaiters := by
  unfold clearTimer
  cases s.timer loop <;> rfl

@[simp] theorem pause_busy (s : ModbusLoopCoordinator) : s.pause.busy = s.busy := by
  simp [pause, clearReadTimer, clearWriteTimer]

@[simp] theorem pause_stopped (s : ModbusLoopCoordinator) : s.pause.stopped = s.stopped := by
  simp [pause, clearReadTimer, clearWriteTimer]

@[simp] theorem pause_idleWaiters (s : ModbusLoopCoordinator) :
    s.pause.idleWaiters = s.idleWaiters := by
  simp [pause, clearReadTimer, clearWriteTimer]

@[simp] theorem pause_dueWhileBusy (s : ModbusLoopCoordinator) (loop : Loop) :
    s.pause.dueWhileBusy loop = false := by
  simp [pause, clearReadTimer, clearWriteTimer]

theorem pause_timer (s : ModbusLoopCoordinator) (loop : Loop) : s.pause.timer loop = none := by
  unfold pause clearReadTimer clearWriteTimer
  rw [clearTimer_timer, clearTimer_timer]
  cases loop <;> rfl

theorem Timed.pause (h : Timed s) : Timed s.pause := by
  have hclean : Timed { s with dueWhileBusy := fun _ => false } := h.congr rfl rfl rfl
  exact (hclean.clearTimer .read).clearTimer .write

/-- A pause leaves no timer. -/
theorem Timed.pause_live (h : Timed s) : s.pause.liveTimers = [] := by
  apply eq_nil_iff_forall_not_mem.2
  intro timer htimer
  have hknown := h.pause.known timer htimer
  rw [pause_timer] at hknown
  cases hknown

theorem heldBack_pause (s : ModbusLoopCoordinator) : HeldBack s.pause := by
  intro loop hdue
  rw [pause_dueWhileBusy] at hdue
  cases hdue

variable {P : ModbusLoopCoordinator → Prop}

/-- What each `schedule` keeps, `resume` keeps. -/
theorem resume_keeps
    (hschedule : ∀ s loop delayMs, P s → P (ModbusLoopCoordinator.schedule s options loop delayMs))
    (h : P { s with dueWhileBusy := fun _ => false }) : P (s.resume options) := by
  unfold resume scheduleRead scheduleWrite
  simp only
  apply hschedule
  apply hschedule
  split_ifs
  · exact hschedule _ _ _ (hschedule _ _ _ h)
  · exact hschedule _ _ _ h
  · exact hschedule _ _ _ h
  · exact h

@[simp] theorem resume_busy (s : ModbusLoopCoordinator) (options : ModbusLoopCoordinatorOptions) :
    (s.resume options).busy = s.busy :=
  resume_keeps (P := fun t => t.busy = s.busy)
    (fun t loop delayMs ht => (schedule_busy t options loop delayMs).trans ht) rfl

@[simp] theorem resume_stopped (s : ModbusLoopCoordinator)
    (options : ModbusLoopCoordinatorOptions) : (s.resume options).stopped = s.stopped :=
  resume_keeps (P := fun t => t.stopped = s.stopped)
    (fun t loop delayMs ht => (schedule_stopped t options loop delayMs).trans ht) rfl

/-! ## What a resume arms -/

/-- A timer of the loop is live with this delay. -/
def Armed (s : ModbusLoopCoordinator) (loop : Loop) (delayMs : Nat) : Prop :=
  ∃ id, ⟨id, loop, delayMs⟩ ∈ s.liveTimers

theorem schedule_keeps_live (options : ModbusLoopCoordinatorOptions) (loop : Loop) (delayMs : Nat)
    (h : timer ∈ s.liveTimers) : timer ∈ (s.schedule options loop delayMs).liveTimers := by
  rcases schedule_cases s options loop delayMs with ⟨heq, -⟩ | ⟨heq, -⟩ | ⟨heq, -⟩ | ⟨heq, -⟩
  · rw [heq]
    exact h
  · rw [heq]
    exact h
  · rw [heq]
    exact h
  · rw [heq]
    exact mem_append_left _ h

theorem schedule_timer_other (s : ModbusLoopCoordinator) (options : ModbusLoopCoordinatorOptions)
    {other : Loop} (h : other ≠ loop) (delayMs : Nat) :
    (s.schedule options loop delayMs).timer other = s.timer other := by
  rcases schedule_cases s options loop delayMs with ⟨heq, -⟩ | ⟨heq, -⟩ | ⟨heq, -⟩ | ⟨heq, -⟩
  · rw [heq]
  · rw [heq]
    rfl
  · rw [heq]
    rfl
  · rw [heq]
    exact update_of_ne h _ _

/-- On a free bus a loop that has something to do gets its timer, if it has none. -/
theorem schedule_arms (hnone : s.timer loop = none) (hstopped : s.stopped = false)
    (hrun : options.shouldRun loop = true) (hbusy : s.busy = false) (delayMs : Nat) :
    Armed (s.schedule options loop delayMs) loop delayMs := by
  rcases schedule_cases s options loop delayMs with
    ⟨-, hsome⟩ | ⟨-, -, hoff⟩ | ⟨-, -, -, -, hheld⟩ | ⟨heq, -⟩
  · exact absurd hnone hsome
  · rw [hstopped, hrun] at hoff
    simp at hoff
  · rw [hbusy] at hheld
    cases hheld
  · rw [heq]
    exact ⟨_, mem_append_right _ (mem_singleton_self _)⟩

theorem Timed.armed_of_timer (h : Timed s) (hsome : s.timer loop ≠ none) :
    ∃ delayMs, Armed s loop delayMs := by
  obtain ⟨id, hid⟩ := Option.ne_none_iff_exists'.1 hsome
  obtain ⟨⟨_, _, delayMs⟩, htimer, rfl, rfl⟩ := h.live loop id hid
  exact ⟨delayMs, _, htimer⟩

theorem Timed.schedule_armed (h : Timed s) (hstopped : s.stopped = false)
    (hrun : options.shouldRun loop = true) (hbusy : s.busy = false) (delayMs : Nat) :
    ∃ delayMs', Armed (s.schedule options loop delayMs) loop delayMs' := by
  by_cases hnone : s.timer loop = none
  · exact ⟨delayMs, schedule_arms hnone hstopped hrun hbusy delayMs⟩
  · obtain ⟨delayMs', id, htimer⟩ := h.armed_of_timer hnone
    exact ⟨delayMs', id, schedule_keeps_live options loop delayMs htimer⟩

/-- The last two lines of `resume`. -/
def scheduleBoth (s : ModbusLoopCoordinator) (options : ModbusLoopCoordinatorOptions) :
    ModbusLoopCoordinator :=
  (s.scheduleRead options options.readIntervalMs).scheduleWrite options options.writeIntervalMs

theorem scheduleBoth_keeps_live (options : ModbusLoopCoordinatorOptions)
    (h : timer ∈ s.liveTimers) : timer ∈ (scheduleBoth s options).liveTimers :=
  schedule_keeps_live options .write _ (schedule_keeps_live options .read _ h)

theorem Timed.scheduleBoth_armed (h : Timed s) (loop : Loop) (hstopped : s.stopped = false)
    (hrun : options.shouldRun loop = true) (hbusy : s.busy = false) :
    ∃ delayMs, Armed (scheduleBoth s options) loop delayMs := by
  cases loop with
  | read =>
    obtain ⟨delayMs, id, htimer⟩ := h.schedule_armed hstopped hrun hbusy options.readIntervalMs
    exact ⟨delayMs, id, schedule_keeps_live options .write _ htimer⟩
  | write =>
    have hread := h.schedule options .read options.readIntervalMs
    exact hread.schedule_armed ((schedule_stopped _ _ _ _).trans hstopped) hrun
      ((schedule_busy _ _ _ _).trans hbusy) options.writeIntervalMs

variable {overdue : Bool}

/-- One of the first two lines of `resume`. -/
theorem overdue_arms (loop : Loop) (hnone : overdue = true → s.timer loop = none)
    (hstopped : s.stopped = false) (hrun : options.shouldRun loop = true) (hbusy : s.busy = false) :
    overdue = true → Armed (if overdue = true then s.schedule options loop 0 else s) loop 0 := by
  intro hoverdue
  rw [if_pos hoverdue]
  exact schedule_arms (hnone hoverdue) hstopped hrun hbusy 0

/-- What each `schedule` keeps, either of these lines keeps. -/
theorem overdue_keeps (hschedule : P (s.schedule options loop 0)) (h : P s) :
    P (if overdue = true then s.schedule options loop 0 else s) := by
  split_ifs
  · exact hschedule
  · exact h

/-- A resume on a free bus arms each loop that has something to do, and at once the one whose tick
was held back. -/
theorem Timed.resume_armed (h : Timed s) (loop : Loop) (hstopped : s.stopped = false)
    (hrun : options.shouldRun loop = true) (hbusy : s.busy = false)
    (hheld : s.dueWhileBusy loop = true → s.timer loop = none) :
    (∃ delayMs, Armed (s.resume options) loop delayMs) ∧
      (s.dueWhileBusy loop = true → Armed (s.resume options) loop 0) := by
  obtain ⟨t, ht⟩ : ∃ t : ModbusLoopCoordinator, t = { s with dueWhileBusy := fun _ => false } :=
    ⟨_, rfl⟩
  obtain ⟨u, hu⟩ : ∃ u : ModbusLoopCoordinator,
      u = if s.dueWhileBusy .write = true then t.schedule options .write 0 else t := ⟨_, rfl⟩
  obtain ⟨v, hv⟩ : ∃ v : ModbusLoopCoordinator,
      v = if s.dueWhileBusy .read = true then u.schedule options .read 0 else u := ⟨_, rfl⟩
  have hresume : s.resume options = scheduleBoth v options := by
    rw [hv, hu, ht]
    rfl
  -- the fields that both lines keep
  have htt : Timed t ∧ t.stopped = false ∧ t.busy = false := by
    rw [ht]
    exact ⟨h.congr rfl rfl rfl, hstopped, hbusy⟩
  have hut : Timed u ∧ u.stopped = false ∧ u.busy = false := by
    rw [hu]
    exact overdue_keeps (P := fun w => Timed w ∧ w.stopped = false ∧ w.busy = false)
      (by simpa using ⟨htt.1.schedule options .write 0, htt.2⟩) htt
  have hvt : Timed v ∧ v.stopped = false ∧ v.busy = false := by
    rw [hv]
    exact overdue_keeps (P := fun w => Timed w ∧ w.stopped = false ∧ w.busy = false)
      (by simpa using ⟨hut.1.schedule options .read 0, hut.2⟩) hut
  rw [hresume]
  refine ⟨hvt.1.scheduleBoth_armed loop hvt.2.1 hrun hvt.2.2, fun hdue => ?_⟩
  have harmed : Armed v loop 0 := by
    cases loop with
    | write =>
      have hu0 : Armed u .write 0 := by
        rw [hu]
        refine overdue_arms .write (fun hd => ?_) htt.2.1 hrun htt.2.2 hdue
        rw [ht]
        exact hheld hd
      obtain ⟨id, hid⟩ := hu0
      rw [hv]
      exact ⟨id, overdue_keeps (P := fun w => _ ∈ w.liveTimers)
        (schedule_keeps_live options .read 0 hid) hid⟩
    | read =>
      rw [hv]
      refine overdue_arms .read (fun hd => ?_) hut.2.1 hrun hut.2.2 hdue
      have hkeep : u.timer .read = t.timer .read := by
        rw [hu]
        exact overdue_keeps (P := fun w => w.timer .read = t.timer .read)
          (schedule_timer_other t options (by decide) 0) rfl
      rw [hkeep, ht]
      exact hheld hd
  obtain ⟨id, hid⟩ := harmed
  exact ⟨id, scheduleBoth_keeps_live options hid⟩

/-! ## Between two events -/

/-- The coordinator between two events. -/
structure Steady (s : ModbusLoopCoordinator) : Prop where
  timed : Timed s
  heldBack : HeldBack s
  waiters : s.busy = false → s.idleWaiters = []
  off : s.stopped = true → s.liveTimers = []

theorem Steady.schedule (h : Steady s) (options : ModbusLoopCoordinatorOptions) (loop : Loop)
    (delayMs : Nat) : Steady (s.schedule options loop delayMs) := by
  refine ⟨h.timed.schedule options loop delayMs, h.heldBack.schedule options loop delayMs, ?_, ?_⟩
  · simpa using h.waiters
  · intro hstopped
    rw [schedule_stopped] at hstopped
    rw [schedule_off (Or.inl hstopped)]
    exact h.off hstopped

/-- `resume` does with all timers what it does with none held back. -/
theorem steady_resume (htimed : Timed s) (hwaiters : s.busy = false → s.idleWaiters = [])
    (hoff : s.stopped = true → s.liveTimers = []) (options : ModbusLoopCoordinatorOptions) :
    Steady (s.resume options) := by
  apply resume_keeps (fun _ loop delayMs ht => ht.schedule options loop delayMs)
  exact ⟨htimed.congr rfl rfl rfl, by rintro loop ⟨⟩, hwaiters, hoff⟩

theorem steady_pause (htimed : Timed s) (hwaiters : s.busy = false → s.idleWaiters = []) :
    Steady s.pause := by
  refine ⟨htimed.pause, heldBack_pause s, ?_, fun _ => htimed.pause_live⟩
  simpa using hwaiters

theorem Steady.stop (h : Steady s) : Steady s.stop :=
  steady_pause (s := { s with stopped := true }) (h.timed.congr rfl rfl rfl) h.waiters

theorem Steady.start (h : Steady s) (options : ModbusLoopCoordinatorOptions) :
    Steady (s.start options) :=
  steady_resume (s := { s with stopped := false }) (h.timed.congr rfl rfl rfl) h.waiters
    (by rintro ⟨⟩) options

/-- What the first lines of a timer's callback can do. -/
theorem onTimer_cases (s : ModbusLoopCoordinator) (timer : LoopTimer) :
    ∃ t : ModbusLoopCoordinator, t = { s with
        timer := update s.timer timer.loop none
        liveTimers := s.liveTimers.filter fun live => live.id ≠ timer.id } ∧
      (s.onTimer timer = (t, false) ∧ s.stopped = true ∨
        s.onTimer timer = (t.setDue timer.loop true, false) ∧ s.stopped = false ∧ s.busy = true ∨
        s.onTimer timer = (t, true) ∧ s.stopped = false ∧ s.busy = false) := by
  refine ⟨_, rfl, ?_⟩
  unfold onTimer
  cases hstopped : s.stopped with
  | true => simp
  | false =>
    cases hbusy : s.busy with
    | true => simp
    | false => simp

theorem Steady.onTimer (h : Steady s) (hlive : timer ∈ s.liveTimers) :
    Steady (s.onTimer timer).1 := by
  obtain ⟨t, ht, hcases⟩ := onTimer_cases s timer
  have hfired : Steady t := by
    rw [ht]
    refine ⟨h.timed.dropTimer (h.timed.known timer hlive), ?_, h.waiters, ?_⟩
    · intro loop hdue
      obtain ⟨hbusy, hnone⟩ := h.heldBack loop hdue
      refine ⟨hbusy, ?_⟩
      by_cases hsame : loop = timer.loop
      · subst hsame
        exact update_self _ _ _
      · exact (update_of_ne hsame _ _).trans hnone
    · intro hstopped
      simp [h.off hstopped]
  rcases hcases with ⟨heq, -⟩ | ⟨heq, -, hbusy⟩ | ⟨heq, -⟩
  · rw [heq]
    exact hfired
  · rw [heq]
    refine ⟨hfired.timed.congr rfl rfl rfl, hfired.heldBack.setDue fun _ => ?_, hfired.waiters,
      hfired.off⟩
    rw [ht]
    exact ⟨hbusy, update_self _ _ _⟩
  · rw [heq]
    exact hfired

theorem steady_leave (htimed : Timed s) (hoff : s.stopped = true → s.liveTimers = [])
    (options : ModbusLoopCoordinatorOptions) : Steady (s.leave options).1 := by
  have hfree : Timed { s with busy := false, idleWaiters := [] } := htimed.congr rfl rfl rfl
  exact steady_resume hfree (fun _ => rfl) hoff options

end bbcom.modbus_loops
