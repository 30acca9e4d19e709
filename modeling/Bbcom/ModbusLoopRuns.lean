-- The laws of the loop coordinator over any order of settings, starts and stops, timers and calls.
import Bbcom.ModbusLoopTimers

open bbcom.runs

namespace bbcom.modbus_loops

open List Function List

variable {options : ModbusLoopCoordinatorOptions}

/-! ## The coordinator with its tasks -/

variable {Call : Type}

/-- One task runs, and only calls from outside wait for the bus. -/
structure Inv (s : System Call) : Prop where
  loops : Steady s.loops
  busy : s.loops.busy = true ↔ s.running ≠ []
  one : s.running.length ≤ 1
  sleeping : ∀ task ∈ s.sleeping, task.isLoop = false

theorem inv_new (options : ModbusLoopCoordinatorOptions) : Inv (.new options : System Call) :=
  ⟨⟨timed_new, by rintro loop ⟨⟩, fun _ => rfl, by rintro ⟨⟩⟩,
    by simp [System.new, ModbusLoopCoordinator.new], Nat.zero_le _, by rintro task ⟨⟩⟩

section
variable {s : System Call}

/-- Another coordinator, as busy as before. -/
theorem Inv.withLoops (h : Inv s) {loops : ModbusLoopCoordinator} (hsteady : Steady loops)
    (hbusy : loops.busy = s.loops.busy) : Inv { s with loops } :=
  ⟨hsteady, by rw [hbusy]; exact h.busy, h.one, h.sleeping⟩

theorem Inv.idle (h : Inv s) (hfree : s.loops.busy = false) : s.running = [] := by
  by_contra hrunning
  rw [h.busy.2 hrunning] at hfree
  cases hfree

theorem Inv.runExclusive (h : Inv s) {task : Task Call}
    (htask : s.loops.busy = true → task.isLoop = false) : Inv (s.runExclusive task) := by
  unfold System.runExclusive
  split_ifs with hbusy
  · refine ⟨h.loops, h.busy, h.one, ?_⟩
    intro other hother
    rcases mem_append.1 hother with hother | hother
    · exact h.sleeping other hother
    · rw [mem_singleton.1 hother]
      exact htask hbusy
  · rw [Bool.not_eq_true] at hbusy
    have hidle := h.idle hbusy
    refine ⟨⟨h.loops.timed.congr rfl rfl rfl, ?_, by rintro ⟨⟩, h.loops.off⟩, ?_, ?_, h.sleeping⟩
    · intro loop hdue
      have hheld := (h.loops.heldBack loop hdue).1
      rw [hbusy] at hheld
      cases hheld
    · simp
    · simp [hidle]

theorem Inv.wake (h : Inv s) (i : Nat) : Inv (s.wake i) := by
  unfold System.wake
  cases hi : s.sleeping[i]? with
  | none => exact h
  | some task =>
    have hrest : Inv { s with sleeping := s.sleeping.eraseIdx i } :=
      ⟨h.loops, h.busy, h.one, fun other hother => h.sleeping other (mem_of_mem_eraseIdx hother)⟩
    exact hrest.runExclusive fun _ => h.sleeping task (mem_of_getElem? hi)

@[simp] theorem onTimer_busy (s : ModbusLoopCoordinator) (timer : LoopTimer) :
    (s.onTimer timer).1.busy = s.busy := by
  obtain ⟨t, ht, ⟨heq, -⟩ | ⟨heq, -⟩ | ⟨heq, -⟩⟩ := onTimer_cases s timer
  · rw [heq, ht]
  · rw [heq, ht]
    rfl
  · rw [heq, ht]

/-- A callback goes on to its task only on a free bus. -/
theorem onTimer_go {s : ModbusLoopCoordinator} {timer : LoopTimer}
    (h : (s.onTimer timer).2 = true) : s.stopped = false ∧ s.busy = false := by
  obtain ⟨t, ht, ⟨heq, -⟩ | ⟨heq, -⟩ | ⟨-, hgo⟩⟩ := onTimer_cases s timer
  · rw [heq] at h
    cases h
  · rw [heq] at h
    cases h
  · exact hgo

theorem Inv.fire (h : Inv s) (id : Nat) : Inv (s.fire id) := by
  unfold System.fire
  cases hfind : s.loops.liveTimers.find? (·.id = id) with
  | none => exact h
  | some timer =>
    have hfired : Inv { s with loops := (s.loops.onTimer timer).1 } :=
      h.withLoops (h.loops.onTimer (mem_of_find?_eq_some hfind)) (onTimer_busy _ _)
    simp only
    split_ifs with hgo
    · apply hfired.runExclusive
      intro hbusy
      simp [(onTimer_go hgo).2] at hbusy
    · exact hfired

@[simp] theorem leave_busy (s : ModbusLoopCoordinator) (options : ModbusLoopCoordinatorOptions) :
    (s.leave options).1.busy = false :=
  resume_busy _ _

theorem Inv.settle (h : Inv s) (i : Nat) (fulfilled : Bool) : Inv (s.settle i fulfilled) := by
  unfold System.settle
  cases hi : s.running[i]? with
  | none => exact h
  | some task =>
    have hlength := (List.getElem?_eq_some_iff.1 hi).1
    have hone := h.one
    have hgone : s.running.eraseIdx i = [] := by
      apply length_eq_zero_iff.1
      rw [length_eraseIdx_of_lt hlength]
      omega
    refine ⟨steady_leave h.loops.timed h.loops.off s.options, ?_, ?_, h.sleeping⟩
    · simp [hgone]
    · simp [hgone]

theorem Inv.goOn (h : Inv s) (i : Nat) : Inv (s.goOn i) := by
  unfold System.goOn
  cases s.returning[i]? with
  | none => exact h
  | some loop =>
    have hnext := h.withLoops (h.loops.schedule s.options loop (s.options.intervalMs loop))
      (schedule_busy _ _ _ _)
    exact ⟨hnext.loops, hnext.busy, hnext.one, hnext.sleeping⟩

theorem resolveIdleWaiters_busy {s : ModbusLoopCoordinator} (h : s.busy = true) :
    s.resolveIdleWaiters = (s, []) := if_pos h

theorem Inv.waitForIdle (h : Inv s) (waiter : Nat) (aborted : Bool) :
    Inv (s.waitForIdle waiter aborted) := by
  unfold System.waitForIdle
  split_ifs with hfree haborted
  · exact ⟨h.loops, h.busy, h.one, h.sleeping⟩
  · exact ⟨h.loops, h.busy, h.one, h.sleeping⟩
  · rw [Bool.not_eq_false] at hfree
    rw [resolveIdleWaiters_busy (by exact hfree)]
    refine ⟨⟨h.loops.timed.congr rfl rfl rfl, h.loops.heldBack, ?_, h.loops.off⟩, h.busy, h.one,
      h.sleeping⟩
    intro hnot
    rw [hfree] at hnot
    cases hnot

theorem Inv.abort (h : Inv s) (waiter : Nat) : Inv (s.abort waiter) := by
  unfold System.abort
  split_ifs with hwaits
  · refine ⟨⟨h.loops.timed.congr rfl rfl rfl, h.loops.heldBack, ?_, h.loops.off⟩, h.busy, h.one,
      h.sleeping⟩
    intro hfree
    simp [h.loops.waiters hfree]
  · exact h

theorem inv_step (h : Inv s) (e : Event Call) : Inv (step s e) := by
  cases e with
  | options options => exact ⟨h.loops, h.busy, h.one, h.sleeping⟩
  | start => exact h.withLoops (h.loops.start s.options) (resume_busy _ _)
  | stop => exact h.withLoops h.loops.stop (pause_busy _)
  | pause => exact h.withLoops (steady_pause h.loops.timed h.loops.waiters) (pause_busy _)
  | resume =>
    exact h.withLoops (steady_resume h.loops.timed h.loops.waiters h.loops.off s.options)
      (resume_busy _ _)
  | schedule loop delayMs =>
    exact h.withLoops (h.loops.schedule s.options loop _) (schedule_busy _ _ _ _)
  | fire id => exact h.fire id
  | runExclusive call => exact h.runExclusive fun _ => rfl
  | wake i => exact h.wake i
  | settle i fulfilled => exact h.settle i fulfilled
  | goOn i => exact h.goOn i
  | waitForIdle waiter aborted => exact h.waitForIdle waiter aborted
  | abort waiter => exact h.abort waiter

end

/-- The system after some events. -/
def after (options : ModbusLoopCoordinatorOptions) (events : List (Event Call)) : System Call :=
  run step (.new options) events

theorem inv_after (options : ModbusLoopCoordinatorOptions) (events : List (Event Call)) :
    Inv (after options events) :=
  @run_invariant _ _ step Inv _ (fun _ e h => inv_step h e) (inv_new options) events

/-! ## Behind a stop -/

/-- The callbacks of the loops that have begun. -/
def loopStarts (s : System Call) : List (Task Call) := s.started.filter Task.isLoop

section
variable {s : System Call}

theorem runExclusive_loopStarts {task : Task Call} (h : task.isLoop = false) :
    loopStarts (s.runExclusive task) = loopStarts s := by
  unfold System.runExclusive loopStarts
  split_ifs
  · rfl
  · simp [h]

@[simp] theorem runExclusive_stopped (task : Task Call) :
    (s.runExclusive task).loops.stopped = s.loops.stopped := by
  unfold System.runExclusive
  split_ifs <;> rfl

theorem settle_started (i : Nat) (fulfilled : Bool) :
    (s.settle i fulfilled).started = s.started := by
  unfold System.settle
  cases s.running[i]? <;> rfl

theorem settle_stopped (i : Nat) (fulfilled : Bool) :
    (s.settle i fulfilled).loops.stopped = s.loops.stopped := by
  unfold System.settle
  cases s.running[i]? with
  | none => rfl
  | some task => exact resume_stopped _ _

variable {e : Event Call} {rest : List (Event Call)}

/-- Only a start begins a callback again. -/
theorem stopped_step (h : Inv s) (hstopped : s.loops.stopped = true) (he : e ≠ .start) :
    (step s e).loops.stopped = true ∧ loopStarts (step s e) = loopStarts s := by
  cases e with
  | options options => exact ⟨hstopped, rfl⟩
  | start => exact absurd rfl he
  | stop => exact ⟨pause_stopped _, rfl⟩
  | pause => exact ⟨(pause_stopped _).trans hstopped, rfl⟩
  | resume => exact ⟨(resume_stopped _ _).trans hstopped, rfl⟩
  | schedule loop delayMs => exact ⟨(schedule_stopped _ _ _ _).trans hstopped, rfl⟩
  | fire id =>
    have hnone : (s.loops.liveTimers.find? (·.id = id)) = none := by
      rw [h.loops.off hstopped]
      rfl
    have hsame : step s (.fire id) = s := by
      unfold step System.fire
      simp only [hnone]
    rw [hsame]
    exact ⟨hstopped, rfl⟩
  | runExclusive call =>
    have hcall : (Task.call call).isLoop = false := rfl
    exact ⟨(runExclusive_stopped _).trans hstopped, runExclusive_loopStarts hcall⟩
  | wake i =>
    simp only [step]
    unfold System.wake
    cases hi : s.sleeping[i]? with
    | none => exact ⟨hstopped, rfl⟩
    | some task =>
      have hcall := h.sleeping task (mem_of_getElem? hi)
      exact ⟨(runExclusive_stopped _).trans hstopped, runExclusive_loopStarts hcall⟩
  | settle i fulfilled =>
    refine ⟨(settle_stopped i fulfilled).trans hstopped, ?_⟩
    simp only [step]
    unfold loopStarts
    rw [settle_started]
  | goOn i =>
    simp only [step]
    unfold System.goOn
    cases s.returning[i]? with
    | none => exact ⟨hstopped, rfl⟩
    | some loop => exact ⟨(schedule_stopped _ _ _ _).trans hstopped, rfl⟩
  | waitForIdle waiter aborted =>
    simp only [step]
    unfold System.waitForIdle
    split_ifs with hfree haborted
    · exact ⟨hstopped, rfl⟩
    · exact ⟨hstopped, rfl⟩
    · rw [Bool.not_eq_false] at hfree
      rw [resolveIdleWaiters_busy (by exact hfree)]
      exact ⟨hstopped, rfl⟩
  | abort waiter =>
    simp only [step]
    unfold System.abort
    split_ifs
    · exact ⟨hstopped, rfl⟩
    · exact ⟨hstopped, rfl⟩

theorem stopped_run (h : Inv s) (hstopped : s.loops.stopped = true) (hrest : Event.start ∉ rest) :
    loopStarts (run step s rest) = loopStarts s := by
  induction rest generalizing s with
  | nil => rfl
  | cons e rest ih =>
    rw [mem_cons, not_or] at hrest
    obtain ⟨hstill, hsame⟩ := stopped_step h hstopped (Ne.symm hrest.1)
    rw [run_cons, ih (inv_step h e) hstill hrest.2, hsame]

end

/-! ## A tick that falls due on a busy bus -/

section
variable {s : ModbusLoopCoordinator} {loop : Loop}

/-- The bus is taken, and the loop waits for it. -/
structure Waiting (s : ModbusLoopCoordinator) (loop : Loop) : Prop where
  busy : s.busy = true
  stopped : s.stopped = false
  timer : s.timer loop = none

theorem Waiting.schedule (h : Waiting s loop) (options : ModbusLoopCoordinatorOptions)
    (other : Loop) (delayMs : Nat) : Waiting (s.schedule options other delayMs) loop := by
  refine ⟨(schedule_busy _ _ _ _).trans h.busy, (schedule_stopped _ _ _ _).trans h.stopped, ?_⟩
  rcases schedule_cases s options other delayMs with
    ⟨heq, -⟩ | ⟨heq, -⟩ | ⟨heq, -⟩ | ⟨-, -, -, -, hfree⟩
  · rw [heq]
    exact h.timer
  · rw [heq]
    exact h.timer
  · rw [heq]
    exact h.timer
  · rw [h.busy] at hfree
    cases hfree

theorem setDue_self (s : ModbusLoopCoordinator) (loop : Loop) (due : Bool) :
    (s.setDue loop due).dueWhileBusy loop = due := update_self _ _ _

theorem setDue_other (s : ModbusLoopCoordinator) {other : Loop} (h : loop ≠ other) (due : Bool) :
    (s.setDue other due).dueWhileBusy loop = s.dueWhileBusy loop :=
  update_of_ne h _ _

/-- Its own `schedule` holds the tick back. -/
theorem Waiting.schedule_self (h : Waiting s loop) (hrun : options.shouldRun loop = true)
    (delayMs : Nat) : (s.schedule options loop delayMs).dueWhileBusy loop = true := by
  rcases schedule_cases s options loop delayMs with
    ⟨-, hsome⟩ | ⟨-, -, hoff⟩ | ⟨heq, -⟩ | ⟨-, -, -, -, hfree⟩
  · exact absurd h.timer hsome
  · rw [h.stopped, hrun] at hoff
    simp at hoff
  · rw [heq, setDue_self]
  · rw [h.busy] at hfree
    cases hfree

/-- Any `schedule` leaves it held back. -/
theorem Waiting.schedule_due (h : Waiting s loop) (hrun : options.shouldRun loop = true)
    (hdue : s.dueWhileBusy loop = true) (other : Loop) (delayMs : Nat) :
    (s.schedule options other delayMs).dueWhileBusy loop = true := by
  by_cases hsame : loop = other
  · subst hsame
    exact h.schedule_self hrun delayMs
  · rcases schedule_cases s options other delayMs with
      ⟨heq, -⟩ | ⟨heq, -⟩ | ⟨heq, -⟩ | ⟨-, -, -, -, hfree⟩
    · rw [heq]
      exact hdue
    · rw [heq, setDue_other s hsame, hdue]
    · rw [heq, setDue_other s hsame, hdue]
    · rw [h.busy] at hfree
      cases hfree

theorem Waiting.resume (h : Waiting s loop) (options : ModbusLoopCoordinatorOptions) :
    Waiting (s.resume options) loop :=
  resume_keeps (P := fun t => Waiting t loop)
    (fun _ other delayMs ht => ht.schedule options other delayMs) ⟨h.busy, h.stopped, h.timer⟩

/-- A `resume` on a busy bus finds the loop due again. -/
theorem Waiting.resume_due (h : Waiting s loop) (hrun : options.shouldRun loop = true) :
    (s.resume options).dueWhileBusy loop = true := by
  have hkeeps : ∀ t : ModbusLoopCoordinator, Waiting t loop →
      (scheduleBoth t options).dueWhileBusy loop = true := by
    intro t ht
    cases loop with
    | read =>
      exact (ht.schedule options .read _).schedule_due hrun (ht.schedule_self hrun _) .write _
    | write => exact (ht.schedule options .read _).schedule_self hrun _
  have hclean : Waiting { s with dueWhileBusy := fun _ => false } loop :=
    ⟨h.busy, h.stopped, h.timer⟩
  apply hkeeps
  apply overdue_keeps (P := fun t => Waiting t loop)
  · apply Waiting.schedule
    exact overdue_keeps (P := fun t => Waiting t loop) (hclean.schedule _ _ _) hclean
  · exact overdue_keeps (P := fun t => Waiting t loop) (hclean.schedule _ _ _) hclean

end

/-- The end of a task. -/
def Event.settles : Event Call → Bool
  | .settle _ _ => true
  | _ => false

/-- An event that has no hand in the loop's tick. -/
def Event.keepsTick (loop : Loop) : Event Call → Bool
  | .stop => false
  | .pause => false
  | .options options => options.shouldRun loop
  | _ => true

section
variable {s : System Call} {loop : Loop}

/-- The bus stays taken until its task settles. -/
theorem busy_step (hbusy : s.loops.busy = true) (he : e.settles = false) :
    (step s e).loops.busy = true := by
  cases e with
  | options options => exact hbusy
  | start => exact (resume_busy _ _).trans hbusy
  | stop => exact (pause_busy _).trans hbusy
  | pause => exact (pause_busy _).trans hbusy
  | resume => exact (resume_busy _ _).trans hbusy
  | schedule loop delayMs => exact (schedule_busy _ _ _ _).trans hbusy
  | fire id =>
    simp only [step]
    unfold System.fire
    cases s.loops.liveTimers.find? (·.id = id) with
    | none => exact hbusy
    | some timer =>
      simp only
      split_ifs with hgo
      · rw [(onTimer_go hgo).2] at hbusy
        cases hbusy
      · exact (onTimer_busy _ _).trans hbusy
  | runExclusive call =>
    simp only [step]
    unfold System.runExclusive
    rw [if_pos hbusy]
    exact hbusy
  | wake i =>
    simp only [step]
    unfold System.wake
    cases s.sleeping[i]? with
    | none => exact hbusy
    | some task =>
      simp only
      unfold System.runExclusive
      rw [if_pos hbusy]
      exact hbusy
  | settle i fulfilled => cases he
  | goOn i =>
    simp only [step]
    unfold System.goOn
    cases s.returning[i]? with
    | none => exact hbusy
    | some loop => exact (schedule_busy _ _ _ _).trans hbusy
  | waitForIdle waiter aborted =>
    simp only [step]
    unfold System.waitForIdle
    split_ifs with hfree haborted
    · exact hbusy
    · exact hbusy
    · rw [resolveIdleWaiters_busy (by exact hbusy)]
      exact hbusy
  | abort waiter =>
    simp only [step]
    unfold System.abort
    split_ifs
    · exact hbusy
    · exact hbusy

/-- A tick of the loop is held back, and the loop has something to do. -/
structure TickHeld (s : System Call) (loop : Loop) : Prop where
  waiting : Waiting s.loops loop
  due : s.loops.dueWhileBusy loop = true
  shouldRun : s.options.shouldRun loop = true

theorem tickHeld_step (h : Inv s) (ht : TickHeld s loop) (he : e.settles = false)
    (hkeeps : e.keepsTick loop = true) : TickHeld (step s e) loop := by
  obtain ⟨hwaiting, hdue, hrun⟩ := ht
  have hbusy := hwaiting.busy
  cases e with
  | options options => exact ⟨hwaiting, hdue, hkeeps⟩
  | start =>
    have hstarted : Waiting { s.loops with stopped := false } loop := ⟨hbusy, rfl, hwaiting.timer⟩
    exact ⟨hstarted.resume s.options, hstarted.resume_due hrun, hrun⟩
  | stop => cases hkeeps
  | pause => cases hkeeps
  | resume => exact ⟨hwaiting.resume s.options, hwaiting.resume_due hrun, hrun⟩
  | schedule other delayMs =>
    exact ⟨hwaiting.schedule s.options other _, hwaiting.schedule_due hrun hdue other _, hrun⟩
  | fire id =>
    simp only [step]
    unfold System.fire
    cases hfind : s.loops.liveTimers.find? (·.id = id) with
    | none => exact ⟨hwaiting, hdue, hrun⟩
    | some timer =>
      obtain ⟨t, hfired, hcases⟩ := onTimer_cases s.loops timer
      simp only
      rcases hcases with ⟨-, hstopped⟩ | ⟨heq, -, -⟩ | ⟨-, -, hfree⟩
      · rw [hwaiting.stopped] at hstopped
        cases hstopped
      · have hother : loop ≠ timer.loop := by
          rintro rfl
          have hknown := h.loops.timed.known timer (mem_of_find?_eq_some hfind)
          rw [hwaiting.timer] at hknown
          cases hknown
        rw [heq]
        simp only [Bool.false_eq_true, if_false]
        refine ⟨⟨?_, ?_, ?_⟩, ?_, hrun⟩
        · rw [hfired]
          exact hbusy
        · rw [hfired]
          exact hwaiting.stopped
        · rw [hfired]
          exact (update_of_ne hother _ _).trans hwaiting.timer
        · rw [setDue_other _ hother, hfired]
          exact hdue
      · rw [hbusy] at hfree
        cases hfree
  | runExclusive call =>
    simp only [step]
    unfold System.runExclusive
    rw [if_pos hbusy]
    exact ⟨hwaiting, hdue, hrun⟩
  | wake i =>
    simp only [step]
    unfold System.wake
    cases s.sleeping[i]? with
    | none => exact ⟨hwaiting, hdue, hrun⟩
    | some task =>
      simp only
      unfold System.runExclusive
      rw [if_pos hbusy]
      exact ⟨hwaiting, hdue, hrun⟩
  | settle i fulfilled => cases he
  | goOn i =>
    simp only [step]
    unfold System.goOn
    cases s.returning[i]? with
    | none => exact ⟨hwaiting, hdue, hrun⟩
    | some other =>
      exact ⟨hwaiting.schedule s.options other _, hwaiting.schedule_due hrun hdue other _, hrun⟩
  | waitForIdle waiter aborted =>
    simp only [step]
    unfold System.waitForIdle
    split_ifs with hfree haborted
    · exact ⟨hwaiting, hdue, hrun⟩
    · exact ⟨hwaiting, hdue, hrun⟩
    · rw [resolveIdleWaiters_busy (by exact hbusy)]
      exact ⟨⟨hbusy, hwaiting.stopped, hwaiting.timer⟩, hdue, hrun⟩
  | abort waiter =>
    simp only [step]
    unfold System.abort
    split_ifs
    · exact ⟨⟨hbusy, hwaiting.stopped, hwaiting.timer⟩, hdue, hrun⟩
    · exact ⟨hwaiting, hdue, hrun⟩

theorem busy_run (hbusy : s.loops.busy = true) (hrest : ∀ e ∈ rest, e.settles = false) :
    (run step s rest).loops.busy = true := by
  induction rest generalizing s with
  | nil => exact hbusy
  | cons e rest ih =>
    exact ih (busy_step hbusy (hrest e (by simp))) fun e' he' =>
      hrest e' (mem_cons_of_mem _ he')

theorem tickHeld_run (h : Inv s) (ht : TickHeld s loop) (hrest : ∀ e ∈ rest, e.settles = false)
    (hkeeps : ∀ e ∈ rest, e.keepsTick loop = true) : TickHeld (run step s rest) loop := by
  induction rest generalizing s with
  | nil => exact ht
  | cons e rest ih =>
    have hnext := tickHeld_step h ht (hrest e (by simp)) (hkeeps e (by simp))
    exact ih (inv_step h e) hnext (fun e' he' => hrest e' (mem_cons_of_mem _ he'))
      fun e' he' => hkeeps e' (mem_cons_of_mem _ he')

/-- A timer that fires on a busy bus leaves its tick behind. -/
theorem fire_held (h : Inv s) {timer : LoopTimer} (hlive : timer ∈ s.loops.liveTimers)
    (hbusy : s.loops.busy = true) :
    (s.fire timer.id).loops.busy = true ∧ (s.fire timer.id).options = s.options ∧
      Waiting (s.fire timer.id).loops timer.loop ∧
      (s.fire timer.id).loops.dueWhileBusy timer.loop = true := by
  have hfind : s.loops.liveTimers.find? (·.id = timer.id) = some timer := by
    cases hfound : s.loops.liveTimers.find? (·.id = timer.id) with
    | none => exact absurd (decide_eq_true rfl) (find?_eq_none.1 hfound timer hlive)
    | some other =>
      have hsame : other.id = timer.id := by simpa using find?_some hfound
      have hin := mem_of_find?_eq_some hfound
      rw [inj_on_of_nodup_map h.loops.timed.nodup hin hlive hsame]
  have hstopped : s.loops.stopped = false := by
    by_contra hstopped
    rw [h.loops.off (Bool.eq_true_of_not_eq_false hstopped)] at hlive
    cases hlive
  obtain ⟨t, hfired, hcases⟩ := onTimer_cases s.loops timer
  unfold System.fire
  rw [hfind]
  simp only
  rcases hcases with ⟨-, hoff⟩ | ⟨heq, -, -⟩ | ⟨-, -, hfree⟩
  · rw [hstopped] at hoff
    cases hoff
  · rw [heq]
    simp only [Bool.false_eq_true, if_false]
    have htimer : t.timer timer.loop = none := by
      rw [hfired]
      exact update_self _ _ _
    have hsame : t.busy = true ∧ t.stopped = false := by
      rw [hfired]
      exact ⟨hbusy, hstopped⟩
    exact ⟨hsame.1, trivial, ⟨hsame.1, hsame.2, htimer⟩, setDue_self _ _ _⟩
  · rw [hbusy] at hfree
    cases hfree

/-- The end of the task arms the loops again. -/
theorem settle_armed (h : Inv s) (hbusy : s.loops.busy = true) (fulfilled : Bool)
    (hstopped : (s.settle 0 fulfilled).loops.stopped = false)
    (hrun : (s.settle 0 fulfilled).options.shouldRun loop = true) :
    (∃ delayMs, Armed (s.settle 0 fulfilled).loops loop delayMs) ∧
      (s.loops.dueWhileBusy loop = true → Armed (s.settle 0 fulfilled).loops loop 0) := by
  rw [settle_stopped] at hstopped
  unfold System.settle at hrun ⊢
  obtain ⟨task, rest, htasks⟩ := exists_cons_of_ne_nil (h.busy.1 hbusy)
  rw [htasks] at hrun ⊢
  simp only [getElem?_cons_zero] at hrun ⊢
  have hfree : Timed { s.loops with busy := false, idleWaiters := [] } :=
    h.loops.timed.congr rfl rfl rfl
  exact hfree.resume_armed loop hstopped hrun rfl fun hdue => (h.loops.heldBack loop hdue).2

/-- A waiter is resolved on a free bus only. -/
theorem resolved_step (h : Inv s) (he : (step s e).resolved ≠ s.resolved) :
    (step s e).running = [] := by
  cases e with
  | options options => exact absurd rfl he
  | start => exact absurd rfl he
  | stop => exact absurd rfl he
  | pause => exact absurd rfl he
  | resume => exact absurd rfl he
  | schedule loop delayMs => exact absurd rfl he
  | fire id =>
    refine absurd ?_ he
    simp only [step]
    unfold System.fire System.runExclusive
    cases s.loops.liveTimers.find? (·.id = id) with
    | none => rfl
    | some timer =>
      simp only
      split_ifs <;> rfl
  | runExclusive call =>
    refine absurd ?_ he
    simp only [step]
    unfold System.runExclusive
    split_ifs <;> rfl
  | wake i =>
    refine absurd ?_ he
    simp only [step]
    unfold System.wake System.runExclusive
    cases s.sleeping[i]? with
    | none => rfl
    | some task =>
      simp only
      split_ifs <;> rfl
  | settle i fulfilled =>
    have hfree : (s.settle i fulfilled).loops.busy = false := by
      simp only [step] at he
      unfold System.settle at he ⊢
      cases hi : s.running[i]? with
      | none =>
        rw [hi] at he
        exact absurd rfl he
      | some task => exact leave_busy _ _
    exact (h.settle i fulfilled).idle hfree
  | goOn i =>
    refine absurd ?_ he
    simp only [step]
    unfold System.goOn
    cases s.returning[i]? <;> rfl
  | waitForIdle waiter aborted =>
    simp only [step] at he ⊢
    unfold System.waitForIdle at he ⊢
    split_ifs at he ⊢ with hfree haborted
    · exact h.idle hfree
    · exact absurd rfl he
    · rw [Bool.not_eq_false] at hfree
      rw [resolveIdleWaiters_busy (by exact hfree)] at he
      exact absurd (append_nil _) he
  | abort waiter =>
    refine absurd ?_ he
    simp only [step]
    unfold System.abort
    split_ifs <;> rfl

theorem loopTimers_le (h : Timed s.loops) (loop : Loop) :
    (s.loops.liveTimers.filter (·.loop = loop)).length ≤ 1 := by
  cases hlist : s.loops.liveTimers.filter (·.loop = loop) with
  | nil => exact Nat.zero_le _
  | cons first others =>
    have hall : ∀ timer ∈ s.loops.liveTimers.filter (·.loop = loop), timer = first := by
      intro timer htimer
      have hfirst : first ∈ s.loops.liveTimers.filter (·.loop = loop) := by
        rw [hlist]
        exact mem_cons_self
      obtain ⟨hin, hloop⟩ := mem_filter.1 htimer
      obtain ⟨hfirstIn, hfirstLoop⟩ := mem_filter.1 hfirst
      have hid := h.known timer hin
      rw [of_decide_eq_true hloop, ← of_decide_eq_true hfirstLoop, h.known first hfirstIn] at hid
      exact inj_on_of_nodup_map h.nodup hin hfirstIn (Option.some.inj hid).symm
    have hnodup : (first :: others).Nodup := by
      rw [← hlist]
      exact h.nodup.of_map.filter _
    have hsub : first :: others ⊆ [first] := by
      intro timer htimer
      rw [← hlist] at htimer
      exact mem_singleton.2 (hall timer htimer)
    exact (subperm_of_subset hnodup hsub).length_le

end

/-- In any order of settings, starts, stops, timers and calls at most one task runs, each loop has
at most one live timer, idle waiters are resolved only while no task runs, and no callback of a
loop begins behind a stop. A tick that fell due behind another task has its loop's timer set again
when that task ends, at once unless the loop was stopped, paused or switched off meanwhile. -/
theorem one_task_one_timer_and_no_lost_tick (options : ModbusLoopCoordinatorOptions)
    (events : List (Event Call)) :
    (after options events).running.length ≤ 1 ∧
      (∀ loop, ((after options events).loops.liveTimers.filter (·.loop = loop)).length ≤ 1) ∧
      (∀ e, (step (after options events) e).resolved ≠ (after options events).resolved →
        (step (after options events) e).running = []) ∧
      (∀ rest, Event.start ∉ rest → loopStarts (after options (events ++ .stop :: rest)) =
        loopStarts (after options events)) ∧
      ∀ timer ∈ (after options events).loops.liveTimers, (after options events).running ≠ [] →
        ∀ rest : List (Event Call), (∀ e ∈ rest, e.settles = false) → ∀ fulfilled,
          let ended := after options (events ++ .fire timer.id :: (rest ++ [.settle 0 fulfilled]))
          ended.loops.stopped = false → ended.options.shouldRun timer.loop = true →
            (∃ delayMs, Armed ended.loops timer.loop delayMs) ∧
            ((after options events).options.shouldRun timer.loop = true →
              (∀ e ∈ rest, e.keepsTick timer.loop = true) → Armed ended.loops timer.loop 0) := by
  have h : Inv (after options events) := inv_after options events
  refine ⟨h.one, loopTimers_le h.loops.timed, fun e he => resolved_step h he, ?_, ?_⟩
  · intro rest hrest
    have hstopped : (step (after options events) .stop).loops.stopped = true := pause_stopped _
    unfold after
    rw [run_append, run_cons]
    exact stopped_run (inv_step h .stop) hstopped hrest
  · intro timer hlive hrunning rest hrest fulfilled ended hstopped hrun
    have hended : ended =
        (run step ((after options events).fire timer.id) rest).settle 0 fulfilled := by
      unfold ended after
      rw [run_append, run_cons, run_append]
      rfl
    obtain ⟨hbusy, hoptions, hwaiting, hdue⟩ := fire_held h hlive (h.busy.2 hrunning)
    have hinv := inv_step h (.fire timer.id)
    have hlast : Inv (run step ((after options events).fire timer.id) rest) :=
      @run_invariant _ _ step Inv _ (fun _ e h => inv_step h e) hinv rest
    rw [hended] at hstopped hrun ⊢
    obtain ⟨harmed, hatOnce⟩ := settle_armed hlast (busy_run hbusy hrest) fulfilled hstopped hrun
    refine ⟨harmed, fun hshould hkeeps => hatOnce ?_⟩
    have hheld : TickHeld ((after options events).fire timer.id) timer.loop :=
      ⟨hwaiting, hdue, by rw [hoptions]; exact hshould⟩
    exact (tickHeld_run hinv hheld hrest hkeeps).due

/-- A read that falls due while a call has the bus comes right behind it. -/
theorem a_tick_behind_a_call :
    Armed (after ⟨true, true, 500, 500⟩
      [.start, .runExclusive (), .fire 0, .settle 0 true]).loops .read 0 :=
  ((one_task_one_timer_and_no_lost_tick ⟨true, true, 500, 500⟩
    [.start, .runExclusive ()]).2.2.2.2 ⟨0, .read, 500⟩ (by decide) (cons_ne_nil _ _) []
    (by simp) true (by decide) (by decide)).2 (by decide) (by simp)

end bbcom.modbus_loops
