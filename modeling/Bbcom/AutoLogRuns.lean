-- Runs of the auto-log (`automation-bridge.ts`): each log gets its frames as the law says and comes
-- to its end, and a session has at most one log that accepts.
import Bbcom.AutoLogDelivery

open bbcom.histories bbcom.runs bbcom.serial

namespace bbcom.auto_log

open SessionAutoLogState AutoLogBridge List Function Option

variable {s : SessionAutoLogState}

/-! ## A closed log comes to its end -/

/-- What a closed log still has before it: each happening of its own makes it less. -/
def SessionAutoLogState.left (s : SessionAutoLogState) : Nat :=
  2 * s.queue.length +
    (match s.worker with
      | .none => 0
      | .terminal => 1
      | .starting | .appending _ true _ => 2
      | .appending _ false _ => 3) +
    (match s.terminal with
      | .none => 3
      | .queued => 2
      | .called => 1
      | .settled => 0)

theorem batchCount_pos {queue : List DataFrame} (h : queue ≠ []) : 0 < batchCount 0 0 queue := by
  cases queue with
  | nil => exact absurd rfl h
  | cons next rest =>
    obtain ⟨taken, hcount, -⟩ := batchCount_spec 1 (0 + next.data.length) rest
    unfold batchCount
    rw [if_neg (by decide), if_neg (by simp), hcount]
    omega

theorem endDrain_left (hmode : s.shutdownMode ≠ .none) :
    s.endDrain.left ≤ ({ s with worker := .terminal } : SessionAutoLogState).left := by
  unfold endDrain
  rw [if_pos hmode]
  unfold terminalOnce
  split
  · rename_i hterminal
    simp [left, hterminal]
  · exact le_rfl

/-- Each turn of the loop takes a batch or goes to the terminal. -/
theorem drainState_left (hmode : s.shutdownMode ≠ .none) :
    s.drainState.left < ({ s with worker := .starting } : SessionAutoLogState).left := by
  unfold drainState
  split
  · rename_i hmore
    have hcount := batchCount_pos hmore.1
    have hlength := length_pos_of_ne_nil hmore.1
    simp only [left, takeNextBatch, length_drop]
    omega
  · have hleft := endDrain_left hmode
    simp only [left] at hleft ⊢
    omega

theorem afterAppend_left {batch : List DataFrame} {cancelled : Bool}
    (hworker : s.worker = .appending batch true cancelled) (hmode : s.shutdownMode ≠ .none)
    (acknowledged : Bool) :
    (s.afterAppend batch acknowledged).left < s.left := by
  have hwaiting : s.left = ({ s with worker := .starting } : SessionAutoLogState).left := by
    simp [left, hworker]
  cases acknowledged with
  | true =>
    rw [afterAppend_true, hwaiting]
    exact drainState_left (s := s.answer batch true) hmode
  | false =>
    have hleft := endDrain_left (s := s.markAborted.answer batch false) (by
      simp [answer, record, markAborted, dropQueuedEntries])
    rw [afterAppend_false, hwaiting]
    simp only [left, answer, record, markAborted, dropQueuedEntries, length_nil] at hleft ⊢
    omega

/-- What goes on in a closed log brings it nearer to its end. -/
theorem logStep_left (h : Sound s) (hclosed : s.accepting = false) (event : LogEvent) :
    logStep s event = s ∨ (logStep s event).left < s.left := by
  have hmode : s.shutdownMode ≠ .none := fun hnone =>
    Bool.false_ne_true (hclosed.symm.trans (h.mode.2 hnone))
  have hdebounce : s.debounceTimer = false := by
    apply eq_false_of_ne_true
    intro harmed
    exact Bool.false_ne_true (hclosed.symm.trans (h.debounce harmed))
  have hsteps := logStep_cases s event
  generalize logStep s event = s' at hsteps ⊢
  cases hsteps with
  | stays => exact .inl rfl
  | fires armed => exact absurd (hdebounce.symm.trans armed) Bool.false_ne_true
  | begins starting =>
    right
    have hleft := drainState_left hmode
    rwa [← starting] at hleft
  | calls waiting =>
    right
    simp [left, record, waiting]
  | settles fulfilled called => exact .inr (afterAppend_left called hmode fulfilled)
  | terminalCalled queued =>
    right
    simp [left, record, queued]
  | terminalSettles called =>
    right
    simp [left, called]
  | ends done =>
    right
    simp [left, done]

/-- A closed log in which nothing goes on any more has had its terminal. -/
theorem ended_of_still (h : Sound s) (hclosed : s.accepting = false)
    (hstill : ∀ event, logStep s event = s) : Ended s.history := by
  by_contra hopen
  have hmode : s.shutdownMode ≠ .none := fun hnone =>
    Bool.false_ne_true (hclosed.symm.trans (h.mode.2 hnone))
  have hshrinks : ∀ event, ¬(logStep s event).left < s.left := fun event hless => by
    rw [hstill event] at hless
    exact absurd hless (lt_irrefl _)
  cases hterminal : s.terminal with
  | none =>
    have hbusy := h.busy hmode hterminal
    cases hworker : s.worker with
    | none => exact hbusy.1 hworker
    | terminal => exact hbusy.2 hworker
    | starting =>
      apply hshrinks .drainBegins
      have hleft := drainState_left hmode
      rw [← hworker] at hleft
      simpa only [logStep, if_pos hworker] using hleft
    | appending batch called cancelled =>
      cases called with
      | false =>
        apply hshrinks .appendCalled
        simp [logStep, hworker, left, record]
      | true =>
        have hleft := afterAppend_left hworker hmode false
        cases cancelled with
        | false => exact hshrinks .appendTimesOut (by simpa only [logStep, hworker] using hleft)
        | true => exact hshrinks .appendStops (by simpa only [logStep, hworker] using hleft)
  | queued =>
    apply hshrinks .terminalCalled
    simp [logStep, hterminal, left, record]
  | called => exact hopen (h.ended.2 (.inl hterminal))
  | settled => exact hopen (h.ended.2 (.inr hterminal))

/-! ## What stays of a log -/

/-- The log stays with its session, and does not accept again. -/
def Kept (s t : SessionAutoLogState) : Prop :=
  t.sessionId = s.sessionId ∧ (t.accepting = true → s.accepting = true)

theorem Kept.refl (s : SessionAutoLogState) : Kept s s := ⟨rfl, id⟩

theorem Kept.trans {r t : SessionAutoLogState} (hfirst : Kept r s) (hthen : Kept s t) :
    Kept r t :=
  ⟨hthen.1.trans hfirst.1, fun haccepting => hfirst.2 (hthen.2 haccepting)⟩

theorem kept_ensureWorker (s : SessionAutoLogState) : Kept s s.ensureWorker := by
  unfold ensureWorker
  dsimp only
  split <;> exact ⟨rfl, id⟩

theorem kept_armDebounce (s : SessionAutoLogState) : Kept s s.armDebounce := by
  unfold armDebounce
  split <;> exact ⟨rfl, id⟩

theorem kept_markAborted (s : SessionAutoLogState) : Kept s s.markAborted :=
  ⟨rfl, fun haccepting => absurd haccepting Bool.false_ne_true⟩

theorem kept_terminalOnce (s : SessionAutoLogState) : Kept s s.terminalOnce := by
  unfold terminalOnce
  split <;> exact ⟨rfl, id⟩

theorem kept_endDrain (s : SessionAutoLogState) : Kept s s.endDrain := by
  unfold endDrain
  split
  · exact (kept_terminalOnce s).trans ⟨rfl, id⟩
  · dsimp only
    split
    · exact Kept.trans ⟨rfl, id⟩ (kept_armDebounce { s with worker := .none })
    · exact ⟨rfl, id⟩

theorem kept_drainState (s : SessionAutoLogState) : Kept s s.drainState := by
  unfold drainState
  split
  · exact ⟨rfl, id⟩
  · exact kept_endDrain s

theorem kept_afterAppend (s : SessionAutoLogState) (batch : List DataFrame)
    (acknowledged : Bool) : Kept s (s.afterAppend batch acknowledged) := by
  cases acknowledged with
  | true =>
    rw [afterAppend_true]
    exact Kept.trans ⟨rfl, id⟩ (kept_drainState _)
  | false =>
    rw [afterAppend_false]
    exact (kept_markAborted s).trans (Kept.trans ⟨rfl, id⟩ (kept_endDrain _))

theorem kept_acceptFrame (s : SessionAutoLogState) (frame : DataFrame) :
    Kept s (s.acceptFrame frame) := by
  unfold acceptFrame
  split
  · exact (kept_markAborted s).trans (kept_ensureWorker _)
  · dsimp only
    split
    · exact Kept.trans ⟨rfl, id⟩ (kept_ensureWorker _)
    · exact Kept.trans ⟨rfl, id⟩ (kept_armDebounce _)

theorem kept_logStep (s : SessionAutoLogState) (event : LogEvent) : Kept s (logStep s event) := by
  have hsteps := logStep_cases s event
  generalize logStep s event = s' at hsteps ⊢
  cases hsteps with
  | stays => exact .refl s
  | fires => exact kept_ensureWorker s
  | begins => exact kept_drainState s
  | settles => exact kept_afterAppend s _ _
  | _ => exact ⟨rfl, id⟩

theorem beginShutdown_closed (s : SessionAutoLogState) :
    s.beginShutdown.sessionId = s.sessionId ∧ s.beginShutdown.accepting = false ∧
      s.beginShutdown.worker ≠ .none := by
  have hkept := (kept_ensureWorker s).1
  have hworker := ensureWorker_worker s
  rw [beginShutdown_eq]
  split <;> exact ⟨hkept, rfl, hworker⟩

theorem drainTimeout_closed (s : SessionAutoLogState) :
    s.drainTimeout.sessionId = s.sessionId ∧ s.drainTimeout.accepting = false := by
  rw [drainTimeout_eq]
  exact ⟨rfl, rfl⟩

/-! ## The invariant of the bridge -/

/-- The call is not current any more, or its session has no log that accepts. -/
def Cleared (s : AutoLogBridge) (call : Nat) : Prop :=
  call < s.callCount ∧ (s.isCurrentGeneration call = true →
    ∀ log, s.sessionStates (s.calls call).sessionId = some log → (s.logs log).accepting = false)

/-- The waits are not for the same call of `enable`. -/
def Apart (wait other : DrainWait) : Prop :=
  ∀ call, wait.call = some call → other.call ≠ some call

variable {wait : DrainWait} {call log : Nat} {waits : List DrainWait} {state : SessionAutoLogState}

theorem Apart.symm {other : DrainWait} (h : Apart wait other) : Apart other wait :=
  fun call hother hwait => h call hwait hother

structure BridgeSound (s : AutoLogBridge) : Prop where
  sound : ∀ log, Sound (s.logs log)
  mapped : ∀ sessionId log, s.sessionStates sessionId = some log →
    log < s.logCount ∧ (s.logs log).sessionId = sessionId
  one : ∀ log < s.logCount, (s.logs log).accepting = true →
    s.sessionStates (s.logs log).sessionId = some log
  generation : ∀ call < s.callCount,
    (s.calls call).generation ≤ s.generations (s.calls call).sessionId
  distinct : ∀ call < s.callCount, ∀ other < s.callCount,
    (s.calls call).sessionId = (s.calls other).sessionId →
    (s.calls call).generation = (s.calls other).generation → call = other
  begun : ∀ call, (s.calls call).stage = .requestingTarget → call < s.callCount
  cleared : ∀ call, (s.calls call).stage = .shuttingDown ∨ (s.calls call).stage = .shutDown ∨
    (s.calls call).stage = .beginning → Cleared s call
  waiting : ∀ wait ∈ s.waits, ∀ call, wait.call = some call →
    (s.calls call).stage = .shuttingDown
  alone : s.waits.Pairwise Apart

theorem bridge_sound_new : BridgeSound {} where
  sound _ := sound_new ""
  mapped _ _ h := by simp at h
  one _ h := absurd h (Nat.not_lt_zero _)
  generation _ h := absurd h (Nat.not_lt_zero _)
  distinct _ h := absurd h (Nat.not_lt_zero _)
  begun _ h := by simp at h
  cleared _ h := by simp at h
  waiting _ h := absurd h not_mem_nil
  alone := .nil

variable {b : AutoLogBridge}

/-! ## Calls and waits -/

@[simp] theorem setCall_ids (b : AutoLogBridge) (call other : Nat) (stage : EnableStage) :
    ((b.setCall call stage).calls other).sessionId = (b.calls other).sessionId ∧
      ((b.setCall call stage).calls other).generation = (b.calls other).generation := by
  unfold setCall
  by_cases hsame : other = call
  · subst hsame
    simp
  · simp [hsame]

theorem setCall_stage (b : AutoLogBridge) (call other : Nat) (stage : EnableStage) :
    ((b.setCall call stage).calls other).stage =
      if other = call then stage else (b.calls other).stage := by
  unfold setCall
  by_cases hsame : other = call
  · subst hsame
    simp
  · simp [hsame]

theorem cleared_setCall {other : Nat} {stage : EnableStage} :
    Cleared (b.setCall call stage) other ↔ Cleared b other := by
  obtain ⟨hsession, hgeneration⟩ := setCall_ids b call other stage
  unfold Cleared isCurrentGeneration
  rw [hsession, hgeneration]
  rfl

/-- A call waits only while it is shutting down. -/
theorem BridgeSound.not_waiting (h : BridgeSound b) (call : Nat)
    (hstage : (b.calls call).stage ≠ .shuttingDown) : ∀ wait ∈ b.waits, wait.call ≠ some call :=
  fun wait hwait hcall => hstage (h.waiting wait hwait call hcall)

/-- A call goes on; to a stage behind the shutdown only where its session is clear. -/
theorem BridgeSound.setCall (h : BridgeSound b) (stage : EnableStage)
    (hstage : stage ≠ .requestingTarget) (hcleared : stage = .returned ∨ Cleared b call)
    (hnowait : ∀ wait ∈ b.waits, wait.call ≠ some call) : BridgeSound (b.setCall call stage) where
  sound := h.sound
  mapped := h.mapped
  one := h.one
  generation other hother := by
    rw [(setCall_ids b call other stage).1, (setCall_ids b call other stage).2]
    exact h.generation other hother
  distinct first hfirst second hsecond := by
    rw [(setCall_ids b call first stage).1, (setCall_ids b call first stage).2,
      (setCall_ids b call second stage).1, (setCall_ids b call second stage).2]
    exact h.distinct first hfirst second hsecond
  begun other hother := by
    rw [setCall_stage] at hother
    split at hother
    · exact absurd hother hstage
    · exact h.begun other hother
  cleared other hother := by
    rw [cleared_setCall]
    rw [setCall_stage] at hother
    split at hother
    · rename_i hsame
      rw [hsame]
      obtain rfl | hclear := hcleared
      · simp at hother
      · exact hclear
    · exact h.cleared other hother
  waiting wait hwait other hother := by
    have hanother : other ≠ call := fun hsame => hnowait wait hwait (hother.trans (by rw [hsame]))
    rw [setCall_stage, if_neg hanother]
    exact h.waiting wait hwait other hother
  alone := h.alone

theorem BridgeSound.setWaits (h : BridgeSound b)
    (hwaiting : ∀ wait ∈ waits, ∀ call, wait.call = some call →
      (b.calls call).stage = .shuttingDown) (halone : waits.Pairwise Apart) :
    BridgeSound { b with waits := waits } :=
  { h with
    waiting := hwaiting
    alone := halone }

theorem cleared_release : Cleared (b.release waits) call ↔ Cleared b call := by
  unfold release
  induction waits generalizing b with
  | nil => rfl
  | cons wait waits ih =>
    rw [foldl_cons, ih]
    split
    · exact cleared_setCall
    · rfl

theorem release_rest (b : AutoLogBridge) (waits : List DrainWait) :
    b.release waits = { b with calls := (b.release waits).calls } := by
  unfold release
  induction waits generalizing b with
  | nil => rfl
  | cons wait waits ih =>
    rw [foldl_cons, ih]
    split <;> rfl

/-- Some of the waits are over, and `rest` are left. -/
theorem BridgeSound.release {rest : List DrainWait} (h : BridgeSound b)
    (hperm : (waits ++ rest).Perm b.waits) :
    BridgeSound ({ b with waits := rest }.release waits) := by
  induction waits generalizing b with
  | nil =>
    have hkept : ∀ wait ∈ rest, wait ∈ b.waits := fun wait hwait => hperm.subset hwait
    exact h.setWaits (fun wait hwait => h.waiting wait (hkept wait hwait))
      ((hperm.pairwise_iff Apart.symm).2 h.alone)
  | cons wait waits ih =>
    have halone := pairwise_cons.1 ((hperm.pairwise_iff Apart.symm).2 h.alone)
    have hfewer : BridgeSound { b with waits := waits ++ rest } := h.setWaits (fun other hother =>
        h.waiting other (hperm.subset (mem_cons_of_mem _ hother))) halone.2
    unfold release
    rw [foldl_cons]
    cases hcall : wait.call with
    | none => exact ih (b := { b with waits := waits ++ rest }) hfewer (.refl _)
    | some call =>
      have hstage := h.waiting wait (hperm.subset mem_cons_self) call hcall
      have hcleared := hfewer.cleared call (.inl hstage)
      have hreleased := hfewer.setCall .shutDown (by simp) (.inr hcleared)
        fun other hother => halone.1 other hother call hcall
      exact ih (b := { b with waits := waits ++ rest }.setCall call .shutDown) hreleased (.refl _)

/-! ## Logs -/

theorem kept_update (hkept : Kept (b.logs log) state) (n : Nat) :
    Kept (b.logs n) (update b.logs log state n) := by
  by_cases hsame : n = log
  · rw [hsame, update_self]
    exact hkept
  · rw [update_of_ne hsame]
    exact .refl _

theorem Cleared.updateLog (hkept : Kept (b.logs log) state) (h : Cleared b call) :
    Cleared { b with logs := update b.logs log state } call := by
  refine ⟨h.1, fun hcurrent n hn => ?_⟩
  apply eq_false_of_ne_true
  intro haccepting
  exact Bool.false_ne_true ((h.2 hcurrent n hn).symm.trans ((kept_update hkept n).2 haccepting))

/-- A log goes on, as itself. -/
theorem BridgeSound.updateLog (h : BridgeSound b) (hsound : Sound state)
    (hkept : Kept (b.logs log) state) :
    BridgeSound { b with logs := update b.logs log state } := by
  have hall := kept_update hkept
  exact
    { sound n := by
        change Sound (update b.logs log state n)
        by_cases hsame : n = log
        · rwa [hsame, update_self]
        · rw [update_of_ne hsame]
          exact h.sound n
      mapped sessionId n hn :=
        ⟨(h.mapped sessionId n hn).1, (hall n).1.trans (h.mapped sessionId n hn).2⟩
      one n hn haccepting := by
        change b.sessionStates (update b.logs log state n).sessionId = some n
        rw [(hall n).1]
        exact h.one n hn ((hall n).2 haccepting)
      generation := h.generation
      distinct := h.distinct
      begun := h.begun
      cleared call hcall := (h.cleared call hcall).updateLog hkept
      waiting := h.waiting
      alone := h.alone }

theorem setLog_logs (b : AutoLogBridge) (log : Nat) (state : SessionAutoLogState) :
    (b.setLog log state).logs = update b.logs log state := by
  unfold setLog
  dsimp only
  split
  · rw [release_rest]
  · rfl

theorem setLog_waits (h : wait ∈ (b.setLog log state).waits) : wait ∈ b.waits := by
  unfold setLog at h
  dsimp only at h
  split at h
  · rw [release_rest] at h
    exact mem_of_mem_filter h
  · exact h

theorem Cleared.setLog (hkept : Kept (b.logs log) state) (h : Cleared b call) :
    Cleared (b.setLog log state) call := by
  have hupdated := h.updateLog hkept
  unfold AutoLogBridge.setLog
  dsimp only
  split
  · exact cleared_release.2 hupdated
  · exact hupdated

theorem BridgeSound.setLog (h : BridgeSound b) (log : Nat) (hsound : Sound state)
    (hkept : Kept (b.logs log) state) : BridgeSound (b.setLog log state) := by
  have hupdated := h.updateLog hsound hkept
  unfold AutoLogBridge.setLog
  dsimp only
  split
  · apply hupdated.release
    have hsplit := filter_append_perm (fun wait : DrainWait => decide (wait.log = log)) b.waits
    simpa using hsplit
  · exact hupdated

/-- The session of a log has no log any more, or keeps its own. -/
theorem forget_fewer (b : AutoLogBridge) (log : Nat) :
    ∀ sessionId n, (b.forget log).sessionStates sessionId = some n →
      b.sessionStates sessionId = some n := by
  intro sessionId n hn
  unfold forget at hn
  dsimp only at hn
  split at hn
  · change update b.sessionStates (b.logs log).sessionId none sessionId = some n at hn
    by_cases hsame : sessionId = (b.logs log).sessionId
    · rw [hsame, update_self] at hn
      cases hn
    · rwa [update_of_ne hsame] at hn
  · exact hn

theorem forget_rest (b : AutoLogBridge) (log : Nat) :
    b.forget log = { b with sessionStates := (b.forget log).sessionStates } := by
  unfold forget
  dsimp only
  split <;> rfl

theorem Cleared.forget (h : Cleared b call) (log : Nat) : Cleared (b.forget log) call := by
  have hfewer := forget_fewer b log
  rw [forget_rest]
  exact ⟨h.1, fun hcurrent n hn => h.2 hcurrent n (hfewer _ n hn)⟩

theorem BridgeSound.forget (h : BridgeSound b) (hclosed : (b.logs log).accepting = false) :
    BridgeSound (b.forget log) := by
  have hfewer := forget_fewer b log
  have hcleared : ∀ call, Cleared b call → Cleared (b.forget log) call :=
    fun call hcall => hcall.forget log
  have hone : ∀ n < b.logCount, (b.logs n).accepting = true →
      (b.forget log).sessionStates (b.logs n).sessionId = some n := by
    intro n hn haccepting
    have hmapped := h.one n hn haccepting
    unfold AutoLogBridge.forget
    dsimp only
    split
    · rename_i hforgotten
      have hother : (b.logs n).sessionId ≠ (b.logs log).sessionId := by
        intro hsame
        rw [hsame, hforgotten] at hmapped
        cases hmapped
        exact Bool.false_ne_true (hclosed.symm.trans haccepting)
      exact (update_of_ne hother ..).trans hmapped
    · exact hmapped
  rw [forget_rest] at hcleared ⊢
  exact
    { sound := h.sound
      mapped sessionId n hn := h.mapped sessionId n (hfewer sessionId n hn)
      one := hone
      generation := h.generation
      distinct := h.distinct
      begun := h.begun
      cleared call hcall := hcleared call (h.cleared call hcall)
      waiting := h.waiting
      alone := h.alone }

/-! ## Each event keeps the invariant -/

section

variable (h : BridgeSound b)
include h

/-- No call of the session is current any more. -/
theorem BridgeSound.nextGeneration (sessionId : String) :
    BridgeSound (b.nextGeneration sessionId) ∧ ∀ call < b.callCount,
      (b.calls call).generation ≤ b.generations (b.calls call).sessionId ∧
        ((b.calls call).sessionId = sessionId →
          (b.calls call).generation < b.generations sessionId + 1) := by
  have hgenerations : ∀ other, b.generations other ≤
      update b.generations sessionId (b.generations sessionId + 1) other := by
    intro other
    by_cases hsame : other = sessionId
    · rw [hsame, update_self]
      omega
    · rw [update_of_ne hsame]
  have hcleared : ∀ call, Cleared b call → Cleared (b.nextGeneration sessionId) call := by
    rintro call ⟨hbegun, hclear⟩
    refine ⟨hbegun, fun hcurrent => hclear ?_⟩
    have hgeneration := h.generation call hbegun
    simp only [AutoLogBridge.isCurrentGeneration, AutoLogBridge.nextGeneration,
      beq_iff_eq] at hcurrent ⊢
    by_cases hsame : (b.calls call).sessionId = sessionId
    · rw [hsame, update_self] at hcurrent
      rw [hsame] at hgeneration
      omega
    · rwa [update_of_ne hsame] at hcurrent
  refine ⟨?_, fun call hcall => ⟨h.generation call hcall, fun hsession => ?_⟩⟩
  · exact
      { sound := h.sound
        mapped := h.mapped
        one := h.one
        generation call hcall := (h.generation call hcall).trans (hgenerations _)
        distinct := h.distinct
        begun := h.begun
        cleared call hcall := hcleared call (h.cleared call hcall)
        waiting := h.waiting
        alone := h.alone }
  · have hgeneration := h.generation call hcall
    rw [hsession] at hgeneration
    omega

theorem BridgeSound.enable (sessionId : String) : BridgeSound (b.enable sessionId) := by
  obtain ⟨hnext, holder⟩ := h.nextGeneration sessionId
  have hnew : (b.enable sessionId).calls b.callCount =
      ⟨sessionId, b.generations sessionId + 1, .requestingTarget⟩ := by
    simp [AutoLogBridge.enable, AutoLogBridge.nextGeneration]
  have hold : ∀ call, call ≠ b.callCount → (b.enable sessionId).calls call = b.calls call :=
    fun call hother => update_of_ne hother ..
  have hgenerations : (b.enable sessionId).generations = (b.nextGeneration sessionId).generations :=
    rfl
  have hcleared : ∀ call, Cleared (b.nextGeneration sessionId) call →
      Cleared (b.enable sessionId) call := by
    rintro call ⟨hbegun, hclear⟩
    have hsame := hold call (Nat.ne_of_lt hbegun)
    refine ⟨Nat.lt_succ_of_lt hbegun, ?_⟩
    unfold AutoLogBridge.isCurrentGeneration at hclear ⊢
    rw [hsame]
    exact hclear
  have hcases : ∀ call < (b.enable sessionId).callCount,
      call = b.callCount ∨ call < b.callCount := by
    intro call hcall
    have hcount : (b.enable sessionId).callCount = b.callCount + 1 := rfl
    omega
  exact
    { sound := hnext.sound
      mapped := hnext.mapped
      one := hnext.one
      generation call hcall := by
        obtain rfl | hbefore := hcases call hcall
        · rw [hnew, hgenerations]
          simp [AutoLogBridge.nextGeneration]
        · rw [hold call (Nat.ne_of_lt hbefore)]
          exact hnext.generation call hbefore
      distinct first hfirst second hsecond hsession hgeneration := by
        obtain rfl | hbefore := hcases first hfirst <;>
          obtain rfl | hbefore' := hcases second hsecond
        · rfl
        · rw [hnew, hold second (Nat.ne_of_lt hbefore')] at hsession hgeneration
          have := (holder second hbefore').2 hsession.symm
          exact absurd hgeneration.symm (Nat.ne_of_lt this)
        · rw [hnew, hold first (Nat.ne_of_lt hbefore)] at hsession hgeneration
          have := (holder first hbefore).2 hsession
          exact absurd hgeneration (Nat.ne_of_lt this)
        · rw [hold first (Nat.ne_of_lt hbefore), hold second (Nat.ne_of_lt hbefore')]
            at hsession hgeneration
          exact h.distinct first hbefore second hbefore' hsession hgeneration
      begun call hcall := by
        by_cases hsame : call = b.callCount
        · rw [hsame]
          exact Nat.lt_succ_self _
        · rw [hold call hsame] at hcall
          exact Nat.lt_succ_of_lt (h.begun call hcall)
      cleared call hcall := by
        by_cases hsame : call = b.callCount
        · rw [hsame, hnew] at hcall
          simp at hcall
        · rw [hold call hsame] at hcall
          exact hcleared call (hnext.cleared call hcall)
      waiting wait hwait call hcall := by
        have hstage := h.waiting wait hwait call hcall
        have hbegun := (h.cleared call (.inl hstage)).1
        rwa [hold call (Nat.ne_of_lt hbegun)]
      alone := h.alone }

/-- The log of a session closes. -/
theorem BridgeSound.closeLog (log : Nat) :
    BridgeSound (b.setLog log (b.logs log).beginShutdown) := by
  obtain ⟨hsession, hclosed, -⟩ := beginShutdown_closed (b.logs log)
  exact h.setLog log (h.sound log).beginShutdown
    ⟨hsession, fun haccepting => absurd (hclosed.symm.trans haccepting) Bool.false_ne_true⟩

theorem BridgeSound.addWait
    (hstage : ∀ call, wait.call = some call → (b.calls call).stage = .shuttingDown)
    (hnowait : ∀ other ∈ b.waits, Apart other wait) :
    BridgeSound { b with waits := b.waits ++ [wait] } := by
  apply h.setWaits
  · intro other hother call hcall
    rcases mem_append.1 hother with hbefore | hnew
    · exact h.waiting other hbefore call hcall
    · rw [mem_singleton.1 hnew] at hcall
      exact hstage call hcall
  · refine pairwise_append.2 ⟨h.alone, pairwise_singleton _ _, ?_⟩
    intro other hother last hlast
    rw [mem_singleton.1 hlast]
    exact hnowait other hother

/-- Nobody enables while the log closes. -/
theorem BridgeSound.shutdownState (log : Nat) : BridgeSound (b.shutdownState log none) :=
  (h.closeLog log).addWait nofun fun _ _ _ _ hnone => by cases hnone

theorem BridgeSound.disable (sessionId : String) : BridgeSound (b.disable sessionId) := by
  have hnext := (h.nextGeneration sessionId).1
  unfold AutoLogBridge.disable
  dsimp only
  split
  · exact hnext.shutdownState _
  · exact hnext

theorem BridgeSound.afterShutdown (hcleared : Cleared b call)
    (hnowait : ∀ wait ∈ b.waits, wait.call ≠ some call) (hasSession : Bool) :
    BridgeSound (b.afterShutdown call hasSession) := by
  unfold AutoLogBridge.afterShutdown
  split
  · exact h.setCall .beginning (by simp) (.inr hcleared) hnowait
  · exact h.setCall .returned (by simp) (.inl rfl) hnowait

end

/-- While the worker of the log goes on, nobody is released. -/
theorem setLog_working (b : AutoLogBridge) (log : Nat) (hworker : state.worker ≠ .none) :
    b.setLog log state = { b with logs := update b.logs log state } := by
  unfold setLog
  exact if_neg hworker

section

variable (h : BridgeSound b)
include h

theorem BridgeSound.targetAnswered (hstage : (b.calls call).stage = .requestingTarget)
    (granted hasSession : Bool) : BridgeSound (b.targetAnswered call granted hasSession) := by
  have hbegun := h.begun call hstage
  have hnowait := h.not_waiting call (by simp [hstage])
  unfold AutoLogBridge.targetAnswered
  split
  · exact h.setCall .returned (by simp) (.inl rfl) hnowait
  · split
    · exact h.setCall .returned (by simp) (.inl rfl) hnowait
    · split
      · rename_i previous hprevious
        obtain ⟨-, hclosed, hworker⟩ := beginShutdown_closed (b.logs previous)
        have hupdate := setLog_working b previous hworker
        -- the previous log is closed before the call goes on
        have hcleared : Cleared (b.setLog previous (b.logs previous).beginShutdown) call := by
          rw [hupdate]
          refine ⟨hbegun, fun _ log hlog => ?_⟩
          have hsame : log = previous := some.inj (hlog.symm.trans hprevious)
          rw [hsame]
          exact (congrArg SessionAutoLogState.accepting (update_self ..)).trans hclosed
        have hclosing := (h.closeLog previous).setCall .shuttingDown (by simp)
          (.inr hcleared) (by rwa [hupdate])
        have hswap :
            (b.setLog previous (b.logs previous).beginShutdown).setCall call .shuttingDown =
              (b.setCall call .shuttingDown).setLog previous (b.logs previous).beginShutdown := by
          rw [hupdate, setLog_working _ previous hworker]
          rfl
        unfold AutoLogBridge.shutdownState
        refine addWait (hswap ▸ hclosing) ?_ ?_
        · intro c hc
          obtain rfl : call = c := some.inj hc
          change (((b.setCall call .shuttingDown).setLog previous
            (b.logs previous).beginShutdown).calls call).stage = .shuttingDown
          rw [← hswap, setCall_stage, if_pos rfl]
        · intro other hother c hc hnew
          obtain rfl : call = c := some.inj hnew
          change other ∈ ((b.setCall call .shuttingDown).setLog previous
            (b.logs previous).beginShutdown).waits at hother
          rw [setLog_working _ previous hworker] at hother
          exact hnowait other hother hc
      · rename_i hnone
        refine h.afterShutdown ⟨hbegun, fun _ log hlog => ?_⟩ hnowait hasSession
        rw [hnone] at hlog
        cases hlog

/-- A log is begun that nobody keeps. -/
theorem BridgeSound.addStale (hsound : Sound state) (hclosed : state.accepting = false) :
    BridgeSound { b with
      logs := update b.logs b.logCount state
      logCount := b.logCount + 1 } := by
  have hold : ∀ log < b.logCount, update b.logs b.logCount state log = b.logs log :=
    fun log hlog => update_of_ne (Nat.ne_of_lt hlog) ..
  have hcleared : ∀ call, Cleared b call → Cleared { b with
      logs := update b.logs b.logCount state
      logCount := b.logCount + 1 } call := by
    rintro call ⟨hbegun, hclear⟩
    refine ⟨hbegun, fun hcurrent log hlog => ?_⟩
    change (update b.logs b.logCount state log).accepting = false
    rw [hold log (h.mapped _ log hlog).1]
    exact hclear hcurrent log hlog
  exact
    { sound log := by
        change Sound (update b.logs b.logCount state log)
        by_cases hsame : log = b.logCount
        · rwa [hsame, update_self]
        · rw [update_of_ne hsame]
          exact h.sound log
      mapped sessionId log hlog := by
        obtain ⟨hbegun, hsession⟩ := h.mapped sessionId log hlog
        refine ⟨Nat.lt_succ_of_lt hbegun, ?_⟩
        change (update b.logs b.logCount state log).sessionId = sessionId
        rwa [hold log hbegun]
      one log hlog haccepting := by
        have hcases : log = b.logCount ∨ log < b.logCount := (Nat.lt_succ_iff_lt_or_eq.1 hlog).symm
        change b.sessionStates (update b.logs b.logCount state log).sessionId = some log
        change (update b.logs b.logCount state log).accepting = true at haccepting
        obtain rfl | hbefore := hcases
        · rw [update_self, hclosed] at haccepting
          cases haccepting
        · rw [hold log hbefore] at haccepting ⊢
          exact h.one log hbefore haccepting
      generation := h.generation
      distinct := h.distinct
      begun := h.begun
      cleared call hcall := hcleared call (h.cleared call hcall)
      waiting := h.waiting
      alone := h.alone }

/-- A log is begun for the current call of a session that has no other log that accepts. -/
theorem BridgeSound.addLog (hcleared : Cleared b call) (hstage : (b.calls call).stage = .returned)
    (hcurrent : b.isCurrentGeneration call = true) :
    BridgeSound { b with
      logs := update b.logs b.logCount { sessionId := (b.calls call).sessionId }
      logCount := b.logCount + 1
      sessionStates :=
        update b.sessionStates (b.calls call).sessionId (some b.logCount) } := by
  obtain ⟨hbegun, hclear⟩ := hcleared
  have hnone := hclear hcurrent
  have hcurrentGeneration : b.generations (b.calls call).sessionId = (b.calls call).generation :=
    beq_iff_eq.1 hcurrent
  have hold : ∀ log < b.logCount, update b.logs b.logCount
      { sessionId := (b.calls call).sessionId } log = b.logs log :=
    fun log hlog => update_of_ne (Nat.ne_of_lt hlog) ..
  exact
    { sound log := by
        change Sound (update b.logs b.logCount _ log)
        by_cases hsame : log = b.logCount
        · rw [hsame, update_self]
          exact sound_new _
        · rw [update_of_ne hsame]
          exact h.sound log
      mapped sessionId log hlog := by
        change update b.sessionStates (b.calls call).sessionId (some b.logCount)
          sessionId = some log at hlog
        change log < b.logCount + 1 ∧
          (update b.logs b.logCount _ log).sessionId = sessionId
        by_cases hsame : sessionId = (b.calls call).sessionId
        · rw [hsame, update_self] at hlog
          cases hlog
          rw [update_self]
          exact ⟨Nat.lt_succ_self _, hsame.symm⟩
        · rw [update_of_ne hsame] at hlog
          obtain ⟨hbefore, hsession⟩ := h.mapped sessionId log hlog
          rw [hold log hbefore]
          exact ⟨Nat.lt_succ_of_lt hbefore, hsession⟩
      one log hlog haccepting := by
        change update b.sessionStates (b.calls call).sessionId (some b.logCount)
          (update b.logs b.logCount _ log).sessionId = some log
        change (update b.logs b.logCount _ log).accepting = true at haccepting
        obtain hbefore | rfl := Nat.lt_succ_iff_lt_or_eq.1 hlog
        · rw [hold log hbefore] at haccepting ⊢
          have hone := h.one log hbefore haccepting
          have hother : (b.logs log).sessionId ≠ (b.calls call).sessionId := by
            intro hsame
            rw [hsame] at hone
            exact Bool.false_ne_true ((hnone log hone).symm.trans haccepting)
          rwa [update_of_ne hother]
        · rw [update_self, update_self]
      generation := h.generation
      distinct := h.distinct
      begun := h.begun
      cleared other hother := by
        obtain ⟨hbefore, hkept⟩ := h.cleared other hother
        refine ⟨hbefore, fun hothercurrent log hlog => ?_⟩
        have hanother : (b.calls other).sessionId ≠ (b.calls call).sessionId := by
          intro hsame
          have hgeneration : b.generations (b.calls other).sessionId =
              (b.calls other).generation := beq_iff_eq.1 hothercurrent
          rw [hsame, hcurrentGeneration] at hgeneration
          obtain rfl := h.distinct other hbefore call hbegun hsame hgeneration.symm
          simp [hstage] at hother
        have hlog' : b.sessionStates (b.calls other).sessionId = some log :=
          (update_of_ne hanother ..).symm.trans hlog
        change (update b.logs b.logCount _ log).accepting = false
        rw [hold log (h.mapped _ log hlog').1]
        exact hkept hothercurrent log hlog'
      waiting := h.waiting
      alone := h.alone }

theorem BridgeSound.beginAnswered (hstage : (b.calls call).stage = .beginning)
    (begun hasSession : Bool) : BridgeSound (b.beginAnswered call begun hasSession) := by
  have hcleared := h.cleared call (.inr (.inr hstage))
  have hreturned := h.setCall .returned (by simp) (.inl rfl)
    (h.not_waiting call (by simp [hstage]))
  unfold AutoLogBridge.beginAnswered
  dsimp only
  split
  · exact hreturned
  · split
    · exact hreturned.addStale (sound_stale _) rfl
    · rename_i hkept
      have hcurrent : b.isCurrentGeneration call = true := by
        by_contra hnot
        simp [hnot] at hkept
      obtain ⟨hsession, hgeneration⟩ := setCall_ids b call call .returned
      have hadded := hreturned.addLog (cleared_setCall.2 hcleared)
        (by rw [setCall_stage, if_pos rfl])
        (by
          unfold AutoLogBridge.isCurrentGeneration at hcurrent ⊢
          rwa [hsession, hgeneration])
      rwa [hsession] at hadded

theorem BridgeSound.appendFrame (sessionId : String) (frame : DataFrame) (autoLogEnabled : Bool) :
    BridgeSound (b.appendFrame sessionId frame autoLogEnabled) := by
  unfold AutoLogBridge.appendFrame
  split
  · exact h
  · rename_i log hlog
    split
    · exact h
    · rename_i hopen
      have haccepting : (b.logs log).accepting = true := by simpa using hopen
      split
      · exact h.shutdownState log
      · exact h.setLog log ((h.sound log).acceptFrame haccepting) (kept_acceptFrame _ frame)

theorem BridgeSound.drainTimesOut (wait : DrainWait) : BridgeSound (b.drainTimesOut wait) := by
  unfold AutoLogBridge.drainTimesOut
  split
  · rename_i hdue
    obtain ⟨hwait, hresting⟩ := hdue
    have hperm := perm_cons_erase hwait
    have halone := pairwise_cons.1 ((hperm.symm.pairwise_iff Apart.symm).2 h.alone)
    have hrest : BridgeSound { b with waits := b.waits.erase wait } :=
      h.setWaits (fun other hother => h.waiting other (mem_of_mem_erase hother)) halone.2
    have hkept : Kept (b.logs wait.log) (b.logs wait.log).drainTimeout := by
      obtain ⟨hsession, hclosed⟩ := drainTimeout_closed (b.logs wait.log)
      exact ⟨hsession, fun haccepting => absurd (hclosed.symm.trans haccepting) Bool.false_ne_true⟩
    have hset := hrest.setLog wait.log ((h.sound wait.log).drainTimeout hresting) hkept
    have hlog : (({ b with waits := b.waits.erase wait }.setLog wait.log
        (b.logs wait.log).drainTimeout).logs wait.log).accepting = false := by
      rw [setLog_logs, update_self]
      exact (drainTimeout_closed (b.logs wait.log)).2
    have hforgotten := hset.forget hlog
    unfold AutoLogBridge.release
    rw [foldl_cons, foldl_nil]
    cases hcall : wait.call with
    | none => exact hforgotten
    | some call =>
      have hstage := h.waiting wait hwait call hcall
      have hcleared : Cleared { b with waits := b.waits.erase wait } call :=
        hrest.cleared call (.inl hstage)
      have hset : Cleared ({ b with waits := b.waits.erase wait }.setLog wait.log
          (b.logs wait.log).drainTimeout) call := hcleared.setLog hkept
      apply hforgotten.setCall .shutDown (by simp) (.inr (hset.forget wait.log))
      intro other hother
      rw [forget_rest] at hother
      exact halone.1 other (setLog_waits hother) call hcall
  · exact h

/-- Each event keeps the invariant. -/
theorem BridgeSound.step (e : AutoLogEvent) : BridgeSound (step b e) := by
  cases e with
  | enable sessionId => exact h.enable sessionId
  | targetAnswered call granted hasSession =>
    simp only [bbcom.auto_log.step]
    split
    · rename_i hstage
      exact h.targetAnswered hstage granted hasSession
    · exact h
  | shutdownReturned call hasSession =>
    simp only [bbcom.auto_log.step]
    split
    · rename_i hstage
      exact h.afterShutdown (h.cleared call (.inr (.inl hstage)))
        (h.not_waiting call (by simp [hstage])) hasSession
    · exact h
  | beginAnswered call begun hasSession =>
    simp only [bbcom.auto_log.step]
    split
    · rename_i hstage
      exact h.beginAnswered hstage begun hasSession
    · exact h
  | disable sessionId => exact h.disable sessionId
  | prepareShutdown sessionId => exact h.disable sessionId
  | appendFrame sessionId frame autoLogEnabled =>
    exact h.appendFrame sessionId frame autoLogEnabled
  | inLog log event =>
    have hsound := (h.sound log).logStep event
    have hkept := kept_logStep (b.logs log) event
    simp only [bbcom.auto_log.step]
    split
    · rename_i hsettles
      have hclosed : (b.logs log).accepting = false := by
        apply eq_false_of_ne_true
        intro haccepting
        have hnone := (h.sound log).accepting_terminal haccepting
        rw [hsettles.2] at hnone
        cases hnone
      have hforgotten := h.forget hclosed
      apply hforgotten.setLog log hsound
      rwa [forget_rest]
    · exact h.setLog log hsound hkept
  | drainTimesOut wait => exact h.drainTimesOut wait

end

/-! ## Runs -/

/-- What a log has got, and what it keeps. -/
structure LogDelivered (s : SessionAutoLogState) : Prop where
  /-- The batches and the terminal come as the law says. -/
  lawful : Lawful Allowed s.history
  /-- In order, and each frame once. -/
  submitted : appendedOf s.history <+: acceptedOf s.history
  /-- What is queued and what the worker is busy with. -/
  bytes : s.outstandingBytes = framesByteLength s.queue + framesByteLength s.worker.batch
  entries : s.outstandingEntries = s.queue.length + s.worker.batch.length
  limits : s.outstandingBytes ≤ AUTO_LOG_MAX_QUEUED_BYTES ∧
    s.outstandingEntries ≤ AUTO_LOG_MAX_QUEUED_ENTRIES
  /-- A log that accepts has had no terminal. -/
  unended : s.accepting = true → ¬Ended s.history
  /-- A closed log comes to its end: it goes on only so often, and then it has had its terminal. -/
  nearer : s.accepting = false → ∀ event, logStep s event = s ∨ (logStep s event).left < s.left
  ended : s.accepting = false → (∀ event, logStep s event = s) → Ended s.history

theorem Sound.logDelivered (h : Sound s) : LogDelivered s where
  lawful := h.lawful
  submitted := by
    obtain ⟨dropped, hframes, -⟩ := h.frames
    rw [hframes, append_assoc, append_assoc]
    exact prefix_append _ _
  bytes := h.bytes
  entries := h.entries
  limits := ⟨h.bytesMax, h.entriesMax⟩
  unended haccepting := h.not_ended (h.accepting_terminal haccepting)
  nearer := logStep_left h
  ended := ended_of_still h

structure Delivered (s : AutoLogBridge) : Prop where
  logs : ∀ log < s.logCount, LogDelivered (s.logs log)
  /-- A session has at most one log that accepts. -/
  one : ∀ log < s.logCount, ∀ other < s.logCount,
    (s.logs log).sessionId = (s.logs other).sessionId → (s.logs log).accepting = true →
    (s.logs other).accepting = true → log = other

theorem BridgeSound.delivered (h : BridgeSound b) : Delivered b where
  logs log _ := (h.sound log).logDelivered
  one log hlog other hother hsession haccepting haccepting' := by
    have hfirst := h.one log hlog haccepting
    rw [hsession, h.one other hother haccepting'] at hfirst
    exact (some.inj hfirst).symm

/-- Whatever happens to the auto-log of any sessions, in any order: each log gets a prefix of its
frames in lawful batches and one terminal, its counters are right and within the limits, and a
session has at most one log that accepts. -/
theorem auto_log_is_delivered (events : List AutoLogEvent) : Delivered (run step {} events) := by
  have hstep : ∀ b e, BridgeSound b → BridgeSound (step b e) := fun b e h => h.step e
  exact (run_invariant hstep bridge_sound_new events).delivered

end bbcom.auto_log
