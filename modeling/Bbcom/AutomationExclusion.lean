-- Runs of the automation of a session: while a pause is in force, neither the macro nor the
-- triggers send.
import Bbcom.AutomationPause

open bbcom.runs

namespace bbcom.automation

open List TriggersBridge

/-! ## Pauses in a history -/

variable {past : List Happening}

@[simp] theorem held_pauseResolved : Held (.pauseResolved :: past) := trivial

@[simp] theorem not_held_resumed : ¬Held (.resumed :: past) := id

@[simp] theorem inFlight_pauseResolved :
    InFlight (.pauseResolved :: past) ↔ InFlight past := .rfl

/-- Some calls of `pause` are fulfilled at once. -/
theorem held_resolved (n : Nat) :
    Held (List.replicate n .pauseResolved ++ past) ↔ 0 < n ∨ Held past := by
  cases n with
  | zero => simp
  | succ n => simp [replicate_succ]

theorem inFlight_resolved (n : Nat) :
    InFlight (List.replicate n .pauseResolved ++ past) ↔ InFlight past := by
  induction n with
  | zero => simp
  | succ n ih => simpa [replicate_succ] using ih

theorem exclusive_resolved (h : Exclusive past) (hidle : ¬InFlight past) (n : Nat) :
    Exclusive (List.replicate n .pauseResolved ++ past) := by
  induction n with
  | zero => simpa using h
  | succ n ih =>
    rw [replicate_succ, cons_append]
    exact ⟨(inFlight_resolved n).not.2 hidle, ih⟩

/-! ## The macro runner -/

/-- What the pauses of the macro runner leave open: an abort under a pause, a pause between the
check of a step and its send, a pause that is cancelled while another one stands, and a `resume`
before a pause is fulfilled. -/
def MacroGuarded (s : MacroRunnerBridge) : MacroEvent → Prop
  | .abort => s.aborted = true ∨ s.paused = false
  | .pause _ true => s.paused = false
  | .pause _ false => s.aborted = true ∨ ∀ steps, s.stage ≠ .checked steps
  | .pauseAborted call => call ∈ s.pauseWaiters → s.pauseWaiters = [call]
  | .resume => s.pauseWaiters = []
  | _ => True

def RunStage.inSend : RunStage → Bool
  | sending _ | sent _ _ => true
  | _ => false

structure MacroInv (s : MacroRunnerBridge) : Prop where
  exclusive : Exclusive s.log
  inFlight : InFlight s.log → ∃ steps, s.stage = .sending steps
  flag : s.sendInFlight = s.stage.inSend
  paused : s.paused = true ↔ Held s.log ∨ s.pauseWaiters ≠ []
  waiters : s.pauseWaiters ≠ [] → s.stage.inSend = true
  held : Held s.log → s.stage.inSend = false ∧
    ∀ steps, s.stage = .checked steps → s.aborted = true
  running : s.stage ≠ .idle → s.running = true

variable {s : MacroRunnerBridge}

theorem macroInv_start : MacroInv {} where
  exclusive := trivial
  inFlight := False.elim
  flag := rfl
  paused := by simp [Held]
  waiters h := absurd rfl h
  held := False.elim
  running h := absurd rfl h

section

variable (h : MacroInv s) (hidle : s.stage.inSend = false)
include h hidle

theorem MacroInv.not_inFlight : ¬InFlight s.log := by
  intro hflight
  obtain ⟨steps, hstage⟩ := h.inFlight hflight
  rw [hstage] at hidle
  cases hidle

theorem MacroInv.no_waiters : s.pauseWaiters = [] := by
  by_contra hwaiters
  exact absurd ((h.waiters hwaiters).symm.trans hidle) nofun

/-- The run goes on to a stage outside of its sends. -/
theorem MacroInv.moves {stage : RunStage} (hstage : stage.inSend = false)
    (hchecked : ∀ steps, stage = .checked steps → Held s.log → s.aborted = true)
    (hrunning : stage ≠ .idle → s.running = true) : MacroInv { s with stage := stage } := by
  refine ⟨h.exclusive, fun hflight => absurd hflight (h.not_inFlight hidle), ?_, h.paused,
    fun hwaiters => absurd (h.no_waiters hidle) hwaiters, fun hheld => ⟨hstage, ?_⟩, hrunning⟩
  · exact h.flag.trans (hidle.trans hstage.symm)
  · exact fun steps heq => hchecked steps heq hheld

theorem MacroInv.finish : MacroInv s.finish := by
  have hmoved : MacroInv { s with stage := .idle } :=
    h.moves hidle rfl nofun fun hne => absurd rfl hne
  exact { hmoved with running := fun hne => absurd rfl hne }

theorem MacroInv.nextStep (hrunning : s.running = true) (steps : List MacroStep) :
    MacroInv (s.nextStep steps) := by
  unfold MacroRunnerBridge.nextStep
  split
  · exact h.finish hidle
  · split
    · rename_i hpass
      refine h.moves hidle rfl (fun _ _ hheld => ?_) fun _ => hrunning
      -- under a pause only an aborted run passes the check
      have hpaused := h.paused.2 (.inl hheld)
      simpa [hpaused] using hpass
    · exact h.moves hidle rfl nofun fun _ => hrunning

end

section

variable (h : MacroInv s)
include h

theorem MacroInv.run (steps : List MacroStep) : MacroInv (s.start steps) := by
  unfold MacroRunnerBridge.start
  split
  · exact h
  · rename_i hnot
    have hstage : s.stage = .idle := by
      by_contra hne
      exact hnot (h.running hne)
    have hidle : s.stage.inSend = false := by rw [hstage]; rfl
    have hfresh : MacroInv { s with aborted := false, running := true } := by
      refine ⟨h.exclusive, h.inFlight, h.flag, h.paused, h.waiters,
        fun hheld => ⟨hidle, fun steps heq => ?_⟩, fun _ => rfl⟩
      exact absurd (hstage.symm.trans heq) nofun
    exact hfresh.nextStep hidle rfl steps

theorem MacroInv.resolveResumeWaiters (hnot : ¬Held s.log) : MacroInv s.resolveResumeWaiters := by
  unfold MacroRunnerBridge.resolveResumeWaiters
  split
  · rename_i hstage
    have hidle : s.stage.inSend = false := by rw [hstage]; rfl
    refine h.moves hidle rfl (fun _ _ hheld => absurd hheld hnot) fun _ => h.running ?_
    rw [hstage]
    exact nofun
  · exact h

theorem MacroInv.abort (hguarded : MacroGuarded s .abort) : MacroInv s.abort := by
  unfold MacroRunnerBridge.abort
  split
  · exact h
  · rename_i hlive
    have hpaused : s.paused = false := hguarded.resolve_left hlive
    have hnot : ¬Held s.log := by
      intro hheld
      exact absurd ((h.paused.2 (.inl hheld)).symm.trans hpaused) nofun
    have haborted : MacroInv { s with aborted := true, paused := false } := by
      refine ⟨h.exclusive, h.inFlight, h.flag, ?_, h.waiters, fun hheld => absurd hheld hnot,
        h.running⟩
      rw [← h.paused, hpaused]
    have hresolved := haborted.resolveResumeWaiters hnot
    have hlog : { s with aborted := true, paused := false }.resolveResumeWaiters.log = s.log := by
      unfold MacroRunnerBridge.resolveResumeWaiters
      split <;> rfl
    dsimp only
    rw [← hlog] at hnot
    generalize { s with aborted := true, paused := false }.resolveResumeWaiters = s₁
      at hresolved hnot ⊢
    split
    · rename_i hstage
      have hidle : s₁.stage.inSend = false := by rw [hstage]; rfl
      refine hresolved.moves hidle rfl nofun fun _ => hresolved.running ?_
      rw [hstage]
      exact nofun
    · exact hresolved

theorem MacroInv.pause {call : Nat} {signalAborted : Bool}
    (hguarded : MacroGuarded s (.pause call signalAborted)) :
    MacroInv (s.pause call signalAborted) := by
  unfold MacroRunnerBridge.pause
  cases signalAborted with
  | true =>
    have hpaused : s.paused = false := hguarded
    simp only [↓reduceIte]
    refine ⟨h.exclusive, h.inFlight, h.flag, ?_, h.waiters, h.held, h.running⟩
    rw [← h.paused, hpaused]
  | false =>
    simp only [Bool.false_eq_true, ↓reduceIte]
    split
    · rename_i hidle
      have hidle' : s.stage.inSend = false := by simpa [h.flag] using hidle
      refine ⟨⟨h.not_inFlight hidle', h.exclusive⟩, h.inFlight, h.flag,
        iff_of_true rfl (.inl trivial), h.waiters, fun _ => ⟨hidle', fun steps hstage => ?_⟩,
        h.running⟩
      exact hguarded.resolve_right fun hnot => hnot steps hstage
    · rename_i hbusy
      have hbusy' : s.stage.inSend = true := by simpa [h.flag] using hbusy
      exact ⟨h.exclusive, h.inFlight, h.flag, by simp, fun _ => hbusy', h.held, h.running⟩

theorem MacroInv.pauseAborted {call : Nat} (hguarded : MacroGuarded s (.pauseAborted call)) :
    MacroInv (s.pauseAborted call) := by
  unfold MacroRunnerBridge.pauseAborted
  split
  · rename_i hmem
    have honly : s.pauseWaiters = [call] := hguarded hmem
    have hbusy := h.waiters (ne_nil_of_mem hmem)
    have hnot : ¬Held s.log := by
      intro hheld
      exact absurd ((h.held hheld).1.symm.trans hbusy) nofun
    refine ⟨h.exclusive, h.inFlight, h.flag, ?_, fun _ => hbusy, h.held, h.running⟩
    simp [honly, hnot]
  · exact h

theorem MacroInv.resume (hguarded : MacroGuarded s .resume) : MacroInv s.resume := by
  have hnone : s.pauseWaiters = [] := hguarded
  have hresumed : MacroInv { s.record .resumed with paused := false } := by
    refine ⟨⟨trivial, h.exclusive⟩, h.inFlight, h.flag, ?_, h.waiters, False.elim, h.running⟩
    simp [MacroRunnerBridge.record, hnone]
  unfold MacroRunnerBridge.resume
  dsimp only
  split
  · rename_i hidle
    have hpaused : (s.record .resumed).paused = false := by simpa using hidle
    have hsame : { s.record .resumed with paused := false } = s.record .resumed := by
      rw [← hpaused]
    rwa [hsame] at hresumed
  · exact hresumed.resolveResumeWaiters id

variable {steps : List MacroStep}

theorem MacroInv.sendStep (hstage : s.stage = .checked steps) :
    MacroInv (s.sendStep steps) := by
  have hidle : s.stage.inSend = false := by rw [hstage]; rfl
  unfold MacroRunnerBridge.sendStep
  split
  · exact h.finish hidle
  · rename_i step rest
    split
    · exact h.finish hidle
    · rename_i hlive
      have hnot : ¬Held s.log := fun hheld => hlive ((h.held hheld).2 _ hstage)
      refine ⟨⟨hnot, h.exclusive⟩, fun _ => ⟨_, rfl⟩, rfl, h.paused, fun _ => rfl,
        fun hheld => absurd hheld hnot, fun _ => h.running ?_⟩
      rw [hstage]
      exact nofun

theorem MacroInv.afterSend {outcome : SendOutcome} (hstage : s.stage = .sent steps outcome) :
    MacroInv (s.afterSend steps outcome) := by
  have hbusy : s.stage.inSend = true := by rw [hstage]; rfl
  have hnotFlight : ¬InFlight s.log := by
    intro hflight
    obtain ⟨steps', hsending⟩ := h.inFlight hflight
    exact absurd (hstage.symm.trans hsending) nofun
  have hnot : ¬Held s.log := by
    intro hheld
    exact absurd ((h.held hheld).1.symm.trans hbusy) nofun
  have hrunning : s.running = true := by
    apply h.running
    rw [hstage]
    exact nofun
  -- the flag and the waiters go before the stage does
  have hgoes : ∀ stage : RunStage, stage.inSend = false → (∀ steps, stage ≠ .checked steps) →
      MacroInv { { s with sendInFlight := false }.resolvePauseWaiters with stage := stage } := by
    intro stage hidle hchecked
    refine ⟨exclusive_resolved h.exclusive hnotFlight _, fun hflight => ?_, hidle.symm, ?_,
      fun hwaiters => absurd rfl hwaiters, fun _ => ⟨hidle, fun steps heq => ?_⟩,
      fun _ => hrunning⟩
    · exact absurd ((inFlight_resolved _).1 hflight) hnotFlight
    · change s.paused = true ↔ Held (List.replicate s.pauseWaiters.length _ ++ s.log) ∨ [] ≠ []
      rw [held_resolved, h.paused, length_pos_iff_ne_nil]
      simp [hnot]
    · exact absurd heq (hchecked steps)
  have hfinish : MacroInv { s with sendInFlight := false }.resolvePauseWaiters.finish :=
    { hgoes .idle rfl nofun with running hne := absurd rfl hne }
  unfold MacroRunnerBridge.afterSend
  dsimp only
  split
  · split
    · exact hfinish
    · split
      · exact hfinish
      · split
        · exact hgoes _ rfl nofun
        · exact hgoes _ rfl nofun
  · exact hfinish

theorem macroInv_step (event : MacroEvent) (hguarded : MacroGuarded s event) :
    MacroInv (macroStep s event) := by
  cases event with
  | run steps => exact h.run steps
  | abort => exact h.abort hguarded
  | pause call signalAborted => exact h.pause hguarded
  | pauseAborted call => exact h.pauseAborted hguarded
  | resume => exact h.resume hguarded
  | sendSettles outcome =>
    unfold macroStep
    dsimp only
    split
    · rename_i steps hstage
      have hbusy : s.stage.inSend = true := by rw [hstage]; rfl
      refine ⟨⟨trivial, h.exclusive⟩, False.elim, h.flag.trans hbusy, h.paused, fun _ => rfl,
        fun hheld => ?_, fun _ => h.running ?_⟩
      · exact absurd ((h.held hheld).1.symm.trans hbusy) nofun
      · rw [hstage]
        exact nofun
    · exact h
  | delayTimer =>
    unfold macroStep
    dsimp only
    split
    · rename_i hstage
      have hidle : s.stage.inSend = false := by rw [hstage]; rfl
      refine h.moves hidle rfl nofun fun _ => h.running ?_
      rw [hstage]
      exact nofun
    · exact h
  | goOn =>
    unfold macroStep
    dsimp only
    split
    · rename_i hstage
      exact h.sendStep hstage
    · rename_i hstage
      exact h.afterSend hstage
    · rename_i hstage
      have hidle : s.stage.inSend = false := by rw [hstage]; rfl
      refine h.nextStep hidle (h.running ?_) _
      rw [hstage]
      exact nofun
    · exact h

end

/-! ## The triggers -/

/-- What the pauses of the triggers leave open: a pause that is cancelled while another one stands,
and a `resume` before a pause is fulfilled. -/
def TriggerGuarded (s : TriggersBridge) : TriggerEvent → Prop
  | .pause _ true => s.paused = false
  | .pauseAborted call =>
    ∀ pause ∈ s.pauses, pause.1 = call → ¬Held s.log ∧ s.pauses = [pause]
  | .resume => s.pauses = []
  | _ => True

def TriggersBridge.running (s : TriggersBridge) : Nat := if s.current.isSome then 1 else 0

structure TriggerInv (s : TriggersBridge) : Prop where
  exclusive : Exclusive s.log
  inFlight : InFlight s.log → ∃ rest, s.current = some ⟨rest, none⟩
  paused : s.paused = true ↔ Held s.log ∨ s.pauses ≠ []
  counted : s.ended + s.running + s.queued.length = s.operations
  held : Held s.log → s.ended = s.operations
  pauses : ∀ pause ∈ s.pauses, pause.2 = s.operations

variable {b : TriggersBridge}

theorem triggerInv_start : TriggerInv {} where
  exclusive := trivial
  inFlight := False.elim
  paused := by simp [Held]
  counted := rfl
  held := False.elim
  pauses := nofun

/-- All operations are over: none runs, and none is queued. -/
theorem TriggerInv.none_left (h : TriggerInv b) (hended : b.ended = b.operations) :
    b.current = none ∧ b.queued = [] := by
  have hcounted := h.counted
  rw [hended] at hcounted
  constructor
  · cases hcurrent : b.current with
    | none => rfl
    | some operation =>
      have hrunning : b.running = 1 := by simp [running, hcurrent]
      omega
  · apply eq_nil_of_length_eq_zero
    omega

theorem TriggerInv.not_paused (h : TriggerInv b) (hpaused : b.paused = false) :
    ¬Held b.log ∧ b.pauses = [] := by
  have hnot := h.paused.not.1 (by simp [hpaused])
  push Not at hnot
  exact hnot

variable {operation : OpenOperation}

/-- The open operation ends. -/
theorem TriggerInv.ends (h : TriggerInv b) (hcurrent : b.current = some operation)
    (hidle : ¬InFlight b.log) :
    TriggerInv { b with current := none, ended := b.ended + 1 } := by
  have hcounted := h.counted
  have hrunning : b.running = 1 := by simp [running, hcurrent]
  refine ⟨h.exclusive, fun hflight => absurd hflight hidle, h.paused, ?_, fun hheld => ?_, h.pauses⟩
  · change b.ended + 1 + 0 + b.queued.length = b.operations
    omega
  · have hnone := (h.none_left (h.held hheld)).1
    exact absurd (hcurrent.symm.trans hnone) nofun

/-- An operation that is open and has no send in flight goes on with its fires. -/
theorem TriggerInv.sendFires (h : TriggerInv b) (hcurrent : b.current = some operation)
    (hidle : ¬InFlight b.log) (fires : List TriggerFire) : TriggerInv (b.sendFires fires) := by
  unfold TriggersBridge.sendFires
  split
  · exact h.ends hcurrent hidle
  · split
    · exact h.ends hcurrent hidle
    · rename_i hlive
      have hnot := (h.not_paused (by simpa using hlive)).1
      refine ⟨⟨hnot, h.exclusive⟩, fun _ => ⟨_, rfl⟩, h.paused, ?_, fun hheld => absurd hheld hnot,
        h.pauses⟩
      have hcounted := h.counted
      rw [TriggersBridge.running, hcurrent] at hcounted
      exact hcounted

theorem sendFires_current (queued : List (List TriggerFire)) (operation : Option OpenOperation)
    (fires : List TriggerFire) :
    { b with queued := queued, current := operation }.sendFires fires =
      { b with queued := queued }.sendFires fires := by
  unfold sendFires
  cases fires <;> rfl

section

variable (h : TriggerInv b)
include h

theorem TriggerInv.begin (hcurrent : b.current = none) {fires : List TriggerFire}
    {queued : List (List TriggerFire)} (hqueued : b.queued = fires :: queued) :
    TriggerInv ({ b with queued := queued }.sendFires fires) := by
  have hidle : ¬InFlight b.log := by
    intro hflight
    obtain ⟨rest, hsome⟩ := h.inFlight hflight
    exact absurd (hcurrent.symm.trans hsome) nofun
  have hopen : TriggerInv { b with queued := queued, current := some ⟨[], some .threw⟩ } := by
    refine ⟨h.exclusive, fun hflight => absurd hflight hidle, h.paused, ?_, h.held, h.pauses⟩
    have hcounted := h.counted
    rw [running, hcurrent, hqueued, length_cons] at hcounted
    change b.ended + 1 + queued.length = b.operations
    simp only [Option.isSome_none, Bool.false_eq_true, ↓reduceIte] at hcounted
    omega
  have hsends := hopen.sendFires rfl hidle fires
  rwa [sendFires_current] at hsends

theorem TriggerInv.feedBytes (fires : List TriggerFire) : TriggerInv (b.feedBytes fires) := by
  unfold TriggersBridge.feedBytes
  split
  · exact h
  · rename_i hlive
    split
    · exact h
    · obtain ⟨hnot, hnone⟩ := h.not_paused (by simpa using hlive)
      refine ⟨h.exclusive, h.inFlight, h.paused, ?_, fun hheld => absurd hheld hnot, ?_⟩
      · have hcounted := h.counted
        change b.ended + b.running + (b.queued ++ [fires]).length = b.operations + 1
        rw [length_append, length_singleton]
        omega
      · change ∀ pause ∈ b.pauses, _
        rw [hnone]
        exact nofun

theorem TriggerInv.pause (call : Nat) {signalAborted : Bool}
    (hguarded : TriggerGuarded b (.pause call signalAborted)) :
    TriggerInv (b.pause call signalAborted) := by
  unfold TriggersBridge.pause
  cases signalAborted with
  | true =>
    have hpaused : b.paused = false := hguarded
    simp only [↓reduceIte]
    refine ⟨h.exclusive, h.inFlight, ?_, h.counted, h.held, h.pauses⟩
    rw [← h.paused, hpaused]
  | false =>
    simp only [Bool.false_eq_true, ↓reduceIte]
    refine ⟨h.exclusive, h.inFlight, by simp, h.counted, h.held, fun pause hpause => ?_⟩
    rcases mem_cons.1 hpause with rfl | hmem
    · rfl
    · exact h.pauses pause hmem

theorem TriggerInv.pauseAborted {call : Nat} (hguarded : TriggerGuarded b (.pauseAborted call)) :
    TriggerInv (b.pauseAborted call) := by
  unfold TriggersBridge.pauseAborted
  split
  · rename_i hany
    obtain ⟨pause, hmem, hcall⟩ := any_eq_true.1 hany
    obtain ⟨hnot, honly⟩ := hguarded pause hmem (by simpa using hcall)
    have hnone : b.pauses.eraseP (·.1 = call) = [] := by
      rw [honly]
      exact eraseP_cons_of_pos hcall
    refine ⟨h.exclusive, h.inFlight, ?_, h.counted, h.held, ?_⟩
    · simp [hnone, hnot]
    · rw [hnone]
      exact nofun
  · exact h

theorem TriggerInv.pauseResolves (call : Nat) : TriggerInv (b.pauseResolves call) := by
  unfold TriggersBridge.pauseResolves
  split
  · rename_i hany
    obtain ⟨pause, hmem, hcall⟩ := any_eq_true.1 hany
    have hended : b.ended = b.operations := by
      have hcounted := h.counted
      have htail := h.pauses pause hmem
      simp only [decide_eq_true_eq] at hcall
      omega
    have hidle : ¬InFlight b.log := by
      intro hflight
      obtain ⟨rest, hsome⟩ := h.inFlight hflight
      exact absurd ((h.none_left hended).1.symm.trans hsome) nofun
    refine ⟨⟨hidle, h.exclusive⟩, h.inFlight, ?_, h.counted, fun _ => hended, fun p hp => ?_⟩
    · exact iff_of_true (h.paused.2 (.inr (ne_nil_of_mem hmem))) (.inl trivial)
    · exact h.pauses p (mem_of_mem_eraseP hp)
  · exact h

theorem triggerInv_step (event : TriggerEvent) (hguarded : TriggerGuarded b event) :
    TriggerInv (triggerStep b event) := by
  cases event with
  | feedBytes fires => exact h.feedBytes fires
  | pause call signalAborted => exact h.pause call hguarded
  | pauseAborted call => exact h.pauseAborted hguarded
  | pauseResolves call => exact h.pauseResolves call
  | resume =>
    have hnone : b.pauses = [] := hguarded
    refine ⟨⟨trivial, h.exclusive⟩, h.inFlight, ?_, h.counted, False.elim, h.pauses⟩
    change false = true ↔ False ∨ b.pauses ≠ []
    simp [hnone]
  | begin =>
    unfold triggerStep
    dsimp only
    split
    · rename_i hcurrent hqueued
      exact h.begin hcurrent hqueued
    · exact h
  | sendSettles outcome =>
    unfold triggerStep
    dsimp only
    split
    · rename_i rest hcurrent
      refine ⟨⟨trivial, h.exclusive⟩, False.elim, h.paused, ?_, h.held, h.pauses⟩
      have hcounted := h.counted
      rw [running, hcurrent] at hcounted
      exact hcounted
    · exact h
  | goOn =>
    have hidle : ∀ rest outcome, b.current = some ⟨rest, some outcome⟩ → ¬InFlight b.log := by
      intro rest outcome hcurrent hflight
      obtain ⟨rest', hsome⟩ := h.inFlight hflight
      exact absurd (hcurrent.symm.trans hsome) nofun
    unfold triggerStep
    dsimp only
    split
    · rename_i hcurrent
      exact h.sendFires hcurrent (hidle _ _ hcurrent) _
    · rename_i hcurrent
      exact h.ends hcurrent (hidle _ _ hcurrent)
    · exact h

end

/-! ## Runs -/

/-- In every run of the macro runner and of the triggers whose steps keep to what the pauses
cover, a pause excludes every send from its fulfilment to the next `resume`. -/
theorem pause_is_exclusive (macroEvents : List MacroEvent) (triggerEvents : List TriggerEvent)
    (hruns : Along macroStep MacroGuarded {} macroEvents)
    (htrigger : Along triggerStep TriggerGuarded {} triggerEvents) :
    Exclusive (run macroStep {} macroEvents).log ∧
      Exclusive (run triggerStep {} triggerEvents).log := by
  constructor
  · have hstep : ∀ s event, MacroGuarded s event → MacroInv s → MacroInv (macroStep s event) :=
      fun _ event hguarded h => macroInv_step h event hguarded
    exact (run_invariant_along hstep macroInv_start hruns).exclusive
  · have hstep : ∀ b event, TriggerGuarded b event → TriggerInv b →
        TriggerInv (triggerStep b event) :=
      fun _ event hguarded h => triggerInv_step h event hguarded
    exact (run_invariant_along hstep triggerInv_start htrigger).exclusive

theorem pause_excludes_the_next_sends :
    Exclusive (run macroStep {} [.run [⟨"AT", false, some 0⟩, ⟨"ATI", false, none⟩], .goOn,
      .pause 0 false, .sendSettles (.sent true), .goOn, .goOn, .resume, .goOn]).log ∧
    Exclusive (run triggerStep {} [.feedBytes [⟨"OK", false⟩, ⟨"AT", false⟩], .begin,
      .pause 0 false, .sendSettles (.sent true), .goOn, .pauseResolves 0,
      .feedBytes [⟨"OK", false⟩], .resume]).log := by
  apply pause_is_exclusive
  · refine ⟨trivial, trivial, .inr nofun, trivial, trivial, trivial, rfl, trivial, trivial⟩
  · refine ⟨trivial, trivial, trivial, trivial, trivial, trivial, trivial, rfl, trivial⟩

/-- A macro is run and paused in one breath: the pause is fulfilled, and the first step is sent. -/
theorem a_checked_step_is_sent_under_a_pause :
    ¬∀ events, Exclusive (run macroStep {} events).log := by
  intro hall
  have hexclusive := hall [.run [⟨"AT", false, some 0⟩], .pause 0 false, .goOn]
  exact hexclusive.1 trivial

end bbcom.automation
