-- Who owns the activation of a workspace (`activation-coordinator.ts`): what a step of an attempt
-- leaves of its own abort, of the other attempts and of the facade.
import Bbcom.WorkspaceActivation

namespace bbcom.workspace_activation

open State Function Happening

/-! ## What an attempt may do -/

/-- Says nothing of who owns the activation. -/
def Happening.neutral : Happening → Bool
  | began _ | ended _ | revoked _ | committing _ | facadeReplaced _ _ | workspaceDeleted _ => false
  | _ => true

def Stage.running : Stage → Bool
  | waiting | settled => false
  | _ => true

/-- The latest attempt is the one with the latest generation. -/
def State.LatestIsNewest (s : State) : Prop := ∀ g, s.attempt = some g → g = s.generation

/-- The attempt works on the runtimes; what it shares with the other attempts stays. -/
structure Works (g : Nat) (s s' : State) : Prop where
  generation : s'.generation = s.generation
  attempt : s'.attempt = s.attempt
  switching : s'.switching = s.switching
  facade : s'.facade = s.facade
  stages : s'.stages = s.stages
  others : ∀ other, other ≠ g → s'.attempts other = s.attempts other
  aborted : (s'.attempts g).aborted = (s.attempts g).aborted
  phase : (s.attempts g).phase.decided = false → (s'.attempts g).phase.decided = false
  hydrating : s'.hydrating = s.hydrating ∨ (s.attempts g).aborted = false
  log : ∃ happened, s'.log = happened ++ s.log ∧ ∀ h ∈ happened, h.neutral

/-- The attempt goes on to another await. -/
structure Continues (g : Nat) (s s' : State) : Prop where
  before : ∃ s₁ stage, Works g s s₁ ∧ stage.running ∧ s' = s₁.goTo g stage

/-- The attempt ends without a commit. -/
structure Ends (g : Nat) (s s' : State) : Prop where
  generation : s'.generation = s.generation
  attempt : s'.attempt = if s.attempt = some g then none else s.attempt
  flags : s.attempt = some g → s'.switching = false ∧ s'.hydrating = false
  facade : s'.facade = s.facade
  stages : s'.stages = update s.stages g .settled
  others : ∀ other, other ≠ g → (s'.attempts other).phase = (s.attempts other).phase ∧
    ((s.attempts other).aborted → (s'.attempts other).aborted)
  aborted : (s'.attempts g).aborted = (s.attempts g).aborted
  log : ∃ happened, s'.log = .ended g :: happened ++ s.log ∧ ∀ h ∈ happened, h.neutral

/-- The attempt commits `workspaceId` and ends. -/
structure Commits (g : Nat) (workspaceId : Option String) (s s' : State) : Prop where
  generation : s'.generation = s.generation
  attempt : s'.attempt = if s.attempt = some g then none else s.attempt
  flags : s.attempt = some g → s'.switching = false ∧ s'.hydrating = false
  facade : s'.facade = workspaceId
  stages : s'.stages = update s.stages g .settled
  others : ∀ other, other ≠ g → s'.attempts other = s.attempts other
  aborted : (s'.attempts g).aborted = (s.attempts g).aborted
  phase : (s'.attempts g).phase = .terminal
  log : ∃ happened deleted,
    s'.log = .ended g :: happened ++ .facadeReplaced g workspaceId :: .committing g ::
      deleted ++ s.log ∧
    (∀ h ∈ happened, h.neutral) ∧ ∀ h ∈ deleted, h.neutral ∨ h = .workspaceDeleted g

theorem Works.refl (g : Nat) (s : State) : Works g s s :=
  ⟨rfl, rfl, rfl, rfl, rfl, fun _ _ => rfl, rfl, id, .inl rfl, [], rfl, nofun⟩

theorem Works.trans {g : Nat} {s s₁ s' : State} (h : Works g s s₁) (h' : Works g s₁ s') :
    Works g s s' := by
  obtain ⟨happened, hlog, hof⟩ := h.log
  obtain ⟨happened', hlog', hof'⟩ := h'.log
  refine ⟨h'.generation.trans h.generation, h'.attempt.trans h.attempt,
    h'.switching.trans h.switching, h'.facade.trans h.facade, h'.stages.trans h.stages,
    fun other hne => (h'.others other hne).trans (h.others other hne), h'.aborted.trans h.aborted,
    fun hphase => h'.phase (h.phase hphase), ?_, happened' ++ happened, ?_, ?_⟩
  · rcases h'.hydrating with heq | hnot
    · rcases h.hydrating with heq' | hnot
      · exact .inl (heq.trans heq')
      · exact .inr hnot
    · exact .inr (h.aborted ▸ hnot)
  · rw [hlog', hlog, List.append_assoc]
  · intro e he
    rcases List.mem_append.1 he with he | he
    · exact hof' e he
    · exact hof e he

section Writes

variable (g : Nat) (s : State)

theorem works_modifyAttempt {f : ActivationAttempt → ActivationAttempt}
    (haborted : ∀ a, (f a).aborted = a.aborted)
    (hphase : ∀ a, a.phase.decided = false → (f a).phase.decided = false) :
    Works g s (s.modifyAttempt g f) := by
  refine ⟨rfl, rfl, rfl, rfl, rfl, fun other hne => update_of_ne hne .., ?_, ?_, .inl rfl,
    [], rfl, nofun⟩
  · simp [modifyAttempt, haborted]
  · simpa [setPhase, modifyAttempt] using hphase _

theorem works_setPhase {phase : ActivationPhase} (h : phase.decided = false) :
    Works g s (s.setPhase g phase) :=
  works_modifyAttempt g s (fun _ => rfl) fun _ _ => h

theorem works_modifyTransition (t : Nat) (f : RuntimeTransition → RuntimeTransition) :
    Works g s (s.modifyTransition t f) :=
  ⟨rfl, rfl, rfl, rfl, rfl, fun _ _ => rfl, rfl, id, .inl rfl, [], rfl, nofun⟩

theorem works_modifyProgress (t : Nat) (f : ParticipantProgress → ParticipantProgress) :
    Works g s (s.modifyProgress t f) :=
  ⟨rfl, rfl, rfl, rfl, rfl, fun _ _ => rfl, rfl, id, .inl rfl, [], rfl, nofun⟩

theorem works_record {happening : Happening} (h : happening.neutral) :
    Works g s (s.record happening) :=
  ⟨rfl, rfl, rfl, rfl, rfl, fun _ _ => rfl, rfl, id, .inl rfl, [happening], rfl, by simpa using h⟩

theorem works_internalDrain (t : Option Nat) :
    Works g s { s with internalDrainTransition := t } :=
  ⟨rfl, rfl, rfl, rfl, rfl, fun _ _ => rfl, rfl, id, .inl rfl, [], rfl, nofun⟩

theorem works_coordinator (active : Option ActiveWorkspaceViewModel) :
    Works g s { s with coordinator := active } :=
  ⟨rfl, rfl, rfl, rfl, rfl, fun _ _ => rfl, rfl, id, .inl rfl, [], rfl, nofun⟩

theorem works_closeTransition (t : Nat) : Works g s (s.closeTransition t) :=
  ⟨rfl, rfl, rfl, rfl, rfl, fun _ _ => rfl, rfl, id, .inl rfl, [], rfl, nofun⟩

end Writes

variable {g : Nat} {s s₁ s' : State}

theorem Works.continues {stage : Stage} (h : Works g s s₁) (hstage : stage.running) :
    Continues g s (s₁.goTo g stage) := ⟨s₁, stage, h, hstage, rfl⟩

theorem Continues.after (h : Works g s s₁) (h' : Continues g s₁ s') : Continues g s s' := by
  obtain ⟨s₂, stage, hworks, hstage, rfl⟩ := h'.before
  exact (h.trans hworks).continues hstage

theorem Ends.after (h : Works g s s₁) (h' : Ends g s₁ s') : Ends g s s' := by
  obtain ⟨happened, hlog, hof⟩ := h.log
  obtain ⟨happened', hlog', hof'⟩ := h'.log
  refine ⟨h'.generation.trans h.generation, h.attempt ▸ h'.attempt, h.attempt ▸ h'.flags,
    h'.facade.trans h.facade, h.stages ▸ h'.stages, fun other hne => ?_,
    h'.aborted.trans h.aborted, happened' ++ happened, ?_, ?_⟩
  · rw [← h.others other hne]
    exact h'.others other hne
  · rw [hlog', hlog]
    simp
  · intro e he
    rcases List.mem_append.1 he with he | he
    · exact hof' e he
    · exact hof e he

theorem Works.latestIsNewest (h : Works g s s₁) (hlatest : s.LatestIsNewest) :
    s₁.LatestIsNewest := by
  intro g' hg'
  rw [h.generation]
  exact hlatest g' (h.attempt ▸ hg')

/-! ## The ends of an attempt -/

/-- What stands at the end of an attempt, before its promise settles. -/
structure Finished (g : Nat) (s s' : State) : Prop where
  generation : s'.generation = s.generation
  attempt : s'.attempt = if s.attempt = some g then none else s.attempt
  flags : s.attempt = some g → s'.switching = false ∧ s'.hydrating = false
  facade : s'.facade = s.facade
  stages : s'.stages = s.stages
  others : ∀ other, other ≠ g → (s'.attempts other).phase = (s.attempts other).phase ∧
    ((s.attempts other).aborted → (s'.attempts other).aborted)
  aborted : (s'.attempts g).aborted = (s.attempts g).aborted
  log : s'.log = s.log

theorem Finished.ends (h : Finished g s s') : Ends g s (s'.settle g) :=
  ⟨h.generation, h.attempt, h.flags, h.facade, by simp [settle, goTo, record,
    h.stages], h.others, h.aborted, [], by simp [settle, goTo, record, h.log],
    nofun⟩

theorem State.LatestIsNewest.setPhase (hlatest : s.LatestIsNewest) (g : Nat)
    (phase : ActivationPhase) : (s.setPhase g phase).LatestIsNewest := hlatest

theorem isLatest_iff (hlatest : s.LatestIsNewest) : s.isLatest g = true ↔ s.attempt = some g := by
  simp only [isLatest, Bool.and_eq_true, beq_iff_eq, and_iff_left_iff_imp]
  exact hlatest g

theorem isLatest_setPhase (phase : ActivationPhase) :
    (s.setPhase g phase).isLatest g = s.isLatest g := rfl

theorem finishAborted_finished (hlatest : s.LatestIsNewest) :
    Finished g s (finishAbortedQueuedAttempt s g) := by
  unfold finishAbortedQueuedAttempt
  split
  · rename_i h
    rw [isLatest_iff hlatest] at h
    exact ⟨rfl, by simp [h], fun _ => ⟨rfl, rfl⟩, rfl, rfl, fun _ _ => ⟨rfl, id⟩, rfl, rfl⟩
  · rename_i h
    rw [isLatest_iff hlatest] at h
    exact ⟨rfl, by simp [h], fun h' => absurd h' h, rfl, rfl, fun _ _ => ⟨rfl, id⟩, rfl, rfl⟩

theorem setPhase_others (phase : ActivationPhase) (other : Nat) (hne : other ≠ g) :
    (s.setPhase g phase).attempts other = s.attempts other := update_of_ne hne ..

theorem setPhase_aborted (phase : ActivationPhase) :
    ((s.setPhase g phase).attempts g).aborted = (s.attempts g).aborted := by
  simp [setPhase, modifyAttempt]

/-- The latest attempt drops itself and its flags. -/
theorem finished_latest (h : s.attempt = some g) (phase : ActivationPhase) (lockout : Bool) :
    Finished g s
      { s.setPhase g phase with
        switching := false, hydrating := false, recoveryRequired := lockout, attempt := none } := by
  refine ⟨rfl, by simp [h], fun _ => ⟨rfl, rfl⟩, rfl, rfl, fun other hne => ?_,
    setPhase_aborted phase, rfl⟩
  change ((s.setPhase g phase).attempts other).phase = _ ∧ _
  rw [setPhase_others phase other hne]
  exact ⟨rfl, id⟩

theorem finished_superseded (h : s.attempt ≠ some g) (phase : ActivationPhase) :
    Finished g s (s.setPhase g phase) := by
  refine ⟨rfl, by simp [h, setPhase, modifyAttempt], fun h' => absurd h' h, rfl, rfl,
    fun other hne => ?_, setPhase_aborted phase, rfl⟩
  rw [setPhase_others phase other hne]
  exact ⟨rfl, id⟩

theorem finishFailure_finished (hlatest : s.LatestIsNewest) (failure : WorkspaceActionFailure) :
    Finished g s (finishActivationFailure s g failure) := by
  unfold finishActivationFailure
  dsimp only
  rw [isLatest_setPhase]
  split
  · rename_i h
    rw [isLatest_iff hlatest] at h
    exact finished_latest h .terminal _
  · rename_i h
    rw [isLatest_iff hlatest] at h
    exact finished_superseded h .terminal

theorem Finished.setPhase (h : Finished g s s₁)
    (phase : ActivationPhase) : Finished g s (s₁.setPhase g phase) := by
  refine ⟨h.generation, h.attempt, h.flags, h.facade, h.stages, fun other hne => ?_, ?_, h.log⟩
  · simpa [State.setPhase, State.modifyAttempt, hne] using h.others other hne
  · simp [State.setPhase, State.modifyAttempt, h.aborted]

theorem Finished.not_latest (h : Finished g s s₁) : s₁.attempt ≠ some g := by
  rw [h.attempt]
  split
  · exact nofun
  · assumption

theorem finishFailure_of_not_latest (h : s.attempt ≠ some g) (failure : WorkspaceActionFailure) :
    finishActivationFailure s g failure = s.setPhase g .terminal := by
  unfold finishActivationFailure
  dsimp only
  rw [isLatest_setPhase, if_neg]
  simp [isLatest, h]

theorem finishOutcome_finished (hlatest : s.LatestIsNewest)
    (outcome : WorkspaceActionOutcome Unit) :
    Finished g s (finishActivationOutcome s g outcome) := by
  unfold finishActivationOutcome
  dsimp only
  rw [isLatest_setPhase]
  split
  · rename_i h
    rw [isLatest_iff hlatest] at h
    cases outcome with
    | failed failure =>
      dsimp only
      have hfinished := finishFailure_finished (g := g) (hlatest.setPhase g .terminal) failure
      refine ⟨hfinished.generation, hfinished.attempt, hfinished.flags, hfinished.facade,
        hfinished.stages, fun other hne => ?_, ?_, hfinished.log⟩
      · simpa [setPhase, modifyAttempt, hne] using hfinished.others other hne
      · simpa [setPhase, modifyAttempt] using hfinished.aborted
    | _ =>
      exact finished_latest h .terminal s.recoveryRequired
  · rename_i h
    rw [isLatest_iff hlatest] at h
    exact finished_superseded h .terminal

/-- The lockout drops the attempt that failed, and aborts a later one. -/
theorem markRecoveryRequired_finished : Finished g s (markRecoveryRequired s g) := by
  unfold markRecoveryRequired
  cases h : s.attempt with
  | none =>
    exact ⟨rfl, by simp [enterRecoveryLockout, h], fun _ => ⟨rfl, rfl⟩, rfl, rfl,
      fun _ _ => ⟨rfl, id⟩, rfl, rfl⟩
  | some latest =>
    dsimp only
    split
    · rename_i hlater
      refine ⟨rfl, ?_, fun _ => ⟨rfl, rfl⟩, rfl, rfl, fun other hne => ?_, ?_, rfl⟩
      · simp [enterRecoveryLockout, modifyAttempt, h, hlater.1]
      · by_cases heq : other = latest
        · subst heq
          simp [enterRecoveryLockout, modifyAttempt]
        · simp [enterRecoveryLockout, modifyAttempt, heq]
      · simp [enterRecoveryLockout, modifyAttempt, Ne.symm hlater.1]
    · refine ⟨rfl, ?_, fun _ => ⟨rfl, rfl⟩, rfl, rfl, fun _ _ => ⟨rfl, id⟩, rfl, rfl⟩
      simp [enterRecoveryLockout, h]

theorem finishRestored_ends (hlatest : s.LatestIsNewest) (restored : Bool)
    (failure : WorkspaceActionFailure) : Ends g s (finishRestored s g restored failure) := by
  unfold finishRestored
  split
  · exact (finishFailure_finished hlatest failure).ends
  · have hlocked := markRecoveryRequired_finished (g := g) (s := s)
    rw [finishFailure_of_not_latest hlocked.not_latest]
    exact (hlocked.setPhase _).ends

theorem finishOutcome_ends (hlatest : s.LatestIsNewest) (restored : Bool)
    (outcome : WorkspaceActionOutcome Unit) : Ends g s (finishOutcome s g restored outcome) := by
  unfold finishOutcome
  split
  · exact (finishOutcome_finished hlatest outcome).ends
  · have hlocked := markRecoveryRequired_finished (g := g) (s := s)
    rw [finishFailure_of_not_latest hlocked.not_latest]
    exact (hlocked.setPhase _).ends

theorem Finished.terminal (h : Finished g (s.setPhase g .terminal) s') :
    Finished g s s' := by
  refine ⟨h.generation, h.attempt, h.flags, h.facade, h.stages, fun other hne => ?_, ?_, h.log⟩
  · simpa [State.setPhase, State.modifyAttempt, hne] using h.others other hne
  · simpa [State.setPhase, State.modifyAttempt] using h.aborted

theorem finishRecovery_ends (hlatest : s.LatestIsNewest) (recovered : Bool)
    (caller : RecoveryCaller) : Ends g s (finishRecovery s g recovered caller) := by
  unfold finishRecovery
  dsimp only
  split
  · exact (Finished.terminal markRecoveryRequired_finished).ends
  · cases caller with
    | aborted => exact (Finished.terminal (finishAborted_finished (hlatest.setPhase _ _))).ends
    | hydrationFailed =>
      dsimp only
      rw [isLatest_setPhase]
      split
      · exact (Finished.terminal (finishFailure_finished (hlatest.setPhase _ _) _)).ends
      · rename_i h
        rw [isLatest_iff hlatest] at h
        exact (finished_superseded h .terminal).ends

/-! ## Restoring and draining -/

variable {participants : List String}

open Works

theorem restoreFrom_continues (t : Nat) (rest : List String) (anyFailed : Bool)
    (next : AfterRestore) : Continues g s (restoreFrom s g t rest anyFailed next) := by
  unfold restoreFrom
  dsimp only
  split
  · exact (refl g s).continues rfl
  · exact (works_record g s rfl).continues rfl

theorem restore_continues (next : AfterRestore) :
    Continues g s (restoreRuntimeAfterAbortedTransition participants s g next) := by
  unfold restoreRuntimeAfterAbortedTransition
  split
  · exact (refl g s).continues rfl
  · dsimp only
    split
    · exact restoreFrom_continues ..
    · exact (refl g s).continues rfl

theorem recover_continues (caller : RecoveryCaller) :
    Continues g s (recoverActivationOwner participants s g caller) := by
  unfold recoverActivationOwner
  dsimp only
  have hrolling : Works g s (s.setPhase g .rollingBack) := works_setPhase g s rfl
  split
  · exact (restore_continues _).after hrolling
  · split
    · exact hrolling.continues rfl
    · exact (restore_continues _).after hrolling

theorem abortAndRecover_continues :
    Continues g s (abortAndRecoverActivation participants s g) := recover_continues .aborted

theorem hydrationCaught_continues (error : HydrationError) :
    Continues g s (hydrationCaught participants s g error) := by
  unfold hydrationCaught
  split
  · exact abortAndRecover_continues
  · exact recover_continues _

theorem quiesceFrom_continues (t : Nat) (rest : List String) :
    Continues g s (quiesceFrom s g t rest) := by
  unfold quiesceFrom
  split
  · exact (refl g s).continues rfl
  · dsimp only
    exact ((works_modifyProgress g s t _).trans (works_record g _ rfl)).continues rfl

theorem drain_continues (t : Nat) :
    Continues g s (performActivationDrain participants s g t) := by
  unfold performActivationDrain
  split
  · dsimp only
    apply (quiesceFrom_continues t participants).after
    exact (works_modifyTransition g s t _).trans (works_internalDrain g _ _)
  · exact (refl g s).continues rfl

variable {previousWorkspaceId : Option String}

theorem ensureTransition_works {t : Nat}
    (h : ensureRuntimeTransition s previousWorkspaceId = some (t, s')) : Works g s s' := by
  unfold ensureRuntimeTransition at h
  split at h
  · split at h
    · cases h
    · cases h
      exact refl g s
  · cases h
    exact ⟨rfl, rfl, rfl, rfl, rfl, fun _ _ => rfl, rfl, id, .inl rfl, [.transitionCreated ..], rfl,
      by simp [neutral]⟩

/-! ## Whole pieces -/

/-- An attempt goes on or ends, and commits nothing. -/
inductive Moves (g : Nat) (s s' : State) : Prop
  | continues (h : Continues g s s')
  | ends (h : Ends g s s')

theorem Moves.after (h : Works g s s₁) : Moves g s₁ s' → Moves g s s'
  | .continues h' => .continues (h'.after h)
  | .ends h' => .ends (h'.after h)

/-- The transition that stands belongs to another workspace than `workspaceId`. -/
def State.OwnerChanged (s : State) (workspaceId : Option String) : Prop :=
  ∃ t, s.runtimeTransition = some t ∧ (s.transitions t).previousWorkspaceId ≠ workspaceId

theorem ensureTransition_eq_none :
    ensureRuntimeTransition s previousWorkspaceId = none ↔ s.OwnerChanged previousWorkspaceId := by
  unfold ensureRuntimeTransition State.OwnerChanged
  cases s.runtimeTransition <;> simp

theorem performActivation_moves (hlatest : s.LatestIsNewest)
    (howner : s.recoveryRequired = false → (s.attempts g).aborted = false →
      ¬s.OwnerChanged s.current) :
    Moves g s (performActivation participants s g) := by
  unfold performActivation
  split
  · exact .ends (finishFailure_finished hlatest _).ends
  · rename_i hrecovery
    split
    · exact .ends (Finished.terminal (finishAborted_finished (hlatest.setPhase g _))).ends
    · rename_i haborted
      dsimp only
      have hprevious : Works g s
          (s.modifyAttempt g fun a => { a with previousWorkspaceId := s.current }) :=
        works_modifyAttempt g s (fun _ => rfl) (fun _ h => h)
      split
      · rename_i hnone
        have hchanged := ensureTransition_eq_none.1 hnone
        exact absurd hchanged (howner (by simpa using hrecovery) (by simpa using haborted))
      · rename_i hsome
        have hensure := hprevious.trans (ensureTransition_works hsome)
        exact .continues ((drain_continues _).after (hensure.trans (works_setPhase g _ rfl)))

theorem startDeletion_continues {workspaceId : String}
    (howner : ¬s.OwnerChanged (some workspaceId)) :
    Continues g s (startDeletion participants s g workspaceId) := by
  unfold startDeletion
  split
  · rename_i hnone
    exact absurd (ensureTransition_eq_none.1 hnone) howner
  · rename_i hsome
    apply (drain_continues _).after
    exact (ensureTransition_works hsome).trans (works_setPhase g _ rfl)

theorem performCurrentDeletion_moves (hlatest : s.LatestIsNewest) (workspaceId : String) :
    Moves g s (performCurrentDeletion participants s g workspaceId) := by
  unfold performCurrentDeletion
  split
  · exact .ends (finishFailure_finished hlatest _).ends
  · dsimp only
    have hprevious : Works g s
        (s.modifyAttempt g fun a => { a with previousWorkspaceId := some workspaceId }) :=
      works_modifyAttempt g s (fun _ => rfl) (fun _ h => h)
    split
    · rename_i hnone
      refine .continues ((startDeletion_continues ?_).after hprevious)
      rintro ⟨t, ht, -⟩
      exact absurd (hnone.symm.trans ht) nofun
    · rename_i t hsome
      split
      · exact .continues ((restore_continues _).after hprevious)
      · rename_i hsame
        refine .continues ((startDeletion_continues ?_).after hprevious)
        rintro ⟨t', ht', hne⟩
        cases hsome.symm.trans ht'
        exact hne (not_not.1 hsame)

theorem deleteAfterClear_continues (workspaceId : String) :
    Continues g s (deleteAfterClear participants s g workspaceId) := by
  unfold deleteAfterClear
  split
  · rename_i hnone
    apply startDeletion_continues
    rintro ⟨t, ht, -⟩
    exact absurd (hnone.symm.trans ht) nofun
  · rename_i t _
    have hdropped : Works g s { s.record (.transitionDropped t) with
        runtimeTransition := none, internalDrainTransition := none } :=
      ⟨rfl, rfl, rfl, rfl, rfl, fun _ _ => rfl, rfl, id, .inl rfl, [.transitionDropped t], rfl,
        by simp [neutral]⟩
    refine (startDeletion_continues ?_).after hdropped
    rintro ⟨t, ht, -⟩
    exact absurd ht nofun

theorem activateAfterDrain_continues (t : Nat) (drainFailure : Option WorkspaceActionFailure) :
    Continues g s (activateAfterDrain participants s g t drainFailure) := by
  unfold activateAfterDrain
  split
  · exact abortAndRecover_continues
  · split
    · exact restore_continues _
    · dsimp only
      have hactivating : Works g s (s.modifyAttempt g fun a =>
          { a with phase := .activating, nativeActivationStarted := true }) :=
        works_modifyAttempt g s (fun _ => rfl) (fun _ _ => rfl)
      exact (hactivating.trans (works_record g _ rfl)).continues rfl

theorem deleteAfterDrain_continues (t : Nat) (workspaceId : String) :
    Continues g s (deleteAfterDrain participants s g t workspaceId) := by
  unfold deleteAfterDrain
  split
  · exact abortAndRecover_continues
  · have hphase : Works g s (s.setPhase g .activating) := works_setPhase g s rfl
    exact hphase.continues rfl

theorem afterDrain_continues (t : Nat) (drainFailure : Option WorkspaceActionFailure) :
    Continues g s (afterDrain participants s g t drainFailure) := by
  unfold afterDrain
  split
  · exact activateAfterDrain_continues t drainFailure
  · exact deleteAfterDrain_continues t _

theorem drainAfterSaves_continues (t : Nat)
    (quiesceFailure lastSaveFailure : Option WorkspaceActionFailure) :
    Continues g s (drainAfterSaves participants s g t quiesceFailure lastSaveFailure) := by
  unfold drainAfterSaves
  split
  · exact afterDrain_continues t _
  · split
    · exact afterDrain_continues t _
    · exact (refl g s).continues rfl

theorem endQuiesce_continues (t : Nat) (quiesceThrew : Bool) :
    Continues g s (endQuiesce s g t quiesceThrew) := by
  unfold endQuiesce
  dsimp only
  cases quiesceThrew with
  | true =>
    simp only [↓reduceIte]
    refine continues ?_ rfl
    exact (works_modifyTransition g s t _).trans (works_internalDrain g _ _)
  | false =>
    simp only [Bool.false_eq_true, ↓reduceIte]
    refine continues ?_ rfl
    exact works_internalDrain g s _

theorem isActive_not_aborted (h : s.isActive g = true) : (s.attempts g).aborted = false := by
  simp only [isActive, Bool.and_eq_true, Bool.not_eq_true'] at h
  exact h.1.1

theorem hydrate_continues (header : ActiveWorkspaceViewModel) (hactive : s.isActive g = true) :
    Continues g s (hydrateAfterNativeActivation s g header) := by
  unfold hydrateAfterNativeActivation
  dsimp only
  have hphase : Works g s (s.setPhase g .hydrating) := works_setPhase g s rfl
  refine (hphase.trans ?_).continues rfl
  refine ⟨rfl, rfl, rfl, rfl, rfl, fun _ _ => rfl, rfl, id, .inr ?_, [], rfl, nofun⟩
  simpa [setPhase, modifyAttempt] using isActive_not_aborted hactive

theorem activateAfterInvoke_continues (answer : Answer ActiveWorkspaceViewModel) :
    Continues g s (activateAfterInvoke participants s g answer) := by
  unfold activateAfterInvoke
  split
  · split
    · exact abortAndRecover_continues
    · exact restore_continues _
  · dsimp only
    rename_i header
    have hactivated := (works_coordinator g s (some header)).trans
      (works_modifyAttempt g { s with coordinator := some header }
        (f := fun a => { a with activatedWorkspaceId := some header.workspaceId })
        (fun _ => rfl) (fun _ h => h))
    split
    · exact abortAndRecover_continues.after hactivated
    · rename_i hactive
      exact (hydrate_continues header (by simpa using hactive)).after hactivated
  · split
    · exact abortAndRecover_continues
    · exact restore_continues _

theorem swapAfterStaging_continues (header : ActiveWorkspaceViewModel)
    (staged : WorkspaceHydrationStaging) :
    Continues g s (swapAfterStaging participants s g header staged) := by
  unfold swapAfterStaging
  split
  · exact hydrationCaught_continues _
  · split
    · exact hydrationCaught_continues _
    · rename_i hsome
      exact (ensureTransition_works hsome).continues rfl

theorem disposeFrom_continues (t : Nat) (rest : List String)
    {stage : List String → Option HydrationError → Stage}
    (hstage : ∀ rest error, (stage rest error).running) :
    Continues g s (disposeFrom s g t rest stage) := by
  unfold disposeFrom
  split
  · exact (refl g s).continues (hstage _ _)
  · exact (works_record g s rfl).continues (hstage _ _)

theorem activateStopped_continues (t : Nat) (header : ActiveWorkspaceViewModel)
    (staged : WorkspaceHydrationStaging) :
    Continues g s (activateStopped participants s g t header staged) := by
  unfold activateStopped activateStoppedFrom
  split
  · exact hydrationCaught_continues _
  · exact (works_modifyTransition g s t _).continues rfl

theorem prepareSwap_continues (t : Nat) (header : ActiveWorkspaceViewModel)
    (staged : WorkspaceHydrationStaging) :
    Continues g s (prepareRuntimeFacadeSwap participants s g t header staged) := by
  unfold prepareRuntimeFacadeSwap
  split
  · exact hydrationCaught_continues _
  · split
    · dsimp only
      exact (disposeFrom_continues t _ fun _ _ => rfl).after (works_modifyTransition g s t _)
    · exact activateStopped_continues t header staged

theorem deleteNative_continues (t : Nat) (workspaceId : String) :
    Continues g s (deleteNative s g t workspaceId) := (works_record g s rfl).continues rfl

theorem disposeForDeletion_continues (t : Nat) (workspaceId : String) :
    Continues g s (disposeForDeletion participants s g t workspaceId) := by
  unfold disposeForDeletion
  dsimp only
  split
  · exact (disposeFrom_continues t _ fun _ _ => rfl).after (works_modifyTransition g s t _)
  · exact (deleteNative_continues t workspaceId).after (works_modifyTransition g s t _)

theorem adoptRollbackView_finished (view : Option ActiveWorkspaceViewModel)
    (h : Ends g (adoptRollbackView s g view) s') : Ends g s s' := by
  have hadopt : Works g s (adoptRollbackView s g view) := by
    unfold adoptRollbackView
    split
    · exact refl g s
    · split
      · exact ⟨rfl, rfl, rfl, rfl, rfl, fun _ _ => rfl, rfl, id, .inl rfl, [], rfl, nofun⟩
      · exact refl g s
  exact h.after hadopt

theorem continueAfterRestore_moves (hlatest : s.LatestIsNewest) (restored : Bool)
    (next : AfterRestore) : Moves g s (continueAfterRestore participants s g restored next) := by
  unfold continueAfterRestore
  split
  · split
    · exact .continues abortAndRecover_continues
    · exact .ends (finishRestored_ends hlatest _ _)
  · exact .ends (finishRestored_ends hlatest _ _)
  · exact .ends (finishOutcome_ends hlatest _ _)
  · exact .ends (finishOutcome_ends hlatest _ _)
  · rename_i caller view
    cases restored with
    | true =>
      refine .ends (adoptRollbackView_finished view (finishRecovery_ends ?_ _ _))
      unfold adoptRollbackView
      split
      · exact hlatest
      · split <;> exact hlatest
    | false => exact .ends (finishRecovery_ends hlatest _ _)
  · exact .continues (deleteAfterClear_continues _)

theorem endRestore_moves (hlatest : s.LatestIsNewest) (transition : Option Nat) (anyFailed : Bool)
    (next : AfterRestore) : Moves g s (endRestore participants s g transition anyFailed next) := by
  unfold endRestore
  split
  · exact continueAfterRestore_moves hlatest _ _
  · rename_i t
    split
    · exact continueAfterRestore_moves hlatest _ _
    · have hclosed : Works g s ((s.record (.transitionRestored t)).closeTransition t) :=
        (works_record g s rfl).trans (works_closeTransition g _ t)
      exact (continueAfterRestore_moves (hclosed.latestIsNewest hlatest) _ _).after hclosed

theorem recoverAfterReopen_moves (hlatest : s.LatestIsNewest) (caller : RecoveryCaller)
    (answer : Answer ActiveWorkspaceViewModel) :
    Moves g s (recoverAfterReopen participants s g caller answer) := by
  unfold recoverAfterReopen
  split
  · dsimp only
    have hcoordinator := works_coordinator g s (some ‹ActiveWorkspaceViewModel›)
    split
    · exact .ends ((finishRecovery_ends (hcoordinator.latestIsNewest hlatest) _ _).after
        hcoordinator)
    · exact .continues ((restore_continues _).after hcoordinator)
  · exact .ends (finishRecovery_ends hlatest _ _)

/-! ## Commits -/

theorem commitTransition_works (t : Nat) (throws : Option String) :
    Works g s (commitTransition participants s t throws) := by
  unfold commitTransition
  cases throws with
  | none =>
    exact ⟨rfl, rfl, rfl, rfl, rfl, fun _ _ => rfl, rfl, id, .inl rfl, [.transitionCommitted t],
      rfl, by simp [neutral]⟩
  | some p => exact (works_record g s rfl).trans (works_modifyProgress g _ t _)

variable {workspaceId : Option String}

/-- What follows on the commit point ends in the commit, if it leaves the phase terminal and
drops the attempt when it is the latest. -/
theorem Works.commits (h : Works g (s.commitFacade g workspaceId) s₁)
    (hphase : (s₁.attempts g).phase = .terminal) (switching hydrating : Bool)
    (hflags : s.attempt = some g → switching = false ∧ hydrating = false) :
    Commits g workspaceId s
      ({ s₁ with
        attempt := if s₁.attempt = some g then none else s₁.attempt
        switching := switching
        hydrating := hydrating }.settle g) := by
  obtain ⟨happened, hlog, hof⟩ := h.log
  have hattempt : s₁.attempt = s.attempt := h.attempt
  refine ⟨h.generation, ?_, hflags, h.facade, ?_, fun other hne => ?_, ?_, hphase, happened, [], ?_,
    hof, nofun⟩
  · simp [settle, goTo, record, hattempt]
  · change update s₁.stages g .settled = _
    rw [h.stages]
    rfl
  · change s₁.attempts other = _
    rw [h.others other hne]
    simp [commitFacade, setPhase, modifyAttempt, record, hne]
  · change (s₁.attempts g).aborted = _
    rw [h.aborted]
    simp [commitFacade, setPhase, modifyAttempt, record]
  · change _ :: s₁.log = _
    rw [hlog]
    simp [commitFacade, setPhase, modifyAttempt, record]

theorem setPhase_terminal_phase : ((s.setPhase g .terminal).attempts g).phase = .terminal := by
  simp [setPhase, modifyAttempt]

/-- Past its commit point an attempt may become terminal. -/
theorem works_terminal (hphase : (s.attempts g).phase.decided = true) :
    Works g s (s.setPhase g .terminal) := by
  refine ⟨rfl, rfl, rfl, rfl, rfl, fun other hne => update_of_ne hne .., ?_, ?_, .inl rfl,
    [], rfl, nofun⟩
  · simp [setPhase, modifyAttempt]
  · exact fun h => absurd (h.symm.trans hphase) nofun

theorem commitFacade_decided :
    ((s.commitFacade g workspaceId).attempts g).phase.decided = true := by
  simp [commitFacade, setPhase, modifyAttempt, record, ActivationPhase.decided]

theorem commitTransition_keeps (t : Nat) (throws : Option String) :
    (commitTransition participants s t throws).attempts = s.attempts ∧
      (commitTransition participants s t throws).hydrating = s.hydrating := by
  unfold commitTransition
  cases throws <;> exact ⟨rfl, rfl⟩

theorem commitStopped_works (header : ActiveWorkspaceViewModel) (commitThrows : Option String) :
    Works g s (commitStopped participants s header commitThrows) := by
  unfold commitStopped
  split
  · split
    · exact (commitTransition_works _ _).trans (works_closeTransition g _ _)
    · exact refl g s
  · exact refl g s

theorem commitStopped_keeps (header : ActiveWorkspaceViewModel) (commitThrows : Option String) :
    (commitStopped participants s header commitThrows).attempts = s.attempts ∧
      (commitStopped participants s header commitThrows).hydrating = s.hydrating := by
  unfold commitStopped
  split
  · split
    · exact commitTransition_keeps _ _
    · exact ⟨rfl, rfl⟩
  · exact ⟨rfl, rfl⟩

/-- What `installHydratedWorkspace` does between the commit point and the flags. -/
theorem installHydrated_commits (header : ActiveWorkspaceViewModel) (commitThrows : Option String)
    (haborted : (s.attempts g).aborted = false) :
    Commits g (some header.workspaceId) s
      ((installHydratedWorkspace participants (s.commitFacade g (some header.workspaceId)) g header
        commitThrows).settle g) := by
  unfold installHydratedWorkspace
  dsimp only
  generalize hs₁ : s.commitFacade g (some header.workspaceId) = s₁
  have hcleared : Works g s₁ { s₁ with
      current := some header.workspaceId, recoveryRequired := false, hydrating := false } := by
    refine ⟨rfl, rfl, rfl, rfl, rfl, fun _ _ => rfl, rfl, id, .inr ?_, [], rfl, nofun⟩
    simp [← hs₁, commitFacade, setPhase, modifyAttempt, record, haborted]
  have hdecided : (s₁.attempts g).phase.decided = true := hs₁ ▸ commitFacade_decided
  generalize hs₂ : setPhase { s₁ with
    current := some header.workspaceId, recoveryRequired := false, hydrating := false } g
    .terminal = s₂
  have hterminal : Works g s₁ s₂ := hs₂ ▸ hcleared.trans (works_terminal hdecided)
  have hphase : (s₂.attempts g).phase = .terminal := hs₂ ▸ setPhase_terminal_phase
  have hhydrating : s₂.hydrating = false := hs₂ ▸ rfl
  have hstopped : Works g s₁ (commitStopped participants s₂ header commitThrows) :=
    hterminal.trans (commitStopped_works header commitThrows)
  obtain ⟨hattempts, hsame⟩ := @commitStopped_keeps s₂ participants header commitThrows
  rw [← hattempts] at hphase
  rw [← hsame] at hhydrating
  generalize commitStopped participants s₂ header commitThrows = s₃ at hstopped hphase hhydrating ⊢
  subst hs₁
  have hattempt : s₃.attempt = s.attempt := hstopped.attempt
  split
  · rename_i hlatest
    have hcommits := hstopped.commits hphase false false fun _ => ⟨rfl, rfl⟩
    simpa [hlatest, hhydrating] using hcommits
  · rename_i hlater
    have hcommits := hstopped.commits hphase true false fun h => absurd (hattempt.trans h) hlater
    simpa [hlater, hhydrating] using hcommits

theorem commitHydration_moves (participants : List String) (t : Nat)
    (header : ActiveWorkspaceViewModel) (staged : WorkspaceHydrationStaging)
    (commitThrows : Option String) :
    Continues g s (commitHydration participants s g t header staged commitThrows) ∨
      (s.attempts g).aborted = false ∧ Commits g (some header.workspaceId) s
        (commitHydration participants s g t header staged commitThrows) := by
  unfold commitHydration
  split
  · exact .inl (hydrationCaught_continues _)
  · rename_i howns
    split
    · exact .inl (hydrationCaught_continues _)
    · have haborted : (s.attempts g).aborted = false := by
        simp only [assertAttemptOwnsRuntimeTransition, Bool.not_eq_true', Bool.not_eq_false,
          Bool.and_eq_true] at howns
        exact isActive_not_aborted howns.1
      exact .inr ⟨haborted, installHydrated_commits header commitThrows haborted⟩

/-- The native deletion comes before the commit point of a deletion. -/
theorem Commits.afterDeletion (h : Works g s s₁) (hlog : s₁.log = s.log)
    (h' : Commits g workspaceId (s₁.record (.workspaceDeleted g)) s') :
    Commits g workspaceId s s' := by
  obtain ⟨happened, deleted, hlog', hhappened, hdeleted⟩ := h'.log
  have hattempt : (s₁.record (.workspaceDeleted g)).attempt = s.attempt := h.attempt
  refine ⟨h'.generation.trans h.generation, hattempt ▸ h'.attempt, hattempt ▸ h'.flags, h'.facade,
    ?_, fun other hne => ?_, h'.aborted.trans h.aborted, h'.phase,
    happened, deleted ++ [.workspaceDeleted g], ?_, hhappened, ?_⟩
  · rw [h'.stages, ← h.stages]
    rfl
  · exact (h'.others other hne).trans (h.others other hne)
  · rw [hlog']
    simp [record, hlog]
  · intro e he
    rcases List.mem_append.1 he with he | he
    · exact hdeleted e he
    · exact .inr (List.mem_singleton.1 he)

theorem commitDeletion_commits (t : Nat) (workspaceId : String) (commitThrows : Option String) :
    Commits g none s (commitDeletion participants s g t workspaceId commitThrows) := by
  unfold commitDeletion
  dsimp only
  generalize hs₁ : (if s.activeWorkspaceId = some workspaceId then { s with coordinator := none }
    else s) = s₁
  have hdropped : Works g s s₁ ∧ s₁.log = s.log := by
    rw [← hs₁]
    split
    · exact ⟨works_coordinator g s none, rfl⟩
    · exact ⟨refl g s, rfl⟩
  apply Commits.afterDeletion hdropped.1 hdropped.2
  generalize s₁.record (.workspaceDeleted g) = s₂
  have hdecided : ((s₂.commitFacade g none).attempts g).phase.decided = true := commitFacade_decided
  have hcleared : Works g (s₂.commitFacade g none)
      { s₂.commitFacade g none with current := none, recoveryRequired := false } :=
    ⟨rfl, rfl, rfl, rfl, rfl, fun _ _ => rfl, rfl, id, .inl rfl, [], rfl, nofun⟩
  generalize hs₃ : { s₂.commitFacade g none with current := none, recoveryRequired := false } = s₃
    at hcleared ⊢
  have hcommitted : Works g (s₂.commitFacade g none)
      ((commitTransition participants s₃ t commitThrows).closeTransition t) :=
    (hcleared.trans (commitTransition_works t commitThrows)).trans (works_closeTransition g _ t)
  have hattempts : ((commitTransition participants s₃ t commitThrows).closeTransition t).attempts =
      (s₂.commitFacade g none).attempts := by
    change (commitTransition participants s₃ t commitThrows).attempts = _
    rw [(commitTransition_keeps t commitThrows).1, ← hs₃]
  rw [← hattempts] at hdecided
  exact (hcommitted.trans (works_terminal hdecided)).commits setPhase_terminal_phase false false
    fun _ => ⟨rfl, rfl⟩

/-! ## One step of an attempt -/

/-- What the code leaves open: a deletion that completes natively for an attempt that was revoked
on the way, and an exception of the coordinator or of the hand-over that ends the latest
attempt. -/
def Guarded (s : State) : ActivationEvent → Prop
  | .resume g reply =>
    match s.stages g, reply with
    | .deleting _ _, .deleted (.completed _) _ => .revoked g ∉ s.log
    | .deleting _ _, .threw _ | .flushing _ _, .threw _ => s.attempt ≠ some g
    | _, _ => True
  | .begin g =>
    s.stages g = .waiting → s.stages (g - 1) = .settled → s.requests g = .activate →
      s.recoveryRequired = false → (s.attempts g).aborted = false → ¬s.OwnerChanged s.current
  | _ => True

/-- The promise of an attempt is rejected, which leaves all that it shares as it was. -/
theorem reject_ends (h : s.attempt ≠ some g) : Ends g s (s.reject g) :=
  ⟨rfl, by simp [h, reject, settle, goTo, record], fun h' => absurd h' h,
    rfl, rfl, fun _ _ => ⟨rfl, id⟩, rfl, [.rejected g], rfl, by simp [neutral]⟩

/-- What an attempt does after an await. -/
inductive Resumes (g : Nat) (s s' : State) : Prop
  | stays (h : s' = s)
  | moves (h : Moves g s s')
  | commits (workspaceId : Option String)
      (howned : (s.attempts g).aborted = false ∨ .revoked g ∉ s.log)
      (h : Commits g workspaceId s s')

/-- What an attempt does after an await that the guard leaves out. -/
theorem resume_unguarded (participants : List String) {reply : Reply}
    (hnot : ¬Guarded s (.resume g reply)) :
    (.revoked g ∈ s.log ∧ Commits g none s (resume participants s g reply)) ∨
    s.attempt = some g ∧ (s.stages g).running ∧ resume participants s g reply = s.reject g := by
  unfold Guarded at hnot
  dsimp only at hnot
  split at hnot
  · rename_i workspaceId t value commitThrows hstage
    have hresume : resume participants s g (.deleted (.completed value) commitThrows) =
        commitDeletion participants s g t workspaceId commitThrows := by
      unfold resume
      rw [hstage]
    exact .inl ⟨not_not.1 hnot, hresume ▸ commitDeletion_commits _ _ _⟩
  all_goals try (exact absurd trivial hnot)
  all_goals
    rename_i hstage
    refine .inr ⟨not_not.1 hnot, by rw [hstage]; rfl, ?_⟩
    unfold resume
    rw [hstage]

theorem Continues.resumes (h : Continues g s s') : Resumes g s s' := .moves (.continues h)

open Continues

theorem resume_cases (participants : List String) (hlatest : s.LatestIsNewest) {reply : Reply}
    (hguarded : Guarded s (.resume g reply)) : Resumes g s (resume participants s g reply) := by
  unfold resume
  unfold Guarded at hguarded
  dsimp only at hguarded
  split
  · dsimp only
    refine (after ?_ (quiesceFrom_continues _ _)).resumes
    exact (works_modifyProgress g s _ _).trans (works_record g _ rfl)
  · exact ((works_record g s rfl).continues rfl).resumes
  · exact (endQuiesce_continues _ _).resumes
  · exact (drainAfterSaves_continues _ _ _).resumes
  · exact (afterDrain_continues _ _).resumes
  · rename_i hstage
    rw [hstage] at hguarded
    exact .moves (.ends (reject_ends hguarded))
  · exact (activateAfterInvoke_continues _).resumes
  · exact (swapAfterStaging_continues _ _).resumes
  · exact (hydrationCaught_continues _).resumes
  · exact (prepareSwap_continues _ _ _).resumes
  · dsimp only
    refine (after ?_ (disposeFrom_continues _ _ fun _ _ => rfl)).resumes
    exact (works_modifyProgress g s _ _).trans (works_record g _ rfl)
  · exact ((works_record g s rfl).continues rfl).resumes
  · exact (hydrationCaught_continues _).resumes
  · dsimp only
    exact ((activateStopped_continues _ _ _).after (works_modifyTransition g s _ _)).resumes
  · dsimp only
    refine (continues ?_ rfl).resumes
    exact works_modifyProgress g s _ _
  · exact ((refl g s).continues rfl).resumes
  · exact (hydrationCaught_continues _).resumes
  · rcases commitHydration_moves participants _ _ _ _
      with hcontinues | ⟨haborted, hcommits⟩
    · exact hcontinues.resumes
    · exact .commits _ (.inl haborted) hcommits
  · exact (disposeForDeletion_continues _ _).resumes
  · dsimp only
    refine (after ?_ (disposeFrom_continues _ _ fun _ _ => rfl)).resumes
    exact (works_modifyProgress g s _ _).trans (works_record g _ rfl)
  · exact ((works_record g s rfl).continues rfl).resumes
  · exact (deleteNative_continues _ _).resumes
  · dsimp only
    exact ((deleteNative_continues _ _).after (works_modifyTransition g s _ _)).resumes
  · rename_i hstage
    rw [hstage] at hguarded
    exact .commits none (.inr hguarded) (commitDeletion_commits _ _ _)
  · exact (restore_continues _).resumes
  · rename_i hstage
    rw [hstage] at hguarded
    exact .moves (.ends (reject_ends hguarded))
  · exact .moves (recoverAfterReopen_moves hlatest _ _)
  · dsimp only
    refine (after ?_ (restoreFrom_continues _ _ _ _)).resumes
    exact (works_modifyProgress g s _ _).trans (works_record g _ rfl)
  · exact ((restoreFrom_continues _ _ _ _).after (works_record g s rfl)).resumes
  · exact .moves (endRestore_moves hlatest _ _ _)
  · exact .stays rfl

/-- An attempt begins. -/
theorem begin_cases (participants : List String) (hlatest : s.LatestIsNewest)
    (hguarded : Guarded s (.begin g)) :
    begin participants s g = s ∨
      s.stages g = .waiting ∧ s.stages (g - 1) = .settled ∧
        Moves g (s.record (.began g)) (begin participants s g) := by
  unfold begin
  split
  · rename_i hturn
    refine .inr ⟨hturn.1, hturn.2, ?_⟩
    dsimp only
    have hlatest' : (s.record (.began g)).LatestIsNewest := hlatest
    split
    · rename_i hrequest
      exact performActivation_moves hlatest' fun hrecovery haborted =>
        hguarded hturn.1 hturn.2 hrequest hrecovery haborted
    · exact performCurrentDeletion_moves hlatest' _
  · exact .inl rfl

end bbcom.workspace_activation
