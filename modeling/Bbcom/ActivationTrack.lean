-- What the pieces of an attempt leave of the workspace that the application holds for installed
-- and of the one that the coordinator has: where the coordinator is elsewhere, the attempt is on
-- its way to a commit, to a rollback or to the lockout.
import Bbcom.ActivationOwnership

namespace bbcom.workspace_activation

open State Continues Stage

/-! ## Stages -/

/-- The coordinator may have another workspace than the one that is installed. -/
def Stage.away : Stage → Bool
  | staging _ | swapQueued .. | swapDisposing .. | swapActivating .. | reopening _ => true
  | _ => false

/-- Only an attempt that has called the coordinator comes here. -/
def Stage.native : Stage → Bool
  | invoking | staging _ | swapQueued .. | swapDisposing .. | swapActivating .. => true
  | _ => false

/-- The view that a restore is to install, if it follows on a rollback. -/
def AfterRestore.view : AfterRestore → Option ActiveWorkspaceViewModel
  | recovered _ view => view
  | _ => none

def Stage.rollback : Stage → Option ActiveWorkspaceViewModel
  | restoring _ _ _ next => next.view
  | _ => none

/-- `openEpoch` is called where the facade is replaced, and nowhere else. -/
def Happening.opensEpoch : Happening → Bool
  | facadeReplaced _ _ => true
  | _ => false

def State.workspaceEpoch (s : State) : Nat := s.log.countP Happening.opensEpoch

/-! ## What a piece leaves as it is -/

/-- The attempt installs nothing, and the coordinator keeps its workspace. -/
structure Holds (g : Nat) (s s' : State) : Prop where
  current : s'.current = s.current
  recovery : s'.recoveryRequired = s.recoveryRequired
  coordinator : s'.coordinator = s.coordinator
  previous : (s'.attempts g).previousWorkspaceId = (s.attempts g).previousWorkspaceId
  started : (s.attempts g).nativeActivationStarted → (s'.attempts g).nativeActivationStarted

/-- The attempt goes on so, to a stage that it may come to. -/
structure Proceeds (g : Nat) (s s' : State) : Prop where
  holds : Holds g s s'
  native : (s'.stages g).native → (s'.attempts g).nativeActivationStarted
  rollback : ∀ view, (s'.stages g).rollback = some view →
    (s'.attempts g).previousWorkspaceId = some view.workspaceId

theorem Holds.refl (g : Nat) (s : State) : Holds g s s := ⟨rfl, rfl, rfl, rfl, id⟩

variable {g : Nat} {s s₁ s' : State} {participants : List String}

theorem Holds.trans (h : Holds g s s₁) (h' : Holds g s₁ s') : Holds g s s' where
  current := h'.current.trans h.current
  recovery := h'.recovery.trans h.recovery
  coordinator := h'.coordinator.trans h.coordinator
  previous := h'.previous.trans h.previous
  started hstarted := h'.started (h.started hstarted)

variable {f : ActivationAttempt → ActivationAttempt}

theorem holds_modifyAttempt (g : Nat) (s : State)
    (hprevious : ∀ a, (f a).previousWorkspaceId = a.previousWorkspaceId)
    (hstarted : ∀ a, a.nativeActivationStarted → (f a).nativeActivationStarted) :
    Holds g s (s.modifyAttempt g f) := by
  refine ⟨rfl, rfl, rfl, ?_, ?_⟩
  · simp [modifyAttempt, hprevious]
  · simpa [modifyAttempt] using hstarted _

theorem holds_setPhase (g : Nat) (s : State) (phase : ActivationPhase) :
    Holds g s (s.setPhase g phase) :=
  holds_modifyAttempt g s (fun _ => rfl) fun _ h => h

theorem holds_record (g : Nat) (s : State) (happening : Happening) :
    Holds g s (s.record happening) := ⟨rfl, rfl, rfl, rfl, id⟩

theorem Proceeds.after (h : Holds g s s₁) (h' : Proceeds g s₁ s') : Proceeds g s s' :=
  ⟨h.trans h'.holds, h'.native, h'.rollback⟩

variable {stage : Stage} {next : AfterRestore}

theorem Holds.proceeds (h : Holds g s s₁)
    (hnative : stage.native → (s₁.attempts g).nativeActivationStarted)
    (hrollback : ∀ view, stage.rollback = some view →
      (s₁.attempts g).previousWorkspaceId = some view.workspaceId) :
    Proceeds g s (s₁.goTo g stage) := by
  refine ⟨⟨h.current, h.recovery, h.coordinator, h.previous, h.started⟩, ?_, ?_⟩
  · simpa [goTo] using hnative
  · simpa [goTo] using hrollback

/-- A stage with nothing to ask for. -/
theorem Holds.plain (h : Holds g s s₁) (hnative : stage.native = false)
    (hrollback : stage.rollback = none) : Proceeds g s (s₁.goTo g stage) := by
  apply h.proceeds
  · simp [hnative]
  · simp [hrollback]

/-- A stage of an attempt that has called the coordinator. -/
theorem Holds.called (h : Holds g s s₁) (hstarted : (s.attempts g).nativeActivationStarted)
    (hrollback : stage.rollback = none) : Proceeds g s (s₁.goTo g stage) := by
  apply h.proceeds
  · exact fun _ => h.started hstarted
  · simp [hrollback]

/-! ## Restoring and draining -/

variable (t : Nat) (rest : List String)

open Holds

theorem restoreFrom_proceeds (anyFailed : Bool) (hview : ∀ view, next.view = some view →
      (s.attempts g).previousWorkspaceId = some view.workspaceId) :
    Proceeds g s (restoreFrom s g t rest anyFailed next) := by
  unfold restoreFrom
  dsimp only
  split
  · exact (refl g s).proceeds nofun hview
  · have hrecord := holds_record g s (.restoreStarted t ‹String›)
    exact hrecord.proceeds nofun hview

theorem restore_proceeds (hview : ∀ view, next.view = some view →
      (s.attempts g).previousWorkspaceId = some view.workspaceId) :
    Proceeds g s (restoreRuntimeAfterAbortedTransition participants s g next) := by
  unfold restoreRuntimeAfterAbortedTransition
  split
  · exact (refl g s).proceeds nofun hview
  · dsimp only
    split
    · exact restoreFrom_proceeds _ _ _ hview
    · exact (refl g s).proceeds nofun hview

/-- A restore that follows on no rollback. -/
theorem restore_plain (hview : next.view = none) :
    Proceeds g s (restoreRuntimeAfterAbortedTransition participants s g next) := by
  apply restore_proceeds
  simp [hview]

theorem recover_proceeds (caller : RecoveryCaller) :
    Proceeds g s (recoverActivationOwner participants s g caller) := by
  unfold recoverActivationOwner
  dsimp only
  have hrolling := holds_setPhase g s .rollingBack
  split
  · exact (restore_plain rfl).after hrolling
  · split
    · exact hrolling.plain rfl rfl
    · exact (restore_plain rfl).after hrolling

/-- Once the coordinator was called, a rollback opens the previous workspace again. -/
theorem recover_lands (participants : List String) (caller : RecoveryCaller)
    (hstarted : (s.attempts g).nativeActivationStarted) :
    ((recoverActivationOwner participants s g caller).stages g).away = true ∨
      (s.attempts g).previousWorkspaceId = none := by
  unfold recoverActivationOwner
  dsimp only
  have hrolling := holds_setPhase g s .rollingBack
  split
  · rename_i hnone
    exact .inr (hrolling.previous.symm.trans hnone)
  · rw [if_pos (by simp [hrolling.started hstarted])]
    exact .inl (by simp [goTo, away])

variable (error : HydrationError)

theorem hydrationCaught_proceeds : Proceeds g s (hydrationCaught participants s g error) := by
  unfold hydrationCaught abortAndRecoverActivation
  split <;> exact recover_proceeds _

theorem hydrationCaught_lands (hstarted : (s.attempts g).nativeActivationStarted) :
    ((hydrationCaught participants s g error).stages g).away = true ∨
      (s.attempts g).previousWorkspaceId = none := by
  unfold hydrationCaught abortAndRecoverActivation
  split <;> exact recover_lands participants _ hstarted

theorem quiesceFrom_proceeds : Proceeds g s (quiesceFrom s g t rest) := by
  unfold quiesceFrom
  split
  · exact (refl g s).plain rfl rfl
  · exact plain ⟨rfl, rfl, rfl, rfl, id⟩ rfl rfl

theorem drain_proceeds : Proceeds g s (performActivationDrain participants s g t) := by
  unfold performActivationDrain
  split
  · dsimp only
    refine Proceeds.after ?_ (quiesceFrom_proceeds t participants)
    exact ⟨rfl, rfl, rfl, rfl, id⟩
  · exact (refl g s).plain rfl rfl

theorem ensureTransition_holds {previousWorkspaceId : Option String} {t : Nat}
    (h : ensureRuntimeTransition s previousWorkspaceId = some (t, s')) : Holds g s s' := by
  unfold ensureRuntimeTransition at h
  split at h
  · split at h
    · cases h
    · cases h
      exact refl g s
  · cases h
    exact ⟨rfl, rfl, rfl, rfl, id⟩

theorem endQuiesce_proceeds (quiesceThrew : Bool) :
    Proceeds g s (endQuiesce s g t quiesceThrew) := by
  unfold endQuiesce
  cases quiesceThrew <;> exact plain ⟨rfl, rfl, rfl, rfl, id⟩ rfl rfl

theorem activateAfterDrain_proceeds (drainFailure : Option WorkspaceActionFailure) :
    Proceeds g s (activateAfterDrain participants s g t drainFailure) := by
  unfold activateAfterDrain abortAndRecoverActivation
  split
  · exact recover_proceeds _
  · split
    · exact restore_plain rfl
    · dsimp only
      have hactivating : Holds g s (s.modifyAttempt g fun a =>
          { a with phase := .activating, nativeActivationStarted := true }) :=
        holds_modifyAttempt g s (fun _ => rfl) fun _ _ => rfl
      refine (hactivating.trans (holds_record g _ _)).proceeds ?_ nofun
      simp [record, modifyAttempt]

variable (workspaceId : String)

theorem deleteAfterDrain_proceeds :
    Proceeds g s (deleteAfterDrain participants s g t workspaceId) := by
  unfold deleteAfterDrain abortAndRecoverActivation
  split
  · exact recover_proceeds _
  · exact (holds_setPhase g s .activating).plain rfl rfl

theorem afterDrain_proceeds (drainFailure : Option WorkspaceActionFailure) :
    Proceeds g s (afterDrain participants s g t drainFailure) := by
  unfold afterDrain
  split
  · exact activateAfterDrain_proceeds t drainFailure
  · exact deleteAfterDrain_proceeds t _

theorem drainAfterSaves_proceeds (quiesceFailure lastSaveFailure : Option WorkspaceActionFailure) :
    Proceeds g s (drainAfterSaves participants s g t quiesceFailure lastSaveFailure) := by
  unfold drainAfterSaves
  split
  · exact afterDrain_proceeds t _
  · split
    · exact afterDrain_proceeds t _
    · exact (refl g s).plain rfl rfl

/-! ## Hydration -/

theorem swapAfterStaging_proceeds (participants : List String) (header : ActiveWorkspaceViewModel)
    (staged : WorkspaceHydrationStaging) (hstarted : (s.attempts g).nativeActivationStarted) :
    Proceeds g s (swapAfterStaging participants s g header staged) ∧
      (((swapAfterStaging participants s g header staged).stages g).away = true ∨
        (s.attempts g).previousWorkspaceId = none) := by
  unfold swapAfterStaging
  split
  · exact ⟨hydrationCaught_proceeds _, hydrationCaught_lands _ hstarted⟩
  · split
    · exact ⟨hydrationCaught_proceeds _, hydrationCaught_lands _ hstarted⟩
    · rename_i hsome
      exact ⟨(ensureTransition_holds hsome).called hstarted rfl, .inl (by simp [goTo, away])⟩

theorem disposeFrom_proceeds {stage : List String → Option HydrationError → Stage}
    (hnative : ∀ rest error, (stage rest error).native → (s.attempts g).nativeActivationStarted)
    (hrollback : ∀ rest error, (stage rest error).rollback = none) :
    Proceeds g s (disposeFrom s g t rest stage) := by
  unfold disposeFrom
  split
  · apply (refl g s).proceeds
    · exact hnative _ _
    · simp [hrollback]
  · have hrecord := holds_record g s (.disposeStarted t ‹String›)
    refine hrecord.proceeds (hnative _ _) ?_
    simp [hrollback]

theorem disposeFrom_stage {stage : List String → Option HydrationError → Stage}
    (haway : ∀ rest error, (stage rest error).away) :
    ((disposeFrom s g t rest stage).stages g).away = true := by
  unfold disposeFrom
  split <;> simp [goTo, haway]

theorem activateStopped_proceeds (participants : List String) (t : Nat)
    (header : ActiveWorkspaceViewModel) (staged : WorkspaceHydrationStaging)
    (hstarted : (s.attempts g).nativeActivationStarted) :
    Proceeds g s (activateStopped participants s g t header staged) ∧
      (((activateStopped participants s g t header staged).stages g).away = true ∨
        (s.attempts g).previousWorkspaceId = none) := by
  unfold activateStopped activateStoppedFrom
  split
  · exact ⟨hydrationCaught_proceeds _, hydrationCaught_lands _ hstarted⟩
  · exact ⟨called ⟨rfl, rfl, rfl, rfl, id⟩ hstarted rfl, .inl (by simp [goTo, away])⟩

theorem prepareSwap_proceeds (participants : List String) (t : Nat)
    (header : ActiveWorkspaceViewModel) (staged : WorkspaceHydrationStaging)
    (hstarted : (s.attempts g).nativeActivationStarted) :
    Proceeds g s (prepareRuntimeFacadeSwap participants s g t header staged) ∧
      (((prepareRuntimeFacadeSwap participants s g t header staged).stages g).away = true ∨
        (s.attempts g).previousWorkspaceId = none) := by
  unfold prepareRuntimeFacadeSwap
  split
  · exact ⟨hydrationCaught_proceeds _, hydrationCaught_lands _ hstarted⟩
  · split
    · dsimp only
      refine ⟨?_, .inl (disposeFrom_stage _ _ fun _ _ => rfl)⟩
      refine Proceeds.after ?_ (disposeFrom_proceeds _ _ (fun _ _ _ => hstarted) fun _ _ => rfl)
      exact ⟨rfl, rfl, rfl, rfl, id⟩
    · exact activateStopped_proceeds participants t header staged hstarted

/-! ## The native calls -/

theorem hydrate_proceeds (header : ActiveWorkspaceViewModel)
    (hstarted : (s.attempts g).nativeActivationStarted) :
    Proceeds g s (hydrateAfterNativeActivation s g header) := by
  unfold hydrateAfterNativeActivation
  have hhydrating : Holds g s { s.setPhase g .hydrating with hydrating := true } :=
    (holds_setPhase g s .hydrating).trans ⟨rfl, rfl, rfl, rfl, id⟩
  exact hhydrating.called hstarted rfl

theorem deleteNative_proceeds : Proceeds g s (deleteNative s g t workspaceId) :=
  (holds_record g s (.nativeDeletion t)).plain rfl rfl

theorem disposeForDeletion_proceeds :
    Proceeds g s (disposeForDeletion participants s g t workspaceId) := by
  unfold disposeForDeletion
  dsimp only
  have hdispose : Holds g s (s.modifyTransition t fun transition =>
      { transition with disposeStarted := true }) := ⟨rfl, rfl, rfl, rfl, id⟩
  split
  · refine Proceeds.after hdispose (disposeFrom_proceeds t participants ?_ fun _ _ => rfl)
    simp [native]
  · exact (deleteNative_proceeds t workspaceId).after hdispose

/-! ## The ends of an attempt -/

/-- What stands where an attempt ends without a commit, before its promise settles. -/
structure Concludes (g : Nat) (s s' : State) : Prop where
  generation : s'.generation = s.generation
  stages : s'.stages = s.stages
  attempt : s'.attempt = s.attempt ∨ s'.attempt = none
  current : s'.current = s.current
  coordinator : s'.coordinator = s.coordinator
  epoch : s'.workspaceEpoch = s.workspaceEpoch
  attempts : ∀ other,
    (s'.attempts other).previousWorkspaceId = (s.attempts other).previousWorkspaceId ∧
      (s'.attempts other).nativeActivationStarted = (s.attempts other).nativeActivationStarted
  flags : s'.recoveryRequired = true ∨ s'.recoveryRequired = s.recoveryRequired ∧
    (s'.switching = s.switching ∨ s.attempt = some g)

theorem Concludes.refl (g : Nat) (s : State) : Concludes g s s :=
  ⟨rfl, rfl, .inl rfl, rfl, rfl, rfl, fun _ => ⟨rfl, rfl⟩, .inr ⟨rfl, .inl rfl⟩⟩

theorem Concludes.trans (h : Concludes g s s₁) (h' : Concludes g s₁ s') : Concludes g s s' where
  generation := h'.generation.trans h.generation
  stages := h'.stages.trans h.stages
  attempt := by
    rcases h'.attempt with heq | hnone
    · rw [heq]
      exact h.attempt
    · exact .inr hnone
  current := h'.current.trans h.current
  coordinator := h'.coordinator.trans h.coordinator
  epoch := h'.epoch.trans h.epoch
  attempts other := ⟨(h'.attempts other).1.trans (h.attempts other).1,
    (h'.attempts other).2.trans (h.attempts other).2⟩
  flags := by
    rcases h'.flags with hlocked | ⟨hsame, hswitching'⟩
    · exact .inl hlocked
    · rcases h.flags with hlocked | ⟨hrecovery, hswitching⟩
      · exact .inl (hsame.trans hlocked)
      · refine .inr ⟨hsame.trans hrecovery, ?_⟩
        rcases hswitching' with heq | hlatest
        · rw [heq]
          exact hswitching
        · rcases h.attempt with heq | hnone
          · exact .inr (heq.symm.trans hlatest)
          · exact absurd (hnone.symm.trans hlatest) nofun

theorem concludes_modifyAttempt (g latest : Nat) (s : State)
    (hprevious : ∀ a, (f a).previousWorkspaceId = a.previousWorkspaceId)
    (hstarted : ∀ a, (f a).nativeActivationStarted = a.nativeActivationStarted) :
    Concludes g s (s.modifyAttempt latest f) := by
  refine ⟨rfl, rfl, .inl rfl, rfl, rfl, rfl, fun other => ?_, .inr ⟨rfl, .inl rfl⟩⟩
  by_cases heq : other = latest
  · subst heq
    simp [modifyAttempt, hprevious, hstarted]
  · simp [modifyAttempt, heq]

theorem concludes_setPhase (g : Nat) (s : State) (phase : ActivationPhase) :
    Concludes g s (s.setPhase g phase) :=
  concludes_modifyAttempt g g s (fun _ => rfl) fun _ => rfl

theorem isLatest_attempt (h : s.isLatest g = true) : s.attempt = some g := by
  simp only [isLatest, Bool.and_eq_true, beq_iff_eq] at h
  exact h.1

/-- The latest attempt takes its flags down. -/
theorem concludes_latest (h : s.attempt = some g) (lockout : Bool) :
    Concludes g s { s with switching := false, hydrating := false, attempt := none,
                           recoveryRequired := s.recoveryRequired || lockout } := by
  refine ⟨rfl, rfl, .inr rfl, rfl, rfl, rfl, fun _ => ⟨rfl, rfl⟩, ?_⟩
  cases lockout with
  | true => exact .inl (Bool.or_true _)
  | false => exact .inr ⟨Bool.or_false _, .inr h⟩

theorem finishAborted_concludes : Concludes g s (finishAbortedQueuedAttempt s g) := by
  unfold finishAbortedQueuedAttempt
  split
  · rename_i hlatest
    simpa using concludes_latest (isLatest_attempt hlatest) false
  · exact Concludes.refl g s

variable (failure : WorkspaceActionFailure)

theorem finishFailure_concludes : Concludes g s (finishActivationFailure s g failure) := by
  unfold finishActivationFailure
  dsimp only
  refine (concludes_setPhase g s .terminal).trans ?_
  split
  · rename_i hlatest
    exact concludes_latest (isLatest_attempt hlatest) _
  · exact Concludes.refl g _

theorem finishOutcome_concludes (outcome : WorkspaceActionOutcome Unit) :
    Concludes g s (finishActivationOutcome s g outcome) := by
  unfold finishActivationOutcome
  dsimp only
  refine (concludes_setPhase g s .terminal).trans ?_
  split
  · rename_i hlatest
    cases outcome with
    | failed failure => exact finishFailure_concludes failure
    | _ => simpa using concludes_latest (isLatest_attempt hlatest) false
  · exact Concludes.refl g _

/-- The lockout. -/
theorem markRecovery_concludes :
    Concludes g s (markRecoveryRequired s g) ∧
      (markRecoveryRequired s g).recoveryRequired = true := by
  unfold markRecoveryRequired
  split
  · exact ⟨⟨rfl, rfl, .inl rfl, rfl, rfl, rfl, fun _ => ⟨rfl, rfl⟩, .inl rfl⟩, rfl⟩
  · rename_i latest _
    split
    · have haborted : Concludes g s (s.modifyAttempt latest fun a => { a with aborted := true }) :=
        concludes_modifyAttempt g latest s (fun _ => rfl) fun _ => rfl
      refine ⟨haborted.trans ?_, rfl⟩
      exact ⟨rfl, rfl, .inl rfl, rfl, rfl, rfl, fun _ => ⟨rfl, rfl⟩, .inl rfl⟩
    · refine ⟨⟨rfl, rfl, ?_, rfl, rfl, rfl, fun _ => ⟨rfl, rfl⟩, .inl rfl⟩, rfl⟩
      unfold enterRecoveryLockout
      dsimp only
      split
      · exact .inr rfl
      · exact .inl rfl

/-- An attempt is over. -/
def Ceases (g : Nat) (s s' : State) : Prop := ∃ s₁, Concludes g s s₁ ∧ s' = s₁.settle g

theorem Concludes.ceases (h : Concludes g s s₁) : Ceases g s (s₁.settle g) := ⟨s₁, h, rfl⟩

theorem reject_ceases (g : Nat) (s : State) : Ceases g s (s.reject g) :=
  ⟨s.record (.rejected g), ⟨rfl, rfl, .inl rfl, rfl, rfl, rfl, fun _ => ⟨rfl, rfl⟩,
    .inr ⟨rfl, .inl rfl⟩⟩, rfl⟩

theorem lockedOut_concludes :
    Concludes g s (finishActivationFailure (markRecoveryRequired s g) g failure) :=
  markRecovery_concludes.1.trans (finishFailure_concludes failure)

variable (restored : Bool)

theorem finishRestored_ceases : Ceases g s (finishRestored s g restored failure) := by
  unfold finishRestored
  split
  · exact (finishFailure_concludes failure).ceases
  · exact (lockedOut_concludes rollbackFailed).ceases

theorem finishOutcome_ceases (outcome : WorkspaceActionOutcome Unit) :
    Ceases g s (finishOutcome s g restored outcome) := by
  unfold finishOutcome
  split
  · exact (finishOutcome_concludes outcome).ceases
  · exact (lockedOut_concludes rollbackFailed).ceases

theorem finishRecovery_ceases (recovered : Bool) (caller : RecoveryCaller) :
    Ceases g s (finishRecovery s g recovered caller) := by
  unfold finishRecovery
  dsimp only
  have hterminal := concludes_setPhase g s .terminal
  split
  · exact (hterminal.trans markRecovery_concludes.1).ceases
  · cases caller with
    | aborted => exact (hterminal.trans finishAborted_concludes).ceases
    | hydrationFailed =>
      dsimp only
      split
      · exact (hterminal.trans (finishFailure_concludes _)).ceases
      · exact hterminal.ceases

/-- Where the rollback has failed, the application is locked. -/
theorem finishRecovery_locked (caller : RecoveryCaller) :
    (finishRecovery s g false caller).recoveryRequired = true := by
  unfold finishRecovery
  exact markRecovery_concludes.2

/-- The view of a rollback is the workspace that is installed. -/
theorem adoptRollbackView_eq {view : Option ActiveWorkspaceViewModel}
    (hview : ∀ v, view = some v → (s.attempts g).previousWorkspaceId = some v.workspaceId) :
    adoptRollbackView s g view = s := by
  unfold adoptRollbackView
  split
  · rfl
  · rename_i v
    split
    · rename_i hcurrent
      rw [hview v rfl] at hcurrent
      rw [← hcurrent]
    · rfl

/-! ## One step of an attempt -/

/-- The coordinator has opened a workspace, and has its document for the active one. -/
def State.opens (s : State) : ActivationEvent → Bool
  | .resume g (.activated (.outcome (.completed _))) =>
    match s.stages g with
    | .invoking => true
    | _ => false
  | .resume g (.reopened (.outcome (.completed _))) =>
    match s.stages g with
    | .reopening _ => true
    | _ => false
  | _ => false

/-- The workspace that a rollback has opened again, if it is the one that it asked for. -/
def State.reopens (s : State) : ActivationEvent → Option ActiveWorkspaceViewModel
  | .resume g (.reopened (.outcome (.completed view))) =>
    match s.stages g with
    | .reopening _ =>
      if (s.attempts g).previousWorkspaceId = some view.workspaceId then some view else none
    | _ => none
  | _ => none

/-- Where the coordinator is once an attempt goes on: maybe elsewhere, where it was, or at the
workspace that was reopened. -/
def Lands (g : Nat) (opened : Bool) (reopened : Option ActiveWorkspaceViewModel)
    (s s' : State) : Prop :=
  (s'.stages g).away = true ∨ (s.attempts g).previousWorkspaceId = none ∨
    opened = false ∧ (s.stages g).away = false ∧ s'.coordinator = s.coordinator ∨
    ∃ view, reopened = some view ∧ s'.coordinator = some view

/-- What an attempt does in one piece, in which the coordinator has come to `active`. -/
inductive Tracks (g : Nat) (opened : Bool) (reopened : Option ActiveWorkspaceViewModel)
    (s s' : State) : Prop
  | goesOn (active : Option ActiveWorkspaceViewModel)
      (h : Continues g { s with coordinator := active } s')
      (h' : Proceeds g { s with coordinator := active } s') (hlands : Lands g opened reopened s s')
  | ends (active : Option ActiveWorkspaceViewModel)
      (h : Ceases g { s with coordinator := active } s')
      (hlands : s'.recoveryRequired = true ∨
        opened = false ∧ (s.stages g).away = false ∧ s'.coordinator = s.coordinator)
  | commits (workspaceId : Option String) (h : Commits g workspaceId s s')
      (hblocked : s'.current = none ∨ s'.switching = true ∨ s.attempt = some g)

variable {opened : Bool} {reopened : Option ActiveWorkspaceViewModel}

theorem Continues.tracks (h : Continues g s s') (h' : Proceeds g s s')
    (hlands : Lands g opened reopened s s') : Tracks g opened reopened s s' :=
  .goesOn s.coordinator h h' hlands

/-- A piece of an attempt that is not away. -/
theorem Continues.near (h : Continues g s s') (h' : Proceeds g s s')
    (hnear : (s.stages g).away = false) : Tracks g false reopened s s' :=
  h.tracks h' (.inr (.inr (.inl ⟨rfl, hnear, h'.holds.coordinator⟩)))

theorem Ceases.near (h : Ceases g s s') (hnear : (s.stages g).away = false) :
    Tracks g false reopened s s' := by
  refine .ends s.coordinator h (.inr ⟨rfl, hnear, ?_⟩)
  obtain ⟨s₁, hconcludes, rfl⟩ := h
  exact hconcludes.coordinator

/-- A piece of an attempt that has called the coordinator. -/
theorem Continues.afar (h : Continues g s s') (h' : Proceeds g s s')
    (haway : (s'.stages g).away = true ∨ (s.attempts g).previousWorkspaceId = none) :
    Tracks g opened reopened s s' := by
  rcases haway with haway | hnone
  · exact h.tracks h' (.inl haway)
  · exact h.tracks h' (.inr (.inl hnone))

theorem hydrationCaught_tracks (hstarted : (s.attempts g).nativeActivationStarted) :
    Tracks g opened reopened s (hydrationCaught participants s g error) :=
  (hydrationCaught_continues error).afar (hydrationCaught_proceeds error)
    (hydrationCaught_lands error hstarted)

/-! ## Beginning -/

theorem startDeletion_proceeds {workspaceId : String}
    (howner : ¬s.OwnerChanged (some workspaceId)) :
    Proceeds g s (startDeletion participants s g workspaceId) := by
  unfold startDeletion
  split
  · rename_i hnone
    exact absurd (ensureTransition_eq_none.1 hnone) howner
  · rename_i hsome
    exact (drain_proceeds _).after
      ((ensureTransition_holds hsome).trans (holds_setPhase g _ .draining))

theorem startDeletion_tracks (hnear : (s.stages g).away = false) :
    Tracks g false reopened s (startDeletion participants s g workspaceId) := by
  by_cases howner : s.OwnerChanged (some workspaceId)
  · have hreject : startDeletion participants s g workspaceId = s.reject g := by
      unfold startDeletion
      rw [ensureTransition_eq_none.2 howner]
    rw [hreject]
    exact (reject_ceases g s).near hnear
  · exact (startDeletion_continues howner).near (startDeletion_proceeds howner) hnear

/-- How an attempt begins: with the workspace that it is to come back to. -/
inductive Begins (g : Nat) (s s' : State) : Prop
  | ends (h : Ceases g s s')
  | goesOn (previousWorkspaceId : Option String)
      (hprevious : previousWorkspaceId = none → s.current = none)
      (h : Tracks g false none
        (s.modifyAttempt g fun a => { a with previousWorkspaceId := previousWorkspaceId }) s')

theorem performActivation_begins (hnear : (s.stages g).away = false) :
    Begins g s (performActivation participants s g) := by
  unfold performActivation
  split
  · exact .ends (finishFailure_concludes rollbackFailed).ceases
  · split
    · exact .ends ((concludes_setPhase g s .terminal).trans finishAborted_concludes).ceases
    · dsimp only
      refine .goesOn s.current id ?_
      split
      · exact (reject_ceases g _).near hnear
      · rename_i t s₁ hsome
        refine near ?_ ?_ hnear
        · exact (drain_continues t).after
            ((ensureTransition_works hsome).trans (works_setPhase g _ rfl))
        · exact (drain_proceeds t).after
            ((ensureTransition_holds hsome).trans (holds_setPhase g _ .draining))

theorem performCurrentDeletion_begins (hnear : (s.stages g).away = false) :
    Begins g s (performCurrentDeletion participants s g workspaceId) := by
  unfold performCurrentDeletion
  split
  · exact .ends (finishFailure_concludes _).ceases
  · dsimp only
    refine .goesOn (some workspaceId) nofun ?_
    split
    · exact startDeletion_tracks workspaceId hnear
    · split
      · exact near (restore_continues _) (restore_plain rfl) hnear
      · exact startDeletion_tracks workspaceId hnear

/-- An attempt begins when it is its turn. -/
theorem begin_begins (participants : List String) :
    begin participants s g = s ∨ s.stages g = .waiting ∧ s.stages (g - 1) = .settled ∧
      Begins g (s.record (.began g)) (begin participants s g) := by
  unfold begin
  split
  · rename_i hturn
    have hnear : ((s.record (.began g)).stages g).away = false := by
      simp [record, hturn.1, away]
    refine .inr ⟨hturn.1, hturn.2, ?_⟩
    dsimp only
    split
    · exact performActivation_begins hnear
    · exact performCurrentDeletion_begins _ hnear
  · exact .inl rfl

/-! ## Going on -/

theorem activateAfterInvoke_tracks (answer : Answer ActiveWorkspaceViewModel)
    (hnear : (s.stages g).away = false) (hstarted : (s.attempts g).nativeActivationStarted) :
    Tracks g (s.opens (.resume g (.activated answer))) reopened s
      (activateAfterInvoke participants s g answer) := by
  unfold activateAfterInvoke abortAndRecoverActivation
  split
  · split
    · exact near (recover_continues _) (recover_proceeds _) hnear
    · exact near (restore_continues _) (restore_plain rfl) hnear
  · rename_i header
    dsimp only
    -- from here on the coordinator has the workspace that was opened
    generalize hs₁ : ({ s with coordinator := some header } : State) = s₁
    have hactivated : Works g s₁ (s₁.modifyAttempt g fun a =>
        { a with activatedWorkspaceId := some header.workspaceId }) :=
      works_modifyAttempt g s₁ (fun _ => rfl) fun _ h => h
    have hheld : Holds g s₁ (s₁.modifyAttempt g fun a =>
        { a with activatedWorkspaceId := some header.workspaceId }) :=
      holds_modifyAttempt g s₁ (fun _ => rfl) fun _ h => h
    have hcalled : (s₁.attempts g).nativeActivationStarted := by rw [← hs₁]; exact hstarted
    have hprevious : (s₁.attempts g).previousWorkspaceId = (s.attempts g).previousWorkspaceId := by
      rw [← hs₁]
    split
    · refine .goesOn (some header) ?_ ?_ ?_
      · rw [hs₁]
        exact (recover_continues _).after hactivated
      · rw [hs₁]
        exact (recover_proceeds _).after hheld
      · rcases recover_lands participants .aborted (hheld.started hcalled) with haway | hnone
        · exact .inl haway
        · exact .inr (.inl (hprevious.symm.trans (hheld.previous.symm.trans hnone)))
    · rename_i hactive
      refine .goesOn (some header) ?_ ?_ (.inl ?_)
      · rw [hs₁]
        exact (hydrate_continues header (by simpa using hactive)).after hactivated
      · rw [hs₁]
        exact (hydrate_proceeds header (hheld.started hcalled)).after hheld
      · simp [hydrateAfterNativeActivation, goTo, away]
  · rename_i outcome hnot
    have hopens : s.opens (.resume g (.activated (.outcome outcome))) = false := by
      cases outcome with
      | completed header => exact absurd rfl (hnot header)
      | _ => rfl
    rw [hopens]
    split
    · exact near (recover_continues _) (recover_proceeds _) hnear
    · exact near (restore_continues _) (restore_plain rfl) hnear

theorem Ceases.after (h : Concludes g s s₁) (h' : Ceases g s₁ s') : Ceases g s s' := by
  obtain ⟨s₂, hconcludes, rfl⟩ := h'
  exact (h.trans hconcludes).ceases

theorem deleteAfterClear_proceeds :
    Proceeds g s (deleteAfterClear participants s g workspaceId) := by
  unfold deleteAfterClear
  split
  · rename_i hnone
    apply startDeletion_proceeds
    rintro ⟨t, ht, -⟩
    exact absurd (hnone.symm.trans ht) nofun
  · refine Proceeds.after ?_ (startDeletion_proceeds ?_)
    · exact ⟨rfl, rfl, rfl, rfl, id⟩
    · rintro ⟨t, ht, -⟩
      exact absurd ht nofun

/-- What an attempt that is not away does on the way to another await or to its end. -/
inductive Follows (g : Nat) (s s' : State) : Prop
  | goesOn (h : Continues g s s') (h' : Proceeds g s s')
  | ends (h : Ceases g s s')

theorem Follows.near (h : Follows g s s') (hnear : (s.stages g).away = false) :
    Tracks g false reopened s s' := by
  cases h with
  | goesOn h h' => exact h.near h' hnear
  | ends h => exact h.near hnear

theorem Follows.after (h : Works g s s₁) (h' : Holds g s s₁) (h'' : Concludes g s s₁)
    (hfollows : Follows g s₁ s') : Follows g s s' := by
  cases hfollows with
  | goesOn hcontinues hproceeds => exact .goesOn (hcontinues.after h) (hproceeds.after h')
  | ends hceases => exact .ends (hceases.after h'')

theorem continueAfterRestore_follows (hview : ∀ view, next.view = some view →
      (s.attempts g).previousWorkspaceId = some view.workspaceId) :
    Follows g s (continueAfterRestore participants s g restored next) := by
  unfold continueAfterRestore abortAndRecoverActivation
  split
  · split
    · exact .goesOn (recover_continues _) (recover_proceeds _)
    · exact .ends (finishRestored_ceases _ _)
  · exact .ends (finishRestored_ceases _ _)
  · exact .ends (finishOutcome_ceases _ _)
  · exact .ends (finishOutcome_ceases _ _)
  · rename_i caller view
    have hadopt : adoptRollbackView s g view = s := adoptRollbackView_eq hview
    rw [hadopt, ite_self]
    exact .ends (finishRecovery_ceases _ _)
  · exact .goesOn (deleteAfterClear_continues _) (deleteAfterClear_proceeds _)

theorem endRestore_follows (transition : Option Nat) (anyFailed : Bool)
    (hview : ∀ view, next.view = some view →
      (s.attempts g).previousWorkspaceId = some view.workspaceId) :
    Follows g s (endRestore participants s g transition anyFailed next) := by
  unfold endRestore
  split
  · exact continueAfterRestore_follows _ hview
  · rename_i t
    split
    · exact continueAfterRestore_follows _ hview
    · refine Follows.after ?_ ?_ ?_ (continueAfterRestore_follows _ ?_)
      · exact (works_record g s rfl).trans (works_closeTransition g _ t)
      · exact ⟨rfl, rfl, rfl, rfl, id⟩
      · exact ⟨rfl, rfl, .inl rfl, rfl, rfl, rfl, fun _ => ⟨rfl, rfl⟩, .inr ⟨rfl, .inl rfl⟩⟩
      · exact hview

theorem recoverAfterReopen_tracks {caller : RecoveryCaller}
    (answer : Answer ActiveWorkspaceViewModel) (hstage : s.stages g = .reopening caller) :
    Tracks g opened (s.reopens (.resume g (.reopened answer))) s
      (recoverAfterReopen participants s g caller answer) := by
  unfold recoverAfterReopen
  split
  · rename_i view
    dsimp only
    split
    · exact .ends (some view) (finishRecovery_ceases false caller)
        (.inl (finishRecovery_locked caller))
    · rename_i hprevious
      rw [not_not] at hprevious
      refine .goesOn (some view) (restore_continues _) (restore_proceeds ?_) ?_
      · rintro _ ⟨⟩
        exact hprevious
      · refine .inr (.inr (.inr ⟨view, ?_, ?_⟩))
        · simp [reopens, hstage, hprevious]
        · refine (restore_proceeds ?_).holds.coordinator
          rintro _ ⟨⟩
          exact hprevious
  · exact .ends s.coordinator (finishRecovery_ceases false caller)
      (.inl (finishRecovery_locked caller))

/-! ## Commits -/

/-- Where a later request waits, the switch goes on. -/
theorem installHydrated_switching (header : ActiveWorkspaceViewModel) (commitThrows : Option String)
    (hlater : s.attempt ≠ some g) :
    (installHydratedWorkspace participants (s.commitFacade g (some header.workspaceId)) g header
      commitThrows).switching = true := by
  unfold installHydratedWorkspace
  dsimp only
  rw [if_neg]
  rw [(commitStopped_works (g := g) header commitThrows).attempt]
  exact hlater

theorem commitHydration_tracks (header : ActiveWorkspaceViewModel)
    (staged : WorkspaceHydrationStaging) (commitThrows : Option String)
    (hstarted : (s.attempts g).nativeActivationStarted) :
    Tracks g opened reopened s (commitHydration participants s g t header staged commitThrows) := by
  unfold commitHydration
  split
  · exact hydrationCaught_tracks _ hstarted
  · rename_i howns
    split
    · exact hydrationCaught_tracks _ hstarted
    · have haborted : (s.attempts g).aborted = false := by
        simp only [assertAttemptOwnsRuntimeTransition, Bool.not_eq_true', Bool.not_eq_false,
          Bool.and_eq_true] at howns
        exact isActive_not_aborted howns.1
      have hcommits := @installHydrated_commits g s participants header commitThrows haborted
      refine .commits _ hcommits ?_
      by_cases hlatest : s.attempt = some g
      · exact .inr (.inr hlatest)
      · refine .inr (.inl ?_)
        exact installHydrated_switching header commitThrows hlatest

theorem commitTransition_current (throws : Option String) :
    (commitTransition participants s t throws).current = s.current := by
  unfold commitTransition
  cases throws <;> rfl

theorem commitDeletion_tracks (commitThrows : Option String) :
    Tracks g opened reopened s (commitDeletion participants s g t workspaceId commitThrows) := by
  refine .commits none (commitDeletion_commits t workspaceId commitThrows) (.inl ?_)
  unfold commitDeletion
  dsimp only
  exact commitTransition_current t commitThrows

/-! ## One reply -/

/-- What is known of an attempt at its await. -/
structure Awaits (s : State) (g : Nat) : Prop where
  started : (s.stages g).native → (s.attempts g).nativeActivationStarted
  rolledBack : ∀ view, (s.stages g).rollback = some view →
    (s.attempts g).previousWorkspaceId = some view.workspaceId

/-- The stage of an attempt is no place where the coordinator may be elsewhere. -/
theorem near_of_stage (hstage : s.stages g = stage) (h : stage.away = false) :
    (s.stages g).away = false := by rwa [hstage]

theorem Awaits.called (h : Awaits s g) (hstage : s.stages g = stage) (hnative : stage.native) :
    (s.attempts g).nativeActivationStarted :=
  h.started (by rwa [hstage])

theorem Awaits.view {transition : Option Nat} {rest : List String} {anyFailed : Bool}
    (h : Awaits s g) (hstage : s.stages g = .restoring transition rest anyFailed next) :
    ∀ view, next.view = some view → (s.attempts g).previousWorkspaceId = some view.workspaceId := by
  have hrolledBack := h.rolledBack
  rw [hstage] at hrolledBack
  exact hrolledBack

/-- Who opens a workspace waits for it. -/
theorem opens_stage {reply : Reply} (h : s.opens (.resume g reply) = true) :
    (∃ answer, s.stages g = .invoking ∧ reply = .activated answer) ∨
      ∃ caller answer, s.stages g = .reopening caller ∧ reply = .reopened answer := by
  unfold opens at h
  split at h
  · rename_i heq
    cases heq
    split at h
    · exact .inl ⟨_, ‹_›, rfl⟩
    · cases h
  · rename_i heq
    cases heq
    split at h
    · exact .inr ⟨_, _, ‹_›, rfl⟩
    · cases h
  · cases h

theorem resume_tracks (participants : List String) (h : Awaits s g) (reply : Reply) :
    resume participants s g reply = s ∧ s.opens (.resume g reply) = false ∨
      Tracks g (s.opens (.resume g reply)) (s.reopens (.resume g reply)) s
        (resume participants s g reply) := by
  by_cases hopens : s.opens (.resume g reply) = true
  · right
    rcases opens_stage hopens with ⟨answer, hstage, rfl⟩ | ⟨caller, answer, hstage, rfl⟩
    · have hresume : resume participants s g (.activated answer) =
          activateAfterInvoke participants s g answer := by
        unfold resume
        rw [hstage]
      rw [hresume]
      exact activateAfterInvoke_tracks _ (near_of_stage hstage rfl) (h.called hstage rfl)
    · have hresume : resume participants s g (.reopened answer) =
          recoverAfterReopen participants s g caller answer := by
        unfold resume
        rw [hstage]
      rw [hresume]
      exact recoverAfterReopen_tracks _ hstage
  unfold resume
  split
  · rename_i t p rest _ hstage
    refine .inr (near ?_ ?_ (near_of_stage hstage rfl))
    · refine after ?_ (quiesceFrom_continues t rest)
      exact (works_modifyProgress g s t _).trans (works_record g _ rfl)
    · refine Proceeds.after ?_ (quiesceFrom_proceeds t rest)
      exact ⟨rfl, rfl, rfl, rfl, id⟩
  · rename_i hstage
    refine .inr (near ?_ ?_ (near_of_stage hstage rfl))
    · exact (works_record g s rfl).continues rfl
    · exact (holds_record g s _).plain rfl rfl
  · rename_i hstage
    exact .inr ((endQuiesce_continues _ _).near (endQuiesce_proceeds _ _)
      (near_of_stage hstage rfl))
  · rename_i hstage
    exact .inr ((drainAfterSaves_continues _ _ _).near (drainAfterSaves_proceeds _ _ _)
      (near_of_stage hstage rfl))
  · rename_i hstage
    exact .inr ((afterDrain_continues _ _).near (afterDrain_proceeds _ _)
      (near_of_stage hstage rfl))
  · rename_i hstage
    exact .inr ((reject_ceases g s).near (near_of_stage hstage rfl))
  · rename_i hstage
    exact .inr (activateAfterInvoke_tracks _ (near_of_stage hstage rfl) (h.called hstage rfl))
  · rename_i header staging hstage
    obtain ⟨hproceeds, haway⟩ :=
      swapAfterStaging_proceeds participants header staging (h.called hstage rfl)
    exact .inr ((swapAfterStaging_continues header staging).afar hproceeds haway)
  · rename_i hstage
    exact .inr (hydrationCaught_tracks _ (h.called hstage rfl))
  · rename_i header staged t _ hstage
    obtain ⟨hproceeds, haway⟩ :=
      prepareSwap_proceeds participants t header staged (h.called hstage rfl)
    exact .inr ((prepareSwap_continues t header staged).afar hproceeds haway)
  · rename_i header staged t p rest _ hstage
    refine .inr (afar ?_ ?_ (.inl (disposeFrom_stage t rest fun _ _ => rfl)))
    · refine after ?_ (disposeFrom_continues t rest fun _ _ => rfl)
      exact (works_modifyProgress g s t _).trans (works_record g _ rfl)
    · refine Proceeds.after ?_ (disposeFrom_proceeds t rest ?_ fun _ _ => rfl)
      · exact ⟨rfl, rfl, rfl, rfl, id⟩
      · exact fun _ _ _ => h.called hstage rfl
  · rename_i hstage
    refine .inr (afar ((works_record g s rfl).continues rfl) ?_ (.inl ?_))
    · exact (holds_record g s _).called (h.called hstage rfl) rfl
    · simp [goTo, away]
  · rename_i hstage
    exact .inr (hydrationCaught_tracks _ (h.called hstage rfl))
  · rename_i header staged t _ hstage
    have hdisposed : Holds g s (s.modifyTransition t fun transition =>
        { transition with disposeCompleted := true }) := ⟨rfl, rfl, rfl, rfl, id⟩
    obtain ⟨hproceeds, haway⟩ := activateStopped_proceeds participants t header staged
        (hdisposed.started (h.called hstage rfl))
    refine .inr (afar ?_ (hproceeds.after hdisposed) haway)
    exact (activateStopped_continues t header staged).after (works_modifyTransition g s t _)
  · rename_i t p rest _ hstage
    refine .inr (afar ?_ ?_ (.inl ?_))
    · exact (works_modifyProgress g s t _).continues rfl
    · exact called ⟨rfl, rfl, rfl, rfl, id⟩ (h.called hstage rfl) rfl
    · simp [activateStoppedFrom, goTo, away]
  · rename_i hstage
    refine .inr (afar ((Works.refl g s).continues rfl) ?_ (.inl ?_))
    · exact (refl g s).called (h.called hstage rfl) rfl
    · simp [goTo, away]
  · rename_i hstage
    exact .inr (hydrationCaught_tracks _ (h.called hstage rfl))
  · rename_i hstage
    exact .inr (commitHydration_tracks _ _ _ _ (h.called hstage rfl))
  · rename_i hstage
    exact .inr ((disposeForDeletion_continues _ _).near (disposeForDeletion_proceeds _ _)
      (near_of_stage hstage rfl))
  · rename_i t p rest _ hstage
    refine .inr (near ?_ ?_ (near_of_stage hstage rfl))
    · refine after ?_ (disposeFrom_continues t rest fun _ _ => rfl)
      exact (works_modifyProgress g s t _).trans (works_record g _ rfl)
    · refine Proceeds.after ?_ (disposeFrom_proceeds t rest ?_ fun _ _ => rfl)
      · exact ⟨rfl, rfl, rfl, rfl, id⟩
      · simp [native]
  · rename_i hstage
    refine .inr (near ?_ ?_ (near_of_stage hstage rfl))
    · exact (works_record g s rfl).continues rfl
    · exact (holds_record g s _).plain rfl rfl
  · rename_i hstage
    exact .inr ((deleteNative_continues _ _).near (deleteNative_proceeds _ _)
      (near_of_stage hstage rfl))
  · rename_i t _ hstage
    refine .inr (near ?_ ?_ (near_of_stage hstage rfl))
    · exact (deleteNative_continues t _).after (works_modifyTransition g s t _)
    · refine Proceeds.after ?_ (deleteNative_proceeds t _)
      exact ⟨rfl, rfl, rfl, rfl, id⟩
  · exact .inr (commitDeletion_tracks _ _ _)
  · rename_i hstage
    exact .inr ((restore_continues _).near (restore_plain rfl) (near_of_stage hstage rfl))
  · rename_i hstage
    exact .inr ((reject_ceases g s).near (near_of_stage hstage rfl))
  · rename_i hstage
    exact .inr (recoverAfterReopen_tracks _ hstage)
  · rename_i t p rest anyFailed next _ hstage
    refine .inr (near ?_ ?_ (near_of_stage hstage rfl))
    · refine after ?_ (restoreFrom_continues t rest anyFailed next)
      exact (works_modifyProgress g s t _).trans (works_record g _ rfl)
    · refine Proceeds.after ?_ (restoreFrom_proceeds t rest anyFailed ?_)
      · exact ⟨rfl, rfl, rfl, rfl, id⟩
      · exact h.view hstage
  · rename_i t p rest _ next _ hstage
    refine .inr (near ?_ ?_ (near_of_stage hstage rfl))
    · exact (restoreFrom_continues t rest true next).after (works_record g s rfl)
    · refine Proceeds.after (holds_record g s _) (restoreFrom_proceeds t rest true ?_)
      exact h.view hstage
  · rename_i hstage
    exact .inr ((endRestore_follows _ _ (h.view hstage)).near (near_of_stage hstage rfl))
  · exact .inl ⟨rfl, by simpa using hopens⟩

end bbcom.workspace_activation
