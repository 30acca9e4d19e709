-- The disposal, the hydration, the deletion and the commits of an attempt keep the books of the
-- runtime transitions (`activation-coordinator.ts`, `hydration-pipeline.ts`), and so does each
-- piece of an attempt.
import Bbcom.TransitionStages

namespace bbcom.workspace_activation

open QuiesceOver List State Happening Function Quiet

variable {participants : List String} {g t : Nat} {s s₁ : State}

/-! ## Disposal -/

variable {rest : List String} {p : String} {anyFailed : Bool}

theorem disposeFrom_fine (hbooked : s.Booked participants) (hquiet : s.Quiet participants)
    (hcurrent : s.runtimeTransition = some t)
    (hdone : UpTo participants rest fun p => OwnId s.log t → .disposed t p ∈ s.log)
    {stage : List String → Option HydrationError → Stage}
    (hrunning : ∀ rest error, (stage rest error).running = true)
    (hstage : ∀ log rest, QuiesceOver participants log s.transitions s.runtimeTransition →
      DisposedUpTo participants rest log t →
      StageOk participants log s.transitions s.runtimeTransition (stage rest none)) :
    Fine participants g (disposeFrom s g t rest stage) := by
  have hopen := hbooked.standing hcurrent
  have hmem : ∀ q, OwnId s.log t →
      ((s.forTransition t).disposed.contains q = true ↔ .disposed t q ∈ s.log) := by
    intro q hown
    rw [contains_iff_mem, (hopen.recorded hown).disposed]
  unfold disposeFrom
  rcases dropWhile_cases (s.forTransition t).disposed.contains rest with
    ⟨hnil, hall⟩ | ⟨skipped, p, rest', hcons, hrest, htest, hskipped⟩
  · rw [hnil]
    have hpassed : rest = rest ++ [] := (append_nil rest).symm
    refine fine_goTo hbooked (hrunning _ _) (hstage _ _ hquiet ⟨?_, nofun⟩)
    exact hdone.skip hpassed fun q hq hown => (hmem q hown).1 (hall q hq)
  · rw [hcons]
    dsimp only
    have hrecords : (s.record (.disposeStarted t p)).Booked participants :=
      hbooked.records hcurrent rfl rfl (hbooked.not_over hcurrent) fun _ => rfl
    refine fine_goTo hrecords (hrunning _ _)
      (hstage _ _ (cons hquiet rfl) ⟨?_, fun q hq hown hdisposed => ?_⟩)
    · have hdone' := hdone.skip hrest fun q hq hown => (hmem q hown).1 (hskipped q hq)
      exact hdone'.imp fun q hq hown => mem_cons_of_mem _ (hq (ownId_of_cons rfl hown))
    · cases hq
      rcases mem_cons.1 hdisposed with heq | hmem'
      · cases heq
      · rw [(hmem p (ownId_of_cons rfl hown)).2 hmem'] at htest
        cases htest

section

variable (hbooked : s.Booked participants) (hcurrent : s.runtimeTransition = some t)
include hbooked hcurrent

/-- The flags that the disposal sets leave the rest of the current transition. -/
theorem disposeStarted_booked :
    (s.modifyTransition t fun transition => { transition with disposeStarted := true }).Booked
      participants := by
  have hopen := hbooked.standing hcurrent
  refine hbooked.adjusts hcurrent (fun _ => rfl) (fun _ => rfl) ?_
  exact { hopen with disposed := fun _ _ => rfl }

theorem disposeCompleted_booked (hdone : DisposedUpTo participants [] s.log t) :
    (s.modifyTransition t fun transition => { transition with disposeCompleted := true }).Booked
      participants := by
  have hopen := hbooked.standing hcurrent
  refine hbooked.adjusts hcurrent (fun _ => rfl) (fun _ => rfl) ?_
  refine { hopen with disposeCompleted := fun hown _ p hp => ?_ }
  obtain ⟨done, hsplit, hall⟩ := hdone.1
  rw [append_nil] at hsplit
  exact hall p (hsplit ▸ hp) hown

/-- One participant of the loop is disposed of. -/
theorem disposed_booked (hstarted : (s.transitions t).disposeStarted = true)
    (hdone : DisposedUpTo participants (p :: rest) s.log t) :
    ((s.modifyProgress t fun progress =>
      { progress with disposed := p :: progress.disposed }).record (.disposed t p)).Booked
        participants ∧
      UpTo participants rest fun q =>
        OwnId (.disposed t p :: s.log) t → .disposed t q ∈ disposed t p :: s.log := by
  refine ⟨hbooked.notes hcurrent rfl rfl (hdone.2 p rfl) nofun fun _ _ => hstarted, ?_⟩
  have hpassed : UpTo participants (p :: rest) fun q =>
      OwnId (.disposed t p :: s.log) t → .disposed t q ∈ disposed t p :: s.log :=
    hdone.1.imp fun q hq hown => mem_cons_of_mem _ (hq (ownId_of_cons rfl hown))
  refine hpassed.skip (singleton_append ..).symm fun q hq _ => ?_
  rw [mem_singleton.1 hq]
  exact mem_cons_self

end

/-! ## Hydration -/

theorem swapAfterStaging_fine (hnodup : participants.Nodup) (hbooked : s.Booked participants)
    (hquiet : s.Quiet participants) (header : ActiveWorkspaceViewModel)
    (staged : WorkspaceHydrationStaging) :
    Fine participants g (swapAfterStaging participants s g header staged) := by
  unfold swapAfterStaging
  split
  · exact hydrationCaught_fine hnodup hbooked hquiet _
  · split
    · exact hydrationCaught_fine hnodup hbooked hquiet _
    · rename_i hsome
      obtain ⟨hbooked', hquiet', -⟩ := ensureTransition_books hbooked hquiet hsome
      exact fine_goTo hbooked' rfl hquiet'

theorem activateAfterInvoke_fine (hnodup : participants.Nodup) (hbooked : s.Booked participants)
    (hquiet : s.Quiet participants) (answer : Answer ActiveWorkspaceViewModel) :
    Fine participants g (activateAfterInvoke participants s g answer) := by
  unfold activateAfterInvoke
  split
  · split
    · exact abortAndRecover_fine hnodup hbooked hquiet
    · exact restore_fine hnodup hbooked hquiet _
  · dsimp only
    rename_i header
    have hbooked' : Booked participants { s with coordinator := some header } := hbooked
    have hquiet' : Quiet participants { s with coordinator := some header } := hquiet
    split
    · apply abortAndRecover_fine hnodup
      · exact hbooked'.modifyAttempt g _
      · exact hquiet'.modifyAttempt g _
    · exact fine_goTo hbooked' rfl hquiet'
  · split
    · exact abortAndRecover_fine hnodup hbooked hquiet
    · exact restore_fine hnodup hbooked hquiet _

theorem owns_current (h : (!assertAttemptOwnsRuntimeTransition s g t) = false) :
    s.runtimeTransition = some t := by
  simp only [assertAttemptOwnsRuntimeTransition, Bool.not_eq_false', Bool.and_eq_true,
    beq_iff_eq] at h
  exact h.2

theorem activateStopped_fine (hnodup : participants.Nodup) (hbooked : s.Booked participants)
    (hquiet : s.Quiet participants)
    (hdisposed : (s.transitions t).previousWorkspaceId.isSome = true →
      (s.transitions t).disposeCompleted = true) (header : ActiveWorkspaceViewModel)
    (staged : WorkspaceHydrationStaging) :
    Fine participants g (activateStopped participants s g t header staged) := by
  unfold activateStopped
  split
  · exact hydrationCaught_fine hnodup hbooked hquiet _
  · rename_i howns
    have hcurrent := owns_current (by simpa using howns)
    have hopen := hbooked.standing hcurrent
    have hstopped : (s.modifyTransition t fun transition =>
        { transition with stoppedWorkspaceId := some header.workspaceId }).Booked participants := by
      refine hbooked.adjusts hcurrent (fun _ => rfl) (fun _ => rfl) ?_
      exact { hopen with }
    have hself : (s.modifyTransition t fun transition =>
        { transition with stoppedWorkspaceId := some header.workspaceId }).transitions t =
          { s.transitions t with stoppedWorkspaceId := some header.workspaceId } :=
      update_self ..
    refine fine_goTo hstopped rfl
      ⟨hquiet.adjusts (fun _ => rfl) fun _ => rfl, hcurrent, congrArg _ hself, fun hsome => ?_⟩
    rw [hself] at hsome ⊢
    exact hdisposed hsome

theorem prepareSwap_fine (hnodup : participants.Nodup) (hbooked : s.Booked participants)
    (hquiet : s.Quiet participants) (header : ActiveWorkspaceViewModel)
    (staged : WorkspaceHydrationStaging) :
    Fine participants g (prepareRuntimeFacadeSwap participants s g t header staged) := by
  unfold prepareRuntimeFacadeSwap
  split
  · exact hydrationCaught_fine hnodup hbooked hquiet _
  · rename_i howns
    have hcurrent := owns_current (by simpa using howns)
    split
    · dsimp only
      refine disposeFrom_fine (disposeStarted_booked hbooked hcurrent)
        (hquiet.adjusts (fun _ => rfl) fun _ => rfl) hcurrent ⟨[], rfl, nofun⟩ (fun _ _ => rfl)
        fun log rest hover hdone => ⟨hover, hcurrent, ?_, fun _ => hdone⟩
      simp [modifyTransition]
    · rename_i hnone
      refine activateStopped_fine hnodup hbooked hquiet (fun hsome => ?_) header staged
      by_contra hnot
      rw [hsome] at hnone
      simp [hnot] at hnone

/-- A participant of the new workspace is activated. -/
theorem activated_booked (hbooked : s.Booked participants) (hcurrent : s.runtimeTransition = some t)
    (p : String) :
    (s.modifyProgress t fun progress =>
      { progress with activated := p :: progress.activated }).Booked participants := by
  have hopen := hbooked.standing hcurrent
  unfold Booked at hbooked ⊢
  rw [hcurrent] at hbooked
  have hopen' : Open participants s.log t (s.transitions t)
      { s.forTransition t with activated := p :: (s.forTransition t).activated } := by
    refine { hopen with recorded := fun hown => ?_ }
    exact { hopen.recorded hown with }
  have htouch := hbooked.touch [] nofun nofun hbooked.lawful rfl rfl hopen'
  rw [update_eq_self] at htouch
  change Books participants s.log s.transitions s.transitionCount s.runtimeTransition _
  rw [hcurrent]
  exact htouch

/-! ## The native deletion -/

theorem deleteNative_fine (hbooked : s.Booked participants) (hquiet : s.Quiet participants)
    (hcurrent : s.runtimeTransition = some t) (hquieted : Quieted (s.transitions t))
    (workspaceId : String) : Fine participants g (deleteNative s g t workspaceId) := by
  have hnative : (s.record (.nativeDeletion t)).Booked participants := by
    refine hbooked.records hcurrent rfl rfl (fun hof hown => ?_) fun _ => rfl
    rcases quiesced_or_failed hbooked hquiet hcurrent hquieted hof hown with ⟨-, hall⟩ | hfailed
    · exact .inl hall
    · exact .inr hfailed
  exact fine_goTo hnative rfl ⟨cons hquiet rfl, hcurrent, mem_cons_self⟩

variable {workspaceId : String}

theorem disposeForDeletion_fine (hbooked : s.Booked participants)
    (hstage : s.StageOk participants (.disposalQueued workspaceId t)) :
    Fine participants g (disposeForDeletion participants s g t workspaceId) := by
  obtain ⟨hquiet, hcurrent, hquieted⟩ := hstage
  have hbooked' := disposeStarted_booked hbooked hcurrent
  have hquiet' : (s.modifyTransition t fun transition =>
      { transition with disposeStarted := true }).Quiet participants :=
    adjusts hquiet (fun _ => rfl) fun _ => rfl
  have hself : (s.modifyTransition t fun transition =>
      { transition with disposeStarted := true }).transitions t =
        { s.transitions t with disposeStarted := true } := update_self ..
  have hquieted' : Quieted ((s.modifyTransition t fun transition =>
      { transition with disposeStarted := true }).transitions t) := by
    rw [hself]
    exact hquieted
  unfold disposeForDeletion
  dsimp only
  split
  · refine disposeFrom_fine hbooked' hquiet' hcurrent ⟨[], rfl, nofun⟩ (fun _ _ => rfl)
      fun log rest hover hdone => ⟨hover, hcurrent, hquieted', ?_, fun _ => hdone⟩
    rw [hself]
  · exact deleteNative_fine hbooked' hquiet' hcurrent hquieted' workspaceId

/-! ## After a restore -/

theorem adoptRollbackView_shelves (s : State) (g : Nat) (view : Option ActiveWorkspaceViewModel) :
    Shelves s (adoptRollbackView s g view) := by
  unfold adoptRollbackView
  split
  · exact Shelves.refl s
  · split
    · exact ⟨rfl, rfl, rfl, rfl, rfl, id⟩
    · exact Shelves.refl s

section

variable (hnodup : participants.Nodup) (hbooked : s.Booked participants)
include hnodup hbooked

theorem continueAfterRestore_fine (hquiet : s.Quiet participants) {restored : Bool}
    (hleft : s.Restored restored) (next : AfterRestore) :
    Fine participants g (continueAfterRestore participants s g restored next) := by
  unfold continueAfterRestore
  split
  · split
    · exact abortAndRecover_fine hnodup hbooked hquiet
    · exact finishRestored_fine hbooked hquiet hleft _
  · exact finishRestored_fine hbooked hquiet hleft _
  · exact finishOutcome_fine hbooked hquiet hleft _
  · exact finishOutcome_fine hbooked hquiet hleft _
  · rename_i caller view
    cases restored with
    | true =>
      have hadopted := adoptRollbackView_shelves s g view
      have hnone : (adoptRollbackView s g view).runtimeTransition = none :=
        hadopted.current.trans (hleft.1 rfl)
      exact finishRecovery_fine (hadopted.booked hbooked) (of_none hnone)
        (fun _ => hnone) caller
    | false =>
      exact finishRecovery_fine hbooked hquiet (fun h => absurd h Bool.false_ne_true) caller
  · refine deleteAfterClear_fine hbooked hquiet (fun t hcurrent => ?_) _
    cases restored with
    | true => exact absurd ((hleft.1 rfl).symm.trans hcurrent) nofun
    | false =>
      obtain ⟨t', p, hcurrent', hfailed⟩ := hleft.2 rfl
      cases hcurrent.symm.trans hcurrent'
      exact ⟨p, hfailed⟩

theorem endRestore_fine {transition : Option Nat} {next : AfterRestore}
    (hstage : s.StageOk participants (.restoring transition [] anyFailed next)) :
    Fine participants g (endRestore participants s g transition anyFailed next) := by
  obtain ⟨hquiet, hcurrent, hdone⟩ := hstage
  unfold endRestore
  cases transition with
  | none => exact continueAfterRestore_fine hnodup hbooked hquiet (restored_of_none hcurrent) next
  | some t =>
    obtain ⟨⟨done, hsplit, hall⟩, hfailed⟩ := hdone t rfl
    dsimp only
    cases anyFailed with
    | true =>
      obtain ⟨p, hp⟩ := hfailed rfl
      exact continueAfterRestore_fine hnodup hbooked hquiet (not_restored hcurrent hp) next
    | false =>
      have hrestored : Orderly participants s.log (.transitionRestored t) := by
        refine ⟨hbooked.not_over hcurrent, fun hown p hp hstarted => ?_⟩
        rw [append_nil] at hsplit
        rcases hall p (hsplit ▸ mem_reverse.2 hp) hown hstarted with hmem | ⟨-, hany⟩
        · exact hmem
        · cases hany
      have hclosed := closeTransition_booked hbooked hcurrent (.inr (.inl rfl)) hrestored
      have hnone : ((s.record (.transitionRestored t)).closeTransition t).runtimeTransition =
          none := if_pos hcurrent
      refine continueAfterRestore_fine hnodup ?_ (of_none hnone)
        (restored_of_none hnone) next
      unfold Booked
      rw [hnone]
      exact hclosed

theorem recoverAfterReopen_fine (hquiet : s.Quiet participants) (caller : RecoveryCaller)
    (answer : Answer ActiveWorkspaceViewModel) :
    Fine participants g (recoverAfterReopen participants s g caller answer) := by
  unfold recoverAfterReopen
  split
  · rename_i view
    have hbooked' : Booked participants { s with coordinator := some view } := hbooked
    have hquiet' : Quiet participants { s with coordinator := some view } := hquiet
    dsimp only
    split
    · exact finishRecovery_fine hbooked' hquiet' (fun h => absurd h Bool.false_ne_true) caller
    · exact restore_fine hnodup hbooked' hquiet' _
  · exact finishRecovery_fine hbooked hquiet (fun h => absurd h Bool.false_ne_true) caller

end

/-! ## Commits -/

/-- The current transition commits. -/
theorem commitTransition_booked (hbooked : s.Booked participants)
    (hcurrent : s.runtimeTransition = some t)
    (horderly : Orderly participants s.log (.transitionCommitted t)) (throws : Option String) :
    ((commitTransition participants s t throws).closeTransition t).Booked participants ∧
      ((commitTransition participants s t throws).closeTransition t).runtimeTransition = none := by
  have hclosed : ((commitTransition participants s t throws).closeTransition t).runtimeTransition =
      none := by
    unfold commitTransition
    cases throws <;> exact if_pos hcurrent
  refine ⟨?_, hclosed⟩
  unfold Booked at hbooked ⊢
  rw [hcurrent] at hbooked
  rw [hclosed]
  unfold commitTransition
  cases throws with
  | none => exact hbooked.close (.inl rfl) horderly _
  | some p => exact hbooked.close (.inl rfl) horderly _

theorem fine_settle_of_none (hbooked : s.Booked participants) (hnone : s.runtimeTransition = none) :
    Fine participants g (s.settle g) :=
  fine_settle hbooked ⟨of_none hnone, .inl hnone⟩

theorem commitHydration_fine (hnodup : participants.Nodup) (hbooked : s.Booked participants)
    {header : ActiveWorkspaceViewModel} {staged : WorkspaceHydrationStaging}
    {error : Option HydrationError}
    (hstage : s.StageOk participants (.swapActivating header staged t rest error))
    (commitThrows : Option String) :
    Fine participants g (commitHydration participants s g t header staged commitThrows) := by
  obtain ⟨hquiet, hcurrent, hstopped, hdisposed⟩ := hstage
  unfold commitHydration
  split
  · exact hydrationCaught_fine hnodup hbooked hquiet _
  · split
    · exact hydrationCaught_fine hnodup hbooked hquiet _
    · dsimp only
      have hfacade : (s.commitFacade g (some header.workspaceId)).Booked participants :=
        (Booked.notes_other (s := (s.setPhase g .committing).record (.committing g))
          (Booked.notes_other (hbooked.modifyAttempt g _) rfl) rfl)
      generalize hs₁ : s.commitFacade g (some header.workspaceId) = s₁ at hfacade ⊢
      have hcurrent₁ : s₁.runtimeTransition = some t := hs₁ ▸ hcurrent
      have htransitions : s₁.transitions = s.transitions := hs₁ ▸ rfl
      have horderly : Orderly participants s₁.log (.transitionCommitted t) := by
        refine ⟨hfacade.not_over hcurrent₁, fun hof hown => .inr ?_⟩
        have hsome := Books.ofWorkspace_previous hfacade hof
        refine (hfacade.standing hcurrent₁).disposeCompleted hown ?_
        rw [htransitions] at hsome ⊢
        exact hdisposed hsome
      -- the transition stopped the runtimes of this very workspace
      have hcommits : ∀ s₂ : State, s₂.Booked participants → s₂.runtimeTransition = some t →
          s₂.transitions = s.transitions → s₂.log = s₁.log →
          (commitStopped participants s₂ header commitThrows).Booked participants ∧
            (commitStopped participants s₂ header commitThrows).runtimeTransition = none := by
        intro s₂ hbooked₂ hcurrent₂ htransitions₂ hlog₂
        unfold commitStopped
        rw [hcurrent₂]
        dsimp only
        rw [htransitions₂, if_pos hstopped]
        exact commitTransition_booked hbooked₂ hcurrent₂ (hlog₂ ▸ horderly) commitThrows
      unfold installHydratedWorkspace
      dsimp only
      obtain ⟨hdone, hnone⟩ := hcommits (setPhase { s₁ with
        current := some header.workspaceId, recoveryRequired := false, hydrating := false } g
          .terminal) hfacade hcurrent₁ htransitions rfl
      split
      · exact fine_settle_of_none hdone hnone
      · exact fine_settle_of_none hdone hnone

theorem commitDeletion_fine (hbooked : s.Booked participants)
    (hstage : s.StageOk participants (.deleting workspaceId t)) (commitThrows : Option String) :
    Fine participants g (commitDeletion participants s g t workspaceId commitThrows) := by
  obtain ⟨-, hcurrent, hdeleted⟩ := hstage
  unfold commitDeletion
  dsimp only
  generalize hs₁ : (if s.activeWorkspaceId = some workspaceId then { s with coordinator := none }
    else s) = s₁
  have hsame : s₁.Booked participants ∧ s₁.runtimeTransition = some t ∧ s₁.log = s.log := by
    rw [← hs₁]
    split
    · exact ⟨hbooked, hcurrent, rfl⟩
    · exact ⟨hbooked, hcurrent, rfl⟩
  obtain ⟨hbooked₁, hcurrent₁, hlog₁⟩ := hsame
  have hfacade : ((s₁.record (.workspaceDeleted g)).commitFacade g none).Booked participants := by
    have hnoted := hbooked₁.notes_other (e := .workspaceDeleted g) rfl
    have hcommitting : (((s₁.record (.workspaceDeleted g)).setPhase g .committing).record
        (.committing g)).Booked participants :=
      (hnoted.modifyAttempt g _).notes_other rfl
    exact hcommitting.notes_other (e := .facadeReplaced g none) rfl
  generalize hs₂ : (s₁.record (.workspaceDeleted g)).commitFacade g none = s₂ at hfacade ⊢
  have hcurrent₂ : s₂.runtimeTransition = some t := hs₂ ▸ hcurrent₁
  have hdeleted₂ : .nativeDeletion t ∈ s₂.log := by
    rw [← hs₂]
    change _ ∈ .facadeReplaced g none :: .committing g :: .workspaceDeleted g :: s₁.log
    rw [hlog₁]
    simp [hdeleted]
  have horderly : Orderly participants s₂.log (.transitionCommitted t) :=
    ⟨hfacade.not_over hcurrent₂, fun _ _ => .inl hdeleted₂⟩
  obtain ⟨hdone, hnone⟩ := commitTransition_booked
    (s := { s₂ with current := none, recoveryRequired := false }) hfacade hcurrent₂ horderly
    commitThrows
  exact fine_settle_of_none hdone hnone

/-! ## A piece of an attempt -/

variable {log : List Happening}

theorem quiesced_up_to
    (hdone : UpTo participants (p :: rest) fun q => OwnId log t → .quiesced t q ∈ log) :
    UpTo participants rest fun q =>
      OwnId (.quiesced t p :: log) t → .quiesced t q ∈ quiesced t p :: log := by
  have hpassed : UpTo participants (p :: rest) fun q =>
      OwnId (.quiesced t p :: log) t → .quiesced t q ∈ quiesced t p :: log :=
    hdone.imp fun q hq hown => mem_cons_of_mem _ (hq (ownId_of_cons rfl hown))
  refine hpassed.skip (singleton_append ..).symm fun q hq _ => ?_
  rw [mem_singleton.1 hq]
  exact mem_cons_self

/-- The restore of a participant has been tried, and left an entry that says so. -/
theorem restore_up_to {e : Happening} (hinside : e.inside = true)
    (he : e = .restored t p ∨ e = .restoreFailed t p)
    (hdone : UpTo participants.reverse (p :: rest) fun q =>
      OwnId log t → RestoreTried log t anyFailed q) :
    UpTo participants.reverse rest fun q => OwnId (e :: log) t →
      RestoreTried (e :: log) t (anyFailed || e == .restoreFailed t p) q := by
  have hstarted : ∀ q, Started (e :: log) t q → Started log t q := by
    rcases he with rfl | rfl <;> simp [Started]
  have hpassed : UpTo participants.reverse (p :: rest) fun q => OwnId (e :: log) t →
      q ≠ p → RestoreTried (e :: log) t (anyFailed || e == .restoreFailed t p) q := by
    obtain ⟨done, hsplit, hall⟩ := hdone
    refine ⟨done, hsplit, fun q hq hown _ hstarted' => ?_⟩
    rcases hall q hq (ownId_of_cons hinside hown) (hstarted q hstarted') with hr | ⟨hf, hany⟩
    · exact .inl (mem_cons_of_mem _ hr)
    · exact .inr ⟨mem_cons_of_mem _ hf, by simp [hany]⟩
  have hself : ∀ q, q = p → RestoreTried (e :: log) t (anyFailed || e == .restoreFailed t p) q := by
    rintro q rfl -
    rcases he with rfl | rfl
    · exact .inl mem_cons_self
    · exact .inr ⟨mem_cons_self, by simp⟩
  refine (hpassed.skip (singleton_append ..).symm fun q hq _ hne => ?_).imp fun q hq hown => ?_
  · exact absurd (mem_singleton.1 hq) hne
  · by_cases heq : q = p
    · exact hself q heq
    · exact hq hown heq

section

variable (hnodup : participants.Nodup) (hbooked : s.Booked participants)
include hnodup hbooked

theorem restoring_fine {e : Happening} {next : AfterRestore}
    (he : e = .restored t p ∨ e = .restoreFailed t p)
    (hstage : s.StageOk participants (.restoring (some t) (p :: rest) anyFailed next)) :
    Fine participants g
      (restoreFrom ((s.modifyProgress t fun progress => progress.noted e).record e) g t rest
        (anyFailed || e == .restoreFailed t p) next) := by
  obtain ⟨hquiet, hcurrent, hdone⟩ := hstage
  obtain ⟨hupTo, hfailed⟩ := hdone t rfl
  have hinside : e.inside = true := by rcases he with rfl | rfl <;> rfl
  have hnotes : ((s.modifyProgress t fun progress => progress.noted e).record e).Booked
      participants := by
    rcases he with rfl | rfl
    · exact hbooked.notes hcurrent rfl rfl trivial nofun nofun
    · exact hbooked.notes hcurrent rfl rfl trivial nofun nofun
  refine restoreFrom_fine hnodup hnotes (cons hquiet hinside) hcurrent next
    (restore_up_to hinside he hupTo) fun hany => ?_
  rw [Bool.or_eq_true, beq_iff_eq] at hany
  rcases hany with hany | rfl
  · obtain ⟨p', hp'⟩ := hfailed hany
    exact ⟨p', mem_cons_of_mem _ hp'⟩
  · exact ⟨p, mem_cons_self⟩

theorem resume_fine (hrunning : (s.stages g).running = true)
    (hstage : s.StageOk participants (s.stages g)) (reply : Reply) :
    Fine participants g (resume participants s g reply) := by
  have hstays : Fine participants g s :=
    ⟨hbooked, fun _ => hstage, fun hnot => absurd (hnot.symm.trans hrunning) nofun⟩
  unfold resume
  split
  · rename_i t p rest _ heq
    rw [heq] at hstage
    obtain ⟨hcurrent, hstarted, hfailure, hdone, -⟩ := hstage
    have hnotes : ((s.modifyProgress t fun progress =>
        { progress with quiesced := p :: progress.quiesced }).record (.quiesced t p)).Booked
          participants := hbooked.notes hcurrent rfl rfl trivial nofun nofun
    exact quiesceFrom_fine hnotes hcurrent hstarted hfailure (quiesced_up_to (hdone rfl))
  · rename_i t p rest error heq
    rw [heq] at hstage
    obtain ⟨hcurrent, hstarted, hfailure, hdone, -⟩ := hstage
    obtain ⟨done, hsplit, -⟩ := hdone rfl
    have hrecords : (s.record (.quiesceFailed t p)).Booked participants :=
      hbooked.records hcurrent rfl rfl trivial fun _ => rfl
    refine fine_goTo hrecords rfl ⟨hcurrent, hstarted, hfailure, nofun, fun _ => ⟨p, ?_, ?_⟩⟩
    · rw [hsplit]
      exact mem_append_right _ mem_cons_self
    · exact mem_cons_self
  · rename_i heq
    rw [heq] at hstage
    exact endQuiesce_fine hbooked hstage
  · rename_i heq
    rw [heq] at hstage
    exact drainAfterSaves_fine hnodup hbooked hstage _
  · rename_i heq
    rw [heq] at hstage
    obtain ⟨hquiet, hcurrent, hquieted, hfailure⟩ := hstage
    refine afterDrain_fine hnodup hbooked hquiet hcurrent hquieted fun hnone => ?_
    rw [← hfailure]
    exact (Option.or_eq_none_iff.1 hnone).2
  · rename_i heq
    rw [heq] at hstage
    exact reject_fine hbooked hstage.1
  · rename_i heq
    rw [heq] at hstage
    exact activateAfterInvoke_fine hnodup hbooked hstage _
  · rename_i heq
    rw [heq] at hstage
    exact swapAfterStaging_fine hnodup hbooked hstage _ _
  · rename_i heq
    rw [heq] at hstage
    exact hydrationCaught_fine hnodup hbooked hstage _
  · rename_i heq
    rw [heq] at hstage
    exact prepareSwap_fine hnodup hbooked hstage _ _
  · rename_i header staged t p rest _ heq
    rw [heq] at hstage
    obtain ⟨hquiet, hcurrent, hstarted, hdone⟩ := hstage
    obtain ⟨hnotes, hupTo⟩ := disposed_booked hbooked hcurrent hstarted (hdone rfl)
    exact disposeFrom_fine hnotes (cons hquiet rfl) hcurrent hupTo (fun _ _ => rfl)
      fun log rest hover hdone' => ⟨hover, hcurrent, hstarted, fun _ => hdone'⟩
  · rename_i heq
    rw [heq] at hstage
    obtain ⟨hquiet, hcurrent, hstarted, -⟩ := hstage
    exact fine_goTo (hbooked.records hcurrent rfl rfl trivial fun _ => rfl) rfl
      ⟨cons hquiet rfl, hcurrent, hstarted, nofun⟩
  · rename_i heq
    rw [heq] at hstage
    exact hydrationCaught_fine hnodup hbooked hstage.1 _
  · rename_i header staged t _ heq
    rw [heq] at hstage
    obtain ⟨hquiet, hcurrent, hstarted, hdone⟩ := hstage
    have hcompleted := disposeCompleted_booked hbooked hcurrent (hdone rfl)
    refine activateStopped_fine hnodup hcompleted ?_ (fun _ => ?_) header staged
    · exact adjusts hquiet (fun _ => rfl) fun _ => rfl
    · simp [modifyTransition]
  · rename_i header staged t p rest _ heq
    rw [heq] at hstage
    exact fine_goTo (activated_booked hbooked hstage.2.1 p) rfl hstage
  · rename_i heq
    rw [heq] at hstage
    exact fine_goTo hbooked rfl hstage
  · rename_i heq
    rw [heq] at hstage
    exact hydrationCaught_fine hnodup hbooked hstage.1 _
  · rename_i heq
    rw [heq] at hstage
    exact commitHydration_fine hnodup hbooked hstage _
  · rename_i heq
    rw [heq] at hstage
    exact disposeForDeletion_fine hbooked hstage
  · rename_i workspaceId t p rest _ heq
    rw [heq] at hstage
    obtain ⟨hquiet, hcurrent, hquieted, hstarted, hdone⟩ := hstage
    obtain ⟨hnotes, hupTo⟩ := disposed_booked hbooked hcurrent hstarted (hdone rfl)
    exact disposeFrom_fine hnotes (cons hquiet rfl) hcurrent hupTo (fun _ _ => rfl)
      fun log rest hover hdone' => ⟨hover, hcurrent, hquieted, hstarted, fun _ => hdone'⟩
  · rename_i heq
    rw [heq] at hstage
    obtain ⟨hquiet, hcurrent, hquieted, hstarted, -⟩ := hstage
    exact fine_goTo (hbooked.records hcurrent rfl rfl trivial fun _ => rfl) rfl
      ⟨cons hquiet rfl, hcurrent, hquieted, hstarted, nofun⟩
  · rename_i heq
    rw [heq] at hstage
    exact deleteNative_fine hbooked hstage.1 hstage.2.1 hstage.2.2.1 _
  · rename_i workspaceId t _ heq
    rw [heq] at hstage
    obtain ⟨hquiet, hcurrent, hquieted, -, hdone⟩ := hstage
    refine deleteNative_fine (disposeCompleted_booked hbooked hcurrent (hdone rfl)) ?_ hcurrent ?_
      workspaceId
    · exact adjusts hquiet (fun _ => rfl) fun _ => rfl
    · simpa [Quieted, modifyTransition] using hquieted
  · rename_i heq
    rw [heq] at hstage
    exact commitDeletion_fine hbooked hstage _
  · rename_i heq
    rw [heq] at hstage
    exact restore_fine hnodup hbooked hstage.1 _
  · rename_i heq
    rw [heq] at hstage
    exact reject_fine hbooked hstage.1
  · rename_i heq
    rw [heq] at hstage
    exact recoverAfterReopen_fine hnodup hbooked hstage _ _
  · rename_i t p rest anyFailed next _ heq
    rw [heq] at hstage
    have hfine := restoring_fine (g := g) hnodup hbooked (.inl rfl) hstage
    have hother : (restored t p == .restoreFailed t p) = false :=
      beq_eq_false_iff_ne.2 (by simp)
    rw [hother, Bool.or_false] at hfine
    exact hfine
  · rename_i t p rest anyFailed next _ heq
    rw [heq] at hstage
    have hfine := restoring_fine (g := g) hnodup hbooked (.inr rfl) hstage
    have hsame : (s.modifyProgress t fun progress =>
        progress.noted (.restoreFailed t p)) = s := by
      unfold modifyProgress forTransition ParticipantProgress.noted
      rw [update_eq_self]
    rw [hsame] at hfine
    simpa using hfine
  · rename_i heq
    rw [heq] at hstage
    exact endRestore_fine hnodup hbooked hstage
  · exact hstays

/-- An attempt begins where no attempt runs. -/
theorem begin_fine (hrest : s.AtRest participants)
    (hturn : s.stages g = .waiting ∧ s.stages (g - 1) = .settled) :
    Fine participants g (begin participants s g) := by
  have hbegan : (s.record (.began g)).Booked participants := hbooked.notes_other rfl
  have hrest' : (s.record (.began g)).AtRest participants := by
    obtain ⟨hquiet, hnone | hlockout | ⟨g', hrejected⟩⟩ := hrest
    · exact ⟨cons hquiet rfl, .inl hnone⟩
    · exact ⟨cons hquiet rfl, .inr (.inl hlockout)⟩
    · exact ⟨cons hquiet rfl, .inr (.inr ⟨g', mem_cons_of_mem _ hrejected⟩)⟩
  unfold begin
  rw [if_pos hturn]
  dsimp only
  split
  · exact performActivation_fine hbegan hrest'
  · exact performCurrentDeletion_fine hnodup hbegan hrest' _

end

end bbcom.workspace_activation
