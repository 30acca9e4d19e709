-- Runs of the save gate: what its cache remembers of the installed epoch, and the steps that a
-- decision survives.
import Bbcom.SaveGate

open bbcom.runs bbcom.contracts
open bbcom.workspace_activation (WorkspaceActionFailure ActivationEvent Request Reply Tracked
  Returns)

namespace bbcom.save_gate

open Service

/-! ## What the cache remembers -/

/-- What the gate has decided in the installed epoch, while nothing in the service is against it. -/
def Service.decided (s : Service) : Option Bool :=
  match s.saveGate.cache with
  | some (key, outcome) =>
    if key.accepts ∧ key.workspaceEpoch = s.workspaceEpoch ∧ s.recoveryRequired = false ∧
      s.lastSaveFailure = none
    then some outcome.isSome
    else none
  | none => none

/-- A decision is about the epoch that is installed, and about the coordinator unless some attempt
has taken it elsewhere. -/
structure Decides (s : Service) (outcome : Option SaveContext) : Prop where
  installed : s.activation.current.isSome
  context : outcome.isSome → outcome = s.context
  ready : s.activation.Away ∨ (outcome.isSome = true ↔ s.Ready)

structure Remembers (s : Service) (key : SaveGateCacheKey) (outcome : Option SaveContext) :
    Prop where
  past : key.workspaceEpoch ≤ s.workspaceEpoch
  refused : key.accepts = false → outcome = none
  decides : key.accepts = true → key.workspaceEpoch = s.workspaceEpoch →
    s.recoveryRequired = false → s.lastSaveFailure = none → Decides s outcome

structure Gated (s : Service) : Prop where
  tracked : Tracked s.activation
  cached : ∀ key outcome, s.saveGate.cache = some (key, outcome) → Remembers s key outcome

variable {s s' : Service} {participants : List String} {key : SaveGateCacheKey}
  {outcome : Option SaveContext}

theorem gated_start : Gated {} where
  tracked := workspace_activation.tracked_start
  cached key outcome hcache := by cases hcache

/-- Where the key accepts, all attempts are over. -/
theorem Gated.at_rest (h : Gated s) (haccepts : s.saveGateCacheKey.accepts = true) :
    ¬s.activation.Away := by
  obtain ⟨hcurrent, hswitching, -, hrecovery, -⟩ := accepts_iff.1 haccepts
  rintro ⟨g, haway⟩
  have hunsettled : s.activation.stages g ≠ .settled := by
    intro hsettled
    rw [hsettled] at haway
    cases haway
  rcases h.tracked.blocked g hunsettled with hnone | hon | hlocked
  · rw [hnone] at hcurrent
    cases hcurrent
  · exact absurd (hswitching.symm.trans hon) nofun
  · exact absurd (hrecovery.symm.trans hlocked) nofun

theorem Decides.outcome_eq (h : Decides s outcome) (hrest : ¬s.activation.Away) :
    outcome = if s.Ready then s.context else none := by
  have hready := h.ready.resolve_left hrest
  split
  · rename_i hholds
    exact h.context (hready.2 hholds)
  · rename_i hnot
    rw [← hready, Option.not_isSome_iff_eq_none] at hnot
    exact hnot

/-- A cache that remembers rightly is no different from asking. -/
theorem Gated.transparent (h : Gated s) : s.Transparent := by
  unfold Transparent acceptingSaveContext SaveGate.accepting
  cases hcache : s.saveGate.cache with
  | none => rfl
  | some entry =>
    obtain ⟨key, outcome⟩ := entry
    dsimp only
    split
    · rename_i hkey
      have hremembers := h.cached key outcome hcache
      dsimp only
      rw [evaluate_eq]
      subst hkey
      cases haccepts : s.saveGateCacheKey.accepts with
      | false => simpa using hremembers.refused haccepts
      | true =>
        obtain ⟨-, -, -, hrecovery, hfailure⟩ := accepts_iff.1 haccepts
        have hdecides := hremembers.decides haccepts rfl hrecovery hfailure
        simpa using hdecides.outcome_eq (h.at_rest haccepts)
    · rfl

/-! ## What a step leaves of it -/

/-- A step that stays in the epoch, and takes the coordinator neither from a decision nor to it. -/
structure Retains (s s' : Service) : Prop where
  epoch : s'.workspaceEpoch = s.workspaceEpoch
  current : s'.activation.current = s.activation.current
  recovery : s'.recoveryRequired = false → s.recoveryRequired = false
  failure : s'.lastSaveFailure = none → s.lastSaveFailure = none
  ready : ∀ accepted, s.decided = some accepted →
    s.activation.Away ∨ (accepted = true ↔ s.Ready) →
    s.activation.current.isSome → s'.recoveryRequired = false → s'.lastSaveFailure = none →
      s'.activation.Away ∨ (accepted = true ↔ s'.Ready)

theorem Remembers.retains (h : Remembers s key outcome)
    (hcache : s.saveGate.cache = some (key, outcome)) (hretains : Retains s s') :
    Remembers s' key outcome := by
  refine ⟨hretains.epoch ▸ h.past, h.refused, fun haccepts hepoch hrecovery hfailure => ?_⟩
  rw [hretains.epoch] at hepoch
  have hrecovery' := hretains.recovery hrecovery
  have hfailure' := hretains.failure hfailure
  have hdecides := h.decides haccepts hepoch hrecovery' hfailure'
  have hdecided : s.decided = some outcome.isSome := by
    unfold decided
    rw [hcache]
    dsimp only
    rw [if_pos ⟨haccepts, hepoch, hrecovery', hfailure'⟩]
  refine ⟨?_, fun hsome => ?_, ?_⟩
  · rw [hretains.current]
    exact hdecides.installed
  · unfold context
    rw [hretains.current, hretains.epoch]
    exact hdecides.context hsome
  · exact hretains.ready _ hdecided hdecides.ready hdecides.installed hrecovery hfailure

theorem Gated.retains (h : Gated s) (hgate : s'.saveGate = s.saveGate)
    (htracked : Tracked s'.activation) (hretains : Retains s s') : Gated s' := by
  refine ⟨htracked, fun key outcome hcache => ?_⟩
  rw [hgate] at hcache
  exact (h.cached key outcome hcache).retains hcache hretains

/-- A step that leaves the activation and the coordinator alone. -/
theorem Gated.flags (h : Gated s) (hgate : s'.saveGate = s.saveGate)
    (hactivation : s'.activation = s.activation) (hhealth : s'.activeHealth = s.activeHealth)
    (hfailure : s'.lastSaveFailure = none → s.lastSaveFailure = none) : Gated s' := by
  have hready : s'.Ready ↔ s.Ready := by
    unfold Ready
    rw [hactivation, hhealth]
  refine h.retains hgate (hactivation ▸ h.tracked) ⟨?_, ?_, ?_, hfailure, ?_⟩
  · unfold workspaceEpoch
    rw [hactivation]
  · rw [hactivation]
  · unfold recoveryRequired
    rw [hactivation]
    exact id
  · intro accepted _ hagree _ _ _
    rwa [hactivation, hready]

theorem Gated.latch (h : Gated s) (failure : WorkspaceActionFailure) :
    Gated (s.latchSaveFailure failure) := by
  unfold latchSaveFailure syncCurrentFromCoordinator
  have hfailure : s.lastSaveFailure.or (some failure) = none → s.lastSaveFailure = none := by
    cases s.lastSaveFailure <;> simp
  split <;> exact h.flags rfl rfl rfl hfailure

theorem accepting_cache (gate : SaveGate) (key : SaveGateCacheKey) (evaluate : Option SaveContext) :
    (gate.accepting key evaluate).2.cache = gate.cache ∨
      (gate.accepting key evaluate).2.cache = some (key, evaluate) := by
  unfold SaveGate.accepting
  split
  · split
    · exact .inl rfl
    · exact .inr rfl
  · exact .inr rfl

/-- What was just evaluated is remembered rightly. -/
theorem remembers_fresh (s : Service) : Remembers s s.saveGateCacheKey s.evaluate := by
  refine ⟨le_refl _, fun hrefuses => ?_, fun haccepts _ _ _ => ?_⟩
  · rw [evaluate_eq]
    simp [hrefuses]
  · obtain ⟨hcurrent, -⟩ := accepts_iff.1 haccepts
    have hcontext : s.context.isSome = true := by simpa [context] using hcurrent
    rw [evaluate_eq]
    by_cases hready : s.Ready
    · exact ⟨hcurrent, by simp [haccepts, hready], .inr (by simp [haccepts, hready, hcontext])⟩
    · exact ⟨hcurrent, by simp [hready], .inr (by simp [hready])⟩

theorem Remembers.gate (h : Remembers s key outcome) (saveGate : SaveGate) :
    Remembers { s with saveGate } key outcome := by
  refine ⟨h.past, h.refused, fun haccepts hepoch hrecovery hfailure => ?_⟩
  exact { h.decides haccepts hepoch hrecovery hfailure with }

theorem Gated.accepting (h : Gated s) : Gated s.acceptingSaveContext.2 := by
  refine ⟨h.tracked, fun key outcome hcache => ?_⟩
  rcases accepting_cache s.saveGate s.saveGateCacheKey s.evaluate with hsame | hfresh
  · exact (h.cached key outcome (hsame.symm.trans hcache)).gate _
  · cases hfresh.symm.trans hcache
    exact (remembers_fresh s).gate _

/-! ## The steps that a decision survives -/

/-- What breaks a decision: the health of the active document becomes read-only or the document
goes, and the service hears nothing of it; a rollback brings back a document of which the decision
is not true any more. -/
def Steady (s : Service) : Event → Prop
  | .setSaveHealth health =>
    s.decided = some true → ¬s.activation.Away → health ≠ .readOnly
  | .removeActive workspaceId =>
    s.decided = some true → ¬s.activation.Away → s.activation.current ≠ some workspaceId
  | .resume g reply saveHealth =>
    ∀ view accepted, s.activation.reopens (.resume g reply) = some view →
      s.decided = some accepted →
        (accepted = true ↔
          s.activation.current = some view.workspaceId ∧ saveHealth ≠ .readOnly)
  | _ => True

theorem Gated.setSaveHealth (h : Gated s) (health : WorkspaceSaveHealth)
    (hsteady : Steady s (.setSaveHealth health)) : Gated (s.setSaveHealth health) := by
  unfold Service.setSaveHealth
  split
  · exact h
  · rename_i hwritable
    refine h.retains rfl h.tracked ⟨rfl, rfl, id, id, fun accepted hdecided hagree _ _ _ => ?_⟩
    by_cases haway : s.activation.Away
    · exact .inl haway
    · have hready := hagree.resolve_left haway
      refine .inr ?_
      cases accepted with
      | true =>
        have hactive := (hready.1 rfl).1
        exact iff_of_true rfl ⟨hactive, hsteady hdecided haway⟩
      | false =>
        refine iff_of_false nofun fun hnow => ?_
        exact absurd (hready.2 ⟨hnow.1, hwritable⟩) nofun

theorem Gated.removeActive (h : Gated s) (workspaceId : String)
    (hsteady : Steady s (.removeActive workspaceId)) : Gated (s.removeActive workspaceId) := by
  unfold Service.removeActive
  split
  · rename_i hactive
    have htracked := (h.tracked.step [] (.coordinatorChanges none)).1
    refine h.retains rfl htracked
      ⟨rfl, rfl, id, id, fun accepted hdecided hagree hinstalled _ _ => ?_⟩
    by_cases haway : s.activation.Away
    · exact .inl haway
    · have hready := hagree.resolve_left haway
      refine .inr ?_
      cases accepted with
      | true =>
        have hcurrent := (hready.1 rfl).1
        exact absurd (hcurrent.symm.trans hactive) (hsteady hdecided haway)
      | false =>
        refine iff_of_false nofun fun hnow => ?_
        have hnone : s.activation.current = none := hnow.1.symm
        rw [hnone] at hinstalled
        cases hinstalled
  · exact h

theorem Gated.committed (h : Gated s) (revision : Nat) :
    Gated { s with activation := { s.activation with
              coordinator := s.activation.coordinator.map ({ · with revision }) } } := by
  have htracked := (h.tracked.step [] (.coordinatorChanges
    (s.activation.coordinator.map ({ · with revision })))).1
  refine h.retains rfl htracked ⟨rfl, rfl, id, id, fun accepted _ hagree _ _ _ => ?_⟩
  have hactive : (s.activation.coordinator.map ({ · with revision })).map (·.workspaceId) =
      s.activation.activeWorkspaceId := by
    rw [Option.map_map]
    rfl
  rcases hagree with haway | hready
  · exact .inl haway
  · refine .inr ?_
    rw [hready]
    unfold Ready workspace_activation.State.activeWorkspaceId
    dsimp only
    rw [hactive]
    rfl

/-! ## Activation -/

variable {e : ActivationEvent}

theorem opens_of_reopens {activation : workspace_activation.State}
    {view : workspace_activation.ActiveWorkspaceViewModel} (h : activation.reopens e = some view) :
    activation.opens e = true := by
  unfold workspace_activation.State.reopens at h
  unfold workspace_activation.State.opens
  split at h
  · split at h
    · rename_i hstage
      dsimp only
      rw [hstage]
    · cases h
  · cases h

/-- What a piece of the activation leaves of the rest of the service. -/
theorem activate_fields (participants : List String) (e : ActivationEvent)
    (saveHealth : WorkspaceSaveHealth) :
    (s.activate participants e saveHealth).activation =
        workspace_activation.step participants s.activation e ∧
      (s.activate participants e saveHealth).saveGate = s.saveGate ∧
      (s.activate participants e saveHealth).activeHealth =
        (if s.activation.opens e then saveHealth else s.activeHealth) ∧
      ((s.activate participants e saveHealth).workspaceEpoch = s.workspaceEpoch →
        (s.activate participants e saveHealth).lastSaveFailure = s.lastSaveFailure) := by
  unfold activate
  dsimp only
  split
  · exact ⟨rfl, rfl, rfl, fun _ => rfl⟩
  · rename_i hepoch
    exact ⟨rfl, rfl, rfl, fun hsame => absurd hsame hepoch⟩

theorem Gated.activate (h : Gated s) (hown : ∀ active, e ≠ .coordinatorChanges active)
    {saveHealth : WorkspaceSaveHealth}
    (hsteady : ∀ view accepted, s.activation.reopens e = some view → s.decided = some accepted →
      (accepted = true ↔ s.activation.current = some view.workspaceId ∧ saveHealth ≠ .readOnly)) :
    Gated (s.activate participants e saveHealth) := by
  obtain ⟨htracked, hreturns⟩ := h.tracked.step participants e
  obtain ⟨hactivation, hgate, hhealth, hfailure⟩ :=
    activate_fields (s := s) participants e saveHealth
  generalize s.activate participants e saveHealth = s' at hactivation hgate hhealth hfailure ⊢
  rw [← hactivation] at htracked hreturns
  cases hreturns hown with
  | epoch hepoch =>
    -- what was remembered is of another epoch
    refine ⟨htracked, fun key outcome hcache => ?_⟩
    rw [hgate] at hcache
    have hremembers := h.cached key outcome hcache
    have hnext : s'.workspaceEpoch = s.workspaceEpoch + 1 := hepoch
    have hpast := hremembers.past
    exact ⟨by omega, hremembers.refused, fun _ hsame => by omega⟩
  | keeps hepoch hcurrent hrecovery hcoordinator =>
    refine h.retains hgate htracked ⟨hepoch, hcurrent, hrecovery, ?_, ?_⟩
    · rw [hfailure hepoch]
      exact id
    · intro accepted hdecided hagree hinstalled hunlocked _
      rcases hcoordinator with
        hlocked | hnone | haway | ⟨hopens, hrest, hsame⟩ | ⟨view, hview, hback⟩
      · exact absurd (hunlocked.symm.trans hlocked) nofun
      · rw [hcurrent] at hnone
        rw [hnone] at hinstalled
        cases hinstalled
      · exact .inl haway
      · refine .inr ?_
        have hready := hagree.resolve_left hrest
        rw [hready]
        unfold Ready workspace_activation.State.activeWorkspaceId
        rw [hsame, hcurrent, hhealth, hopens]
        rfl
      · refine .inr ?_
        rw [hsteady view accepted hview hdecided]
        unfold Ready workspace_activation.State.activeWorkspaceId
        rw [hback, hcurrent, hhealth, if_pos (opens_of_reopens hview)]
        exact and_congr_left' eq_comm

/-! ## Every event -/

theorem Gated.step (h : Gated s) (e : Event) (hsteady : Steady s e) :
    Gated (step participants s e) := by
  cases e with
  | request request => exact h.activate (e := .request request) nofun nofun
  | cancelActivation coordinatorCancels =>
    exact h.activate (e := .cancelActivation coordinatorCancels) nofun nofun
  | begin g => exact h.activate (e := .begin g) nofun nofun
  | resume g reply saveHealth => exact h.activate (e := .resume g reply) nofun hsteady
  | setSaveHealth health => exact h.setSaveHealth health hsteady
  | committed revision => exact h.committed revision
  | removeActive workspaceId => exact h.removeActive workspaceId hsteady
  | syncCurrentFromCoordinator =>
    change Gated s.syncCurrentFromCoordinator
    unfold syncCurrentFromCoordinator
    split
    · exact h.flags rfl rfl rfl id
    · exact h
  | latchSaveFailure failure => exact h.latch failure
  | acceptingSaveContext => exact h.accepting
  | _ => exact h.flags rfl rfl rfl id

/-- In every run whose steps are all steady, the gate is transparent in every state. -/
theorem gate_transparent (participants : List String) (events : List Event)
    (hsteady : Along (step participants) Steady {} events) :
    ∀ before, before <+: events → (run (step participants) {} before).Transparent := by
  rintro before ⟨after, rfl⟩
  have hbefore : Along (save_gate.step participants) Steady {} before := by
    rw [along_iff_split] at hsteady ⊢
    rintro earlier e later rfl
    exact hsteady earlier e (later ++ after) (by simp)
  exact (run_invariant_along (fun s e he h => h.step e he) gated_start hbefore).transparent

/-- `A` is opened with nothing to quiesce. -/
def opening : List Event :=
  [.request .activate, .begin 1, .resume 1 (.saved none) .clean,
    .resume 1 (.activated (.outcome (.completed ⟨"A", 0, []⟩))) .clean,
    .resume 1 (.staged ⟨"A", 0, []⟩) .clean, .resume 1 (.done none) .clean,
    .resume 1 (.done none) .clean]

/-- `B` is opened and cannot be hydrated, up to the call that opens `A` again. -/
def failing : List Event :=
  [.request .activate, .begin 2, .resume 2 (.done none) .clean, .resume 2 (.saved none) .clean,
    .resume 2 (.flushed (.completed ())) .clean,
    .resume 2 (.activated (.outcome (.completed ⟨"B", 0, []⟩))) .clean,
    .resume 2 (.threw .other) .clean]

theorem gate_transparent_rolled_back :
    (run (step []) {} (opening ++ .acceptingSaveContext :: failing ++
      [.resume 2 (.reopened (.outcome (.completed ⟨"A", 1, []⟩))) .degraded,
        .resume 2 (.done none) .clean])).Transparent := by
  refine gate_transparent [] _ ?_ _ (List.prefix_refl _)
  refine ⟨trivial, trivial, nofun, nofun, nofun, nofun, nofun, trivial, trivial, trivial, nofun,
    nofun, nofun, nofun, nofun, ?_, nofun, trivial⟩
  intro view accepted hview hdecided
  have hreopens :
      (run (step []) {} (opening ++ .acceptingSaveContext :: failing)).activation.reopens
        (.resume 2 (.reopened (.outcome (.completed ⟨"A", 1, []⟩)))) = some ⟨"A", 1, []⟩ := by
    decide +kernel
  have haccepted : (run (step []) {} (opening ++ .acceptingSaveContext :: failing)).decided =
      some true := by decide +kernel
  cases hreopens.symm.trans hview
  cases haccepted.symm.trans hdecided
  decide +kernel

/-! ## The steps that it does not survive -/

/-- A commit of `A` is refused with a revision conflict. The write engine has made its document
read-only, the service has not latched the failure yet, and the gate goes on accepting. -/
theorem refused_commit_unseen :
    ¬(run (step []) {} (opening ++ [.scheduleSaveGroup, .saveGroupBegins, .setSaveHealth .saving,
      .acceptingSaveContext, .setSaveHealth .readOnly])).Transparent := by decide +kernel

end bbcom.save_gate
