-- Runs of the activation of workspaces, with the coordinator: while some attempt stands before the
-- workspace that is installed, the service is switching or locked, and once they are over, the
-- coordinator is back.
import Bbcom.ActivationTrack
import Bbcom.TransitionRuns

namespace bbcom.workspace_activation

open Happening Function State List

/-! ## The invariant -/

structure Tracked (s : State) : Prop where
  turns : Turns s
  blocked : ∀ g, s.stages g ≠ .settled →
    s.current = none ∨ s.switching = true ∨ s.recoveryRequired = true
  awaits : ∀ g, Awaits s g
  rootless : ∀ g, (s.stages g).running → (s.attempts g).previousWorkspaceId = none →
    s.current = none

theorem tracked_start : Tracked {} where
  turns := turns_start
  blocked _ h := absurd rfl h
  awaits _ := ⟨nofun, nofun⟩
  rootless _ h := absurd h nofun

variable {g : Nat} {s s₁ s' : State} {participants : List String}
  {opened : Bool} {active reopened : Option ActiveWorkspaceViewModel}

theorem State.TurnOf.later (h : s.TurnOf g) {other : Nat} (hne : other ≠ g)
    (hunsettled : s.stages other ≠ .settled) : g < other := by
  by_contra hnot
  exact hunsettled (h.earlier other (by omega))

/-- No one waits behind the latest attempt. -/
theorem Turns.latest_last (h : Turns s) (hlatest : s.attempt = some g) {other : Nat}
    (hlt : g < other) : s.stages other = .settled := by
  apply h.unrequested
  rw [← h.newest g hlatest]
  exact hlt

/-- An attempt that does not run awaits nothing. -/
theorem awaits_idle (hidle : (s.stages g).running = false) : Awaits s g := by
  constructor
  · intro hnative
    cases hstage : s.stages g <;> rw [hstage] at hidle hnative <;> cases hidle <;> cases hnative
  · intro view hview
    cases hstage : s.stages g <;> rw [hstage] at hidle hview <;> cases hidle <;> cases hview

/-! ## What each piece keeps -/

section

variable (h : Tracked s) (hturn : s.TurnOf g) (hturns : Turns s')
include h hturn hturns

/-- The attempt goes on, and with it the coordinator. -/
theorem Tracked.goesOn (hroot : (s.attempts g).previousWorkspaceId = none → s.current = none)
    (hcontinues : Continues g { s with coordinator := active } s')
    (hproceeds : Proceeds g { s with coordinator := active } s') : Tracked s' := by
  obtain ⟨s₁, stage, hworks, hrunning, rfl⟩ := hcontinues.before
  have hstages : (s₁.goTo g stage).stages = update s.stages g stage := by
    change update s₁.stages g stage = _
    rw [hworks.stages]
  have hcurrent : (s₁.goTo g stage).current = s.current := hproceeds.holds.current
  have hrecovery : (s₁.goTo g stage).recoveryRequired = s.recoveryRequired :=
    hproceeds.holds.recovery
  have hswitching : (s₁.goTo g stage).switching = s.switching := hworks.switching
  have hidle : ∀ other, other ≠ g → ((s₁.goTo g stage).stages other).running = false := by
    intro other hne
    rw [hstages, update_of_ne hne]
    exact h.turns.others_rest hturn other hne
  refine ⟨hturns, fun other _ => ?_, fun other => ?_, fun other hother hnone => ?_⟩
  · rw [hcurrent, hswitching, hrecovery]
    exact h.blocked g hturn.unsettled
  · by_cases heq : other = g
    · subst heq
      exact ⟨hproceeds.native, hproceeds.rollback⟩
    · exact awaits_idle (hidle other heq)
  · rw [hcurrent]
    by_cases heq : other = g
    · subst heq
      exact hroot (hproceeds.holds.previous.symm.trans hnone)
    · rw [hidle other heq] at hother
      exact absurd hother nofun

/-- Whoever settles leaves the others waiting. -/
theorem Tracked.settles (hstages : s'.stages = update s.stages g .settled)
    (hblocked : ∀ other, g < other → s.stages other ≠ .settled →
      s'.current = none ∨ s'.switching = true ∨ s'.recoveryRequired = true) : Tracked s' := by
  have hidle : ∀ other, (s'.stages other).running = false := by
    intro other
    rw [hstages]
    by_cases heq : other = g
    · subst heq
      rw [update_self]
      rfl
    · rw [update_of_ne heq]
      exact h.turns.others_rest hturn other heq
  refine ⟨hturns, fun other hother => ?_, fun other => awaits_idle (hidle other),
    fun other hother => ?_⟩
  · rw [hstages] at hother
    by_cases heq : other = g
    · subst heq
      rw [update_self] at hother
      exact absurd rfl hother
    · rw [update_of_ne heq] at hother
      exact hblocked other (hturn.later heq hother) hother
  · rw [hidle other] at hother
    exact absurd hother nofun

theorem Tracked.ends (hceases : Ceases g { s with coordinator := active } s') : Tracked s' := by
  obtain ⟨s₁, hconcludes, rfl⟩ := hceases
  refine h.settles hturn hturns ?_ ?_
  · change update s₁.stages g .settled = _
    rw [hconcludes.stages]
  · intro other hlt hother
    change s₁.current = none ∨ s₁.switching = true ∨ s₁.recoveryRequired = true
    rcases hconcludes.flags with hlocked | ⟨hrecovery, hswitching | hlatest⟩
    · exact .inr (.inr hlocked)
    · rw [hconcludes.current, hswitching, hrecovery]
      exact h.blocked other hother
    · exact absurd (h.turns.latest_last hlatest hlt) hother

theorem Tracked.commits {workspaceId : Option String} (hcommits : Commits g workspaceId s s')
    (hblocked : s'.current = none ∨ s'.switching = true ∨ s.attempt = some g) : Tracked s' := by
  refine h.settles hturn hturns hcommits.stages ?_
  intro other hlt hother
  rcases hblocked with hnone | hswitching | hlatest
  · exact .inl hnone
  · exact .inr (.inl hswitching)
  · exact absurd (h.turns.latest_last hlatest hlt) hother

theorem Tracked.tracks (hroot : (s.attempts g).previousWorkspaceId = none → s.current = none)
    (htracks : Tracks g opened reopened s s') : Tracked s' := by
  cases htracks with
  | goesOn active hcontinues hproceeds => exact h.goesOn hturn hturns hroot hcontinues hproceeds
  | ends active hceases => exact h.ends hturn hturns hceases
  | commits workspaceId hcommits hblocked => exact h.commits hturn hturns hcommits hblocked

end

theorem abortPredecessor_concludes (g : Nat) (s : State) : Concludes g s (abortPredecessor s) := by
  unfold abortPredecessor
  split
  · exact Concludes.refl g s
  · split
    · exact Concludes.refl g s
    · rename_i latest _ _
      have haborted : Concludes g s (s.modifyAttempt latest fun a => { a with aborted := true }) :=
        concludes_modifyAttempt g latest s (fun _ => rfl) fun _ => rfl
      exact haborted.trans
        ⟨rfl, rfl, .inl rfl, rfl, rfl, rfl, fun _ => ⟨rfl, rfl⟩, .inr ⟨rfl, .inl rfl⟩⟩

/-- The attempts that run keep the stage and the workspace that they come back to. -/
theorem Tracked.ofRunning (h : Tracked s) (hturns : Turns s') (hcurrent : s'.current = s.current)
    (hblocked : ∀ g, s'.stages g ≠ .settled →
      s'.current = none ∨ s'.switching = true ∨ s'.recoveryRequired = true)
    (hrunning : ∀ g, (s'.stages g).running → s'.stages g = s.stages g ∧
      (s'.attempts g).previousWorkspaceId = (s.attempts g).previousWorkspaceId ∧
        (s'.attempts g).nativeActivationStarted = (s.attempts g).nativeActivationStarted) :
    Tracked s' := by
  refine ⟨hturns, hblocked, fun g => ?_, fun g hruns hnone => ?_⟩
  · cases hruns : (s'.stages g).running with
    | false => exact awaits_idle hruns
    | true =>
      obtain ⟨hstage, hprevious, hstarted⟩ := hrunning g hruns
      constructor
      · rw [hstage, hstarted]
        exact (h.awaits g).started
      · rw [hstage, hprevious]
        exact (h.awaits g).rolledBack
  · obtain ⟨hstage, hprevious, -⟩ := hrunning g hruns
    rw [hcurrent]
    exact h.rootless g (hstage ▸ hruns) (hprevious.symm.trans hnone)

theorem Tracked.enqueue (h : Tracked s) (request : Request) : Tracked (enqueue s request) := by
  have haborted := abortPredecessor_concludes 0 s
  refine h.ofRunning (h.turns.enqueue request) haborted.current (fun _ _ => .inr (.inl rfl)) ?_
  intro g hruns
  by_cases heq : g = (abortPredecessor s).generation + 1
  · subst heq
    simp [workspace_activation.enqueue, Stage.running] at hruns
  · have hattempt : (workspace_activation.enqueue s request).attempts g =
        (abortPredecessor s).attempts g := by simp [workspace_activation.enqueue, heq]
    rw [hattempt]
    refine ⟨?_, haborted.attempts g⟩
    simp [workspace_activation.enqueue, heq, haborted.stages]

theorem Tracked.cancelActivation (h : Tracked s) (coordinatorCancels : Bool) :
    Tracked (cancelActivation s coordinatorCancels).2 := by
  unfold workspace_activation.cancelActivation
  split
  · exact h
  · split
    · exact h
    · rename_i latest _ _
      have hcancelled : Concludes 0 s (s.modifyAttempt latest fun a =>
          { a with cancelledByUser := true, aborted := true }) :=
        concludes_modifyAttempt 0 latest s (fun _ => rfl) fun _ => rfl
      have hturns := h.turns
      exact h.ofRunning ⟨hturns.newest, hturns.unrequested, hturns.zero, hturns.serial⟩ rfl
        (fun _ _ => .inr (.inl rfl)) fun g _ => ⟨rfl, hcancelled.attempts g⟩

/-! ## Where the coordinator is -/

/-- Some attempt stands where the coordinator may be elsewhere. -/
def State.Away (s : State) : Prop := ∃ g, (s.stages g).away = true

/-- What one event does to the workspace that is installed and to the one of the coordinator. -/
inductive Returns (e : ActivationEvent) (s s' : State) : Prop
  /-- Another workspace is installed, or none. -/
  | epoch (h : s'.workspaceEpoch = s.workspaceEpoch + 1)
  | keeps (hepoch : s'.workspaceEpoch = s.workspaceEpoch) (hcurrent : s'.current = s.current)
      (hrecovery : s'.recoveryRequired = false → s.recoveryRequired = false)
      (hcoordinator : s'.recoveryRequired = true ∨ s'.current = none ∨ s'.Away ∨
        s.opens e = false ∧ ¬s.Away ∧ s'.coordinator = s.coordinator ∨
        ∃ view, s.reopens e = some view ∧ s'.coordinator = some view)

theorem opensEpoch_of_neutral {happening : Happening} (h : happening.neutral) :
    happening.opensEpoch = false := by
  cases happening <;> first | rfl | exact absurd h nofun

theorem opened_neutral {happened : List Happening} (hof : ∀ h ∈ happened, h.neutral) :
    happened.countP opensEpoch = 0 := by
  rw [countP_eq_zero]
  intro e he
  simp [opensEpoch_of_neutral (hof e he)]

theorem Continues.epoch (h : Continues g s s') : s'.workspaceEpoch = s.workspaceEpoch := by
  obtain ⟨s₁, stage, hworks, -, rfl⟩ := h.before
  obtain ⟨happened, hlog, hof⟩ := hworks.log
  change s₁.log.countP opensEpoch = s.log.countP opensEpoch
  rw [hlog, countP_append, opened_neutral hof, Nat.zero_add]

theorem Commits.epoch {workspaceId : Option String} (h : Commits g workspaceId s s') :
    s'.workspaceEpoch = s.workspaceEpoch + 1 := by
  obtain ⟨happened, deleted, hlog, hof, hdeleted⟩ := h.log
  have hnone : deleted.countP opensEpoch = 0 := by
    rw [countP_eq_zero]
    intro e he
    rcases hdeleted e he with hneutral | rfl
    · simp [opensEpoch_of_neutral hneutral]
    · simp [opensEpoch]
  unfold workspaceEpoch
  rw [hlog]
  simp only [cons_append, countP_cons, countP_append, opened_neutral hof, hnone]
  simp [opensEpoch]
  omega

theorem Ceases.keeps (h : Ceases g s s') : s'.workspaceEpoch = s.workspaceEpoch ∧
    s'.current = s.current ∧ s'.coordinator = s.coordinator ∧
    (s'.recoveryRequired = false → s.recoveryRequired = false) := by
  obtain ⟨s₁, hconcludes, rfl⟩ := h
  refine ⟨?_, hconcludes.current, hconcludes.coordinator, fun hunlocked => ?_⟩
  · change (ended g :: s₁.log).countP opensEpoch = s.workspaceEpoch
    rw [countP_cons_of_neg (by simp [opensEpoch])]
    exact hconcludes.epoch
  · rcases hconcludes.flags with hlocked | ⟨hrecovery, -⟩
    · exact absurd (hlocked.symm.trans hunlocked) nofun
    · exact hrecovery.symm.trans hunlocked

/-- Only the attempt whose turn it is can be away. -/
theorem Turns.near (h : Turns s) (hturn : s.TurnOf g) (hnear : (s.stages g).away = false) :
    ¬s.Away := by
  rintro ⟨other, haway⟩
  by_cases heq : other = g
  · rw [heq, hnear] at haway
    exact absurd haway nofun
  · have hidle := h.others_rest hturn other heq
    cases hstage : s.stages other <;> rw [hstage] at hidle haway <;> cases hidle <;> cases haway

variable {e : ActivationEvent}

theorem Tracks.returns (htracks : Tracks g (s.opens e) (s.reopens e) s s') (hturns : Turns s)
    (hturn : s.TurnOf g) (hroot : (s.attempts g).previousWorkspaceId = none → s.current = none) :
    Returns e s s' := by
  cases htracks with
  | goesOn active hcontinues hproceeds hlands =>
    have hcurrent : s'.current = s.current := hproceeds.holds.current
    refine .keeps hcontinues.epoch hcurrent (fun h => hproceeds.holds.recovery.symm.trans h) ?_
    rcases hlands with haway | hnone | ⟨hopens, hnear, hcoordinator⟩ | hreopened
    · exact .inr (.inr (.inl ⟨g, haway⟩))
    · exact .inr (.inl (hcurrent.trans (hroot hnone)))
    · exact .inr (.inr (.inr (.inl ⟨hopens, hturns.near hturn hnear, hcoordinator⟩)))
    · exact .inr (.inr (.inr (.inr hreopened)))
  | ends active hceases hlands =>
    obtain ⟨hepoch, hcurrent, -, hrecovery⟩ := hceases.keeps
    refine .keeps hepoch hcurrent hrecovery ?_
    rcases hlands with hlocked | ⟨hopens, hnear, hcoordinator⟩
    · exact .inl hlocked
    · exact .inr (.inr (.inr (.inl ⟨hopens, hturns.near hturn hnear, hcoordinator⟩)))
  | commits workspaceId hcommits hblocked => exact .epoch hcommits.epoch

/-- Nothing but flags has changed. -/
theorem returns_of_same (hlog : s'.workspaceEpoch = s.workspaceEpoch)
    (hcurrent : s'.current = s.current) (hrecovery : s'.recoveryRequired = s.recoveryRequired)
    (haway : s.Away → s'.Away) (hcoordinator : s'.coordinator = s.coordinator)
    (hopens : s.opens e = false) : Returns e s s' := by
  refine .keeps hlog hcurrent (fun h => hrecovery.symm.trans h) ?_
  by_cases h : s.Away
  · exact .inr (.inr (.inl (haway h)))
  · exact .inr (.inr (.inr (.inl ⟨hopens, h, hcoordinator⟩)))

theorem returns_self (hopens : s.opens e = false) : Returns e s s :=
  returns_of_same rfl rfl rfl id rfl hopens

/-- Who does not run opens nothing. -/
theorem opens_of_not_running {reply : Reply} (h : (s.stages g).running = false) :
    s.opens (.resume g reply) = false := by
  by_contra hnot
  rcases opens_stage (by simpa using hnot) with ⟨answer, hstage, -⟩ | ⟨caller, answer, hstage, -⟩
  · rw [hstage] at h
    cases h
  · rw [hstage] at h
    cases h

/-- What follows on a change that leaves the workspaces alone. -/
theorem Returns.after {e : ActivationEvent} (h : Returns e s₁ s')
    (hepoch : s₁.workspaceEpoch = s.workspaceEpoch) (hcurrent : s₁.current = s.current)
    (hrecovery : s₁.recoveryRequired = s.recoveryRequired) (hstages : s₁.stages = s.stages)
    (hcoordinator : s₁.coordinator = s.coordinator) (hopens : s₁.opens e = s.opens e)
    (hreopens : s₁.reopens e = s.reopens e) : Returns e s s' := by
  have haway : s₁.Away ↔ s.Away := by simp only [Away, hstages]
  cases h with
  | epoch h => exact .epoch (hepoch ▸ h)
  | keeps hepoch' hcurrent' hrecovery' hcoordinator' =>
    refine .keeps (hepoch'.trans hepoch) (hcurrent'.trans hcurrent)
      (fun h => hrecovery.symm.trans (hrecovery' h)) ?_
    rwa [haway, hcoordinator, hopens, hreopens] at hcoordinator'

/-! ## Every event -/

theorem Tracked.resume (h : Tracked s) (participants : List String) (g : Nat) (reply : Reply) :
    Tracked (resume participants s g reply) ∧
      Returns (.resume g reply) s (workspace_activation.resume participants s g reply) := by
  cases hrunning : (s.stages g).running with
  | false =>
    rw [resume_of_not_running hrunning]
    exact ⟨h, returns_self (opens_of_not_running hrunning)⟩
  | true =>
    have hturn := h.turns.of_running hrunning
    have hroot := h.rootless g hrunning
    rcases resume_tracks participants (h.awaits g) reply with ⟨heq, hopens⟩ | htracks
    · rw [heq]
      exact ⟨h, returns_self hopens⟩
    · have hturns : Turns (workspace_activation.resume participants s g reply) := by
        rcases resume_passes participants h.turns.newest reply with heq | hpasses
        · rw [heq]
          exact h.turns
        · exact h.turns.passes hturn hpasses
      exact ⟨h.tracks hturn hturns hroot htracks, htracks.returns h.turns hturn hroot⟩

theorem Tracked.begin (h : Tracked s) (participants : List String) (g : Nat) :
    Tracked (begin participants s g) ∧
      Returns (.begin g) s (workspace_activation.begin participants s g) := by
  rcases begin_begins (g := g) (s := s) participants with heq | ⟨hwaiting, hbefore, hbegins⟩
  · rw [heq]
    exact ⟨h, returns_self rfl⟩
  · have hturn := h.turns.of_turn hwaiting hbefore
    have hpasses : Passes g s (workspace_activation.begin participants s g) :=
      begin_passes h.turns.newest ⟨hwaiting, hbefore⟩
    have hturns := h.turns.passes hturn hpasses
    have hepoch : (s.record (.began g)).workspaceEpoch = s.workspaceEpoch := by
      simp [workspaceEpoch, record, opensEpoch]
    have hnear : (s.stages g).away = false := by
      rw [hwaiting]
      rfl
    cases hbegins with
    | ends hceases =>
      have hbegan : Tracked (s.record (.began g)) := ⟨{ h.turns with }, h.blocked,
        fun other => ⟨(h.awaits other).started, (h.awaits other).rolledBack⟩, h.rootless⟩
      obtain ⟨hepoch', hcurrent, hcoordinator, hrecovery⟩ := hceases.keeps
      have hturn' : (s.record (.began g)).TurnOf g := ⟨hturn.unsettled, hturn.earlier⟩
      have hends : Ceases g { s.record (.began g) with coordinator := s.coordinator }
          (workspace_activation.begin participants s g) := hceases
      refine ⟨hbegan.ends hturn' hturns hends, .keeps (hepoch'.trans hepoch) hcurrent hrecovery ?_⟩
      exact .inr (.inr (.inr (.inl ⟨rfl, h.turns.near hturn hnear, hcoordinator⟩)))
    | goesOn previousWorkspaceId hprevious htracks =>
      generalize hs₁ : ((s.record (.began g)).modifyAttempt g fun a =>
        { a with previousWorkspaceId := previousWorkspaceId }) = s₁ at htracks
      have hattempts : ∀ other, other ≠ g → s₁.attempts other = s.attempts other := by
        intro other hne
        simp [← hs₁, modifyAttempt, record, hne]
      have hself : (s₁.attempts g).previousWorkspaceId = previousWorkspaceId := by
        simp [← hs₁, modifyAttempt]
      have hstages : s₁.stages = s.stages := by rw [← hs₁]; rfl
      have hturns₁ : Turns s₁ := by
        rw [← hs₁]
        exact ⟨h.turns.newest, h.turns.unrequested, h.turns.zero, h.turns.serial⟩
      have hcurrent : s₁.current = s.current := by rw [← hs₁]; rfl
      have htracked : Tracked s₁ := by
        refine h.ofRunning hturns₁ hcurrent ?_ fun other hruns => ?_
        · rw [← hs₁]
          exact h.blocked
        · have hne : other ≠ g := by
            rintro rfl
            rw [hstages, hwaiting] at hruns
            exact absurd hruns Bool.false_ne_true
          rw [hattempts other hne, hstages]
          exact ⟨rfl, rfl, rfl⟩
      have hturn₁ : s₁.TurnOf g := by
        constructor <;> rw [hstages]
        · exact hturn.unsettled
        · exact hturn.earlier
      have hroot : (s₁.attempts g).previousWorkspaceId = none → s₁.current = none := by
        rw [hself, hcurrent]
        exact hprevious
      refine ⟨htracked.tracks hturn₁ hturns hroot htracks, ?_⟩
      refine Returns.after (htracks.returns (e := .begin g) hturns₁ hturn₁ hroot) ?_ hcurrent ?_
        hstages ?_ rfl rfl
      · rw [← hs₁]
        exact hepoch
      · rw [← hs₁]
        rfl
      · rw [← hs₁]
        rfl

theorem request_returns (h : Turns s) (request : Request) :
    Returns (.request request) s (enqueue s request) := by
  have haborted := abortPredecessor_concludes 0 s
  have hrecovery : (abortPredecessor s).recoveryRequired = s.recoveryRequired := by
    unfold abortPredecessor
    split
    · rfl
    · split <;> rfl
  refine returns_of_same haborted.epoch haborted.current hrecovery ?_ haborted.coordinator rfl
  rintro ⟨g, haway⟩
  refine ⟨g, ?_⟩
  rcases enqueue_stages h request g with hsame | ⟨hsettled, -⟩
  · rw [hsame]
    exact haway
  · rw [hsettled] at haway
    exact absurd haway nofun

theorem cancel_returns (s : State) (coordinatorCancels : Bool) :
    Returns (.cancelActivation coordinatorCancels) s (cancelActivation s coordinatorCancels).2 := by
  unfold cancelActivation
  split
  · exact returns_self rfl
  · split
    · exact returns_self rfl
    · exact returns_of_same rfl rfl rfl id rfl rfl

/-- The service keeps its account of the coordinator, whatever event comes, and every event but
a change of the coordinator itself has it where it is, away, or back. -/
theorem Tracked.step (h : Tracked s) (participants : List String) (e : ActivationEvent) :
    Tracked (step participants s e) ∧ ((∀ active, e ≠ .coordinatorChanges active) →
      Returns e s (workspace_activation.step participants s e)) := by
  cases e with
  | request request =>
    exact ⟨h.enqueue request, fun _ => request_returns h.turns request⟩
  | cancelActivation coordinatorCancels =>
    exact ⟨h.cancelActivation coordinatorCancels, fun _ => cancel_returns s coordinatorCancels⟩
  | coordinatorChanges active =>
    refine ⟨⟨{ h.turns with }, h.blocked, ?_, h.rootless⟩, fun hown => absurd rfl (hown active)⟩
    exact fun other => ⟨(h.awaits other).started, (h.awaits other).rolledBack⟩
  | begin g =>
    obtain ⟨htracked, hreturns⟩ := h.begin participants g
    exact ⟨htracked, fun _ => hreturns⟩
  | resume g reply =>
    obtain ⟨htracked, hreturns⟩ := h.resume participants g reply
    exact ⟨htracked, fun _ => hreturns⟩

end bbcom.workspace_activation
