-- Runs of the activation of workspaces, for the runtime transitions: what the history of each of
-- them says, whatever requests cross.
import Bbcom.ActivationRuns
import Bbcom.TransitionPieces

open bbcom.histories bbcom.runs

namespace bbcom.workspace_activation

open Function List

variable {participants : List String} {g t : Nat} {s s₁ s' : State}

/-! ## One attempt after the other -/

structure Turns (s : State) : Prop where
  newest : s.LatestIsNewest
  unrequested : ∀ g, s.generation < g → s.stages g = .settled
  zero : s.stages 0 = .settled
  serial : ∀ g later, g < later → s.stages g ≠ .settled →
    s.stages later = .waiting ∨ s.generation < later

/-- A piece of one attempt leaves the turns of the others. -/
structure Passes (g : Nat) (s s' : State) : Prop where
  generation : s'.generation = s.generation
  attempt : s'.attempt = s.attempt ∨ s'.attempt = none
  stages : ∃ stage, stage ≠ .waiting ∧ s'.stages = update s.stages g stage

/-- It is the turn of an attempt. -/
structure State.TurnOf (s : State) (g : Nat) : Prop where
  unsettled : s.stages g ≠ .settled
  earlier : ∀ other, other < g → s.stages other = .settled

theorem turns_start : Turns {} := ⟨nofun, fun _ _ => rfl, rfl, fun _ _ _ h => absurd rfl h⟩

theorem Turns.of_running (h : Turns s) (hrunning : (s.stages g).running = true) : s.TurnOf g := by
  have hsettled : s.stages g ≠ .settled := by
    intro h'
    rw [h'] at hrunning
    cases hrunning
  refine ⟨hsettled, fun other hlt => ?_⟩
  by_contra hnot
  rcases h.serial other g hlt hnot with hwaiting | hbeyond
  · rw [hwaiting] at hrunning
    cases hrunning
  · exact hsettled (h.unrequested g hbeyond)

theorem Turns.of_turn (h : Turns s) (hwaiting : s.stages g = .waiting)
    (hturn : s.stages (g - 1) = .settled) : s.TurnOf g := by
  have hsettled : s.stages g ≠ .settled := by
    rw [hwaiting]
    exact nofun
  refine ⟨hsettled, fun other hlt => ?_⟩
  by_contra hnot
  rcases Nat.lt_or_ge other (g - 1) with hlt' | hge
  · rcases h.serial other (g - 1) hlt' hnot with hw | hbeyond
    · exact absurd (hturn.symm.trans hw) nofun
    · exact hsettled (h.unrequested g (by omega))
  · have heq : other = g - 1 := by omega
    exact hnot (heq ▸ hturn)

/-- While it is the turn of an attempt, no other one runs. -/
theorem Turns.others_rest (h : Turns s) (hturn : s.TurnOf g) (other : Nat) (hne : other ≠ g) :
    (s.stages other).running = false := by
  rcases Nat.lt_or_gt_of_ne hne with hlt | hgt
  · rw [hturn.earlier other hlt]
    rfl
  · rcases h.serial g other hgt hturn.unsettled with hwaiting | hbeyond
    · rw [hwaiting]
      rfl
    · rw [h.unrequested other hbeyond]
      rfl

theorem Turns.passes (h : Turns s) (hturn : s.TurnOf g) (hpasses : Passes g s s') : Turns s' := by
  obtain ⟨hgeneration, hattempt, stage, hwaiting, hstages⟩ := hpasses
  have hother : ∀ other, other ≠ g → s'.stages other = s.stages other := by
    intro other hne
    rw [hstages, update_of_ne hne]
  refine ⟨fun other hlatest => ?_, fun other hbeyond => ?_, ?_, fun other later hlt hnot => ?_⟩
  · rcases hattempt with hsame | hnone
    · rw [hgeneration]
      exact h.newest other (hsame ▸ hlatest)
    · exact absurd (hnone.symm.trans hlatest) nofun
  · rw [hgeneration] at hbeyond
    rw [hother other fun heq => hturn.unsettled (heq ▸ h.unrequested other hbeyond)]
    exact h.unrequested other hbeyond
  · rw [hother 0 fun heq => hturn.unsettled (heq ▸ h.zero)]
    exact h.zero
  · rw [hgeneration]
    by_cases heq : later = g
    · subst heq
      rw [hother other (by omega)] at hnot
      exact absurd (hturn.earlier other hlt) hnot
    · rw [hother later heq]
      by_cases heq' : other = g
      · subst heq'
        exact h.serial other later hlt hturn.unsettled
      · rw [hother other heq'] at hnot
        exact h.serial other later hlt hnot

theorem Continues.passes (h : Continues g s s') : Passes g s s' := by
  obtain ⟨s₁, stage, hworks, hrunning, rfl⟩ := h.before
  refine ⟨hworks.generation, .inl hworks.attempt, stage, ?_, ?_⟩
  · rintro rfl
    cases hrunning
  · change update s₁.stages g stage = _
    rw [hworks.stages]

theorem Leaves.passes (h : Leaves g s s') : Passes g s s' := by
  refine ⟨h.generation, ?_, .settled, nofun, h.stages⟩
  rw [h.attempt]
  split
  · exact .inr rfl
  · exact .inl rfl

theorem Moves.passes (h : Moves g s s') : Passes g s s' := by
  cases h with
  | continues h => exact h.passes
  | ends h => exact h.leaves.passes

theorem reject_passes : Passes g s (s.reject g) := ⟨rfl, .inl rfl, .settled, nofun, rfl⟩

/-- A piece of an attempt, guarded or not. -/
theorem resume_passes (participants : List String) (hlatest : s.LatestIsNewest) (reply : Reply) :
    resume participants s g reply = s ∨ Passes g s (resume participants s g reply) := by
  by_cases hguarded : Guarded s (.resume g reply)
  · cases resume_cases participants hlatest hguarded with
    | stays heq => exact .inl heq
    | moves hmoves => exact .inr hmoves.passes
    | commits workspaceId howned hcommits => exact .inr hcommits.leaves.passes
  · right
    rcases resume_unguarded participants hguarded with ⟨_, hcommits⟩ | ⟨_, _, heq⟩
    · exact hcommits.leaves.passes
    · rw [heq]
      exact reject_passes

theorem performActivation_passes (hlatest : s.LatestIsNewest) :
    Passes g s (performActivation participants s g) := by
  by_cases hguarded : s.recoveryRequired = false → (s.attempts g).aborted = false →
    ¬s.OwnerChanged s.current
  · exact (performActivation_moves hlatest hguarded).passes
  · push Not at hguarded
    obtain ⟨hrecovery, haborted, howner⟩ := hguarded
    obtain ⟨s₁, hthrows, hworks⟩ := performActivation_throws participants hrecovery haborted howner
    rw [hthrows]
    refine ⟨hworks.generation, .inl hworks.attempt, .settled, nofun, ?_⟩
    change update s₁.stages g .settled = _
    rw [hworks.stages]

theorem begin_passes (hlatest : s.LatestIsNewest)
    (hturn : s.stages g = .waiting ∧ s.stages (g - 1) = .settled) :
    Passes g s (begin participants s g) := by
  have hlatest' : (s.record (.began g)).LatestIsNewest := hlatest
  have hpasses : ∀ s', Passes g (s.record (.began g)) s' → Passes g s s' := by
    rintro s' ⟨hgeneration, hattempt, stage, hwaiting, hstages⟩
    exact ⟨hgeneration, hattempt, stage, hwaiting, hstages⟩
  unfold begin
  rw [if_pos hturn]
  dsimp only
  split
  · exact hpasses _ (performActivation_passes hlatest')
  · exact hpasses _ (performCurrentDeletion_moves hlatest' _).passes

/-! ## The books along a run -/

structure Sound (participants : List String) (s : State) : Prop where
  turns : Turns s
  booked : s.Booked participants
  stage : ∀ g, (s.stages g).running = true → s.StageOk participants (s.stages g)
  rest : (∀ g, (s.stages g).running = false) → s.AtRest participants

theorem sound_start : Sound participants {} where
  turns := turns_start
  booked := books_start
  stage _ h := absurd h nofun
  rest _ := ⟨State.Quiet.of_none rfl, .inl rfl⟩

/-- One attempt goes on or ends while no other one runs. -/
theorem Sound.passes (h : Sound participants s) (hturn : s.TurnOf g) (hpasses : Passes g s s')
    (hfine : Fine participants g s') : Sound participants s' := by
  have hothers : ∀ other, other ≠ g → (s'.stages other).running = false := by
    intro other hne
    obtain ⟨stage, -, hstages⟩ := hpasses.stages
    rw [hstages, update_of_ne hne]
    exact h.turns.others_rest hturn other hne
  refine ⟨h.turns.passes hturn hpasses, hfine.booked, fun other hrunning => ?_,
    fun hnone => hfine.rest (hnone g)⟩
  by_cases heq : other = g
  · subst heq
    exact hfine.stage hrunning
  · rw [hothers other heq] at hrunning
    cases hrunning

/-- What a request does to the books: nothing but an entry that an attempt is revoked. -/
structure Notes (s s' : State) : Prop where
  log : s'.log = s.log ∨ ∃ g, s'.log = .revoked g :: s.log
  transitions : s'.transitions = s.transitions
  count : s'.transitionCount = s.transitionCount
  current : s'.runtimeTransition = s.runtimeTransition
  progress : s'.progress = s.progress
  lockout : s'.recoveryRequired = s.recoveryRequired

variable {log : List Happening}

theorem DisposedUpTo.revoked {rest : List String} (h : DisposedUpTo participants rest log t) :
    DisposedUpTo participants rest (.revoked g :: log) t := by
  refine ⟨h.1.imp fun p hp hown => ?_, fun p hp hown hmem => ?_⟩
  · exact mem_cons_of_mem _ (hp (ownId_of_cons rfl hown))
  · rcases mem_cons.1 hmem with heq | hmem
    · cases heq
    · exact h.2 p hp (ownId_of_cons rfl hown) hmem

theorem StageOk.revoked {transitions : Nat → RuntimeTransition} {current : Option Nat}
    {stage : Stage} (h : StageOk participants log transitions current stage) :
    StageOk participants (.revoked g :: log) transitions current stage := by
  cases stage with
  | quiescing t rest error =>
    obtain ⟨hcurrent, hstarted, hfailure, hdone, hfailed⟩ := h
    refine ⟨hcurrent, hstarted, hfailure, fun hnone => ?_, fun hsome => ?_⟩
    · exact (hdone hnone).imp fun p hp hown =>
        mem_cons_of_mem _ (hp (ownId_of_cons rfl hown))
    · obtain ⟨p, hp, hmem⟩ := hfailed hsome
      exact ⟨p, hp, mem_cons_of_mem _ hmem⟩
  | saving t quiesceFailure => exact ⟨h.1.cons rfl, h.2⟩
  | flushing t quiesceFailure => exact ⟨h.1.cons rfl, h.2⟩
  | swapDisposing header staged t rest error =>
    exact ⟨h.1.cons rfl, h.2.1, h.2.2.1, fun hnone => (h.2.2.2 hnone).revoked⟩
  | swapActivating header staged t rest error => exact ⟨h.1.cons rfl, h.2⟩
  | disposalQueued workspaceId t => exact ⟨h.1.cons rfl, h.2⟩
  | disposing workspaceId t rest error =>
    exact ⟨h.1.cons rfl, h.2.1, h.2.2.1, h.2.2.2.1, fun hnone => (h.2.2.2.2 hnone).revoked⟩
  | deleting workspaceId t => exact ⟨h.1.cons rfl, h.2.1, mem_cons_of_mem _ h.2.2⟩
  | restoring transition rest anyFailed next =>
    refine ⟨h.1.cons rfl, h.2.1, fun t ht => ?_⟩
    obtain ⟨hdone, hfailed⟩ := h.2.2 t ht
    refine ⟨hdone.imp fun q hq hown hstarted => ?_, fun hany => ?_⟩
    · have hstarted' : Started log t q := by simpa [Started] using hstarted
      rcases hq (ownId_of_cons rfl hown) hstarted' with hr | ⟨hf, hany⟩
      · exact .inl (mem_cons_of_mem _ hr)
      · exact .inr ⟨mem_cons_of_mem _ hf, hany⟩
    · obtain ⟨p, hp⟩ := hfailed hany
      exact ⟨p, mem_cons_of_mem _ hp⟩
  | waiting | invoking | staging _ | swapQueued _ _ _ | reopening _ | settled =>
    exact QuiesceOver.cons h rfl

theorem Notes.refl (s : State) : Notes s s := ⟨.inl rfl, rfl, rfl, rfl, rfl, rfl⟩

theorem Notes.booked (h : Notes s s') (hbooked : s.Booked participants) :
    s'.Booked participants := by
  unfold State.Booked at *
  rw [h.transitions, h.count, h.current, h.progress]
  rcases h.log with hlog | ⟨g, hlog⟩
  · rw [hlog]
    exact hbooked
  · rw [hlog]
    exact hbooked.note rfl

theorem Notes.stageOk (h : Notes s s') {stage : Stage} (hstage : s.StageOk participants stage) :
    s'.StageOk participants stage := by
  unfold State.StageOk at *
  rw [h.transitions, h.current]
  rcases h.log with hlog | ⟨g, hlog⟩
  · rw [hlog]
    exact hstage
  · rw [hlog]
    exact hstage.revoked

theorem Notes.atRest (h : Notes s s') (hrest : s.AtRest participants) : s'.AtRest participants := by
  have hquiet : s'.StageOk participants .settled := h.stageOk hrest.1
  refine ⟨hquiet, ?_⟩
  rw [h.current, h.lockout]
  rcases hrest.2 with hnone | hlockout | ⟨g, hrejected⟩
  · exact .inl hnone
  · exact .inr (.inl hlockout)
  · refine .inr (.inr ⟨g, ?_⟩)
    rcases h.log with hlog | ⟨g', hlog⟩
    · exact hlog ▸ hrejected
    · exact hlog ▸ mem_cons_of_mem _ hrejected

/-- A request that leaves the stages of the attempts that run. -/
theorem Sound.notes (h : Sound participants s) (hnotes : Notes s s') (hturns : Turns s')
    (hstages : ∀ g, s'.stages g = s.stages g ∨
      (s.stages g).running = false ∧ (s'.stages g).running = false) :
    Sound participants s' := by
  refine ⟨hturns, hnotes.booked h.booked, fun g hrunning => ?_, fun hnone => ?_⟩
  · rcases hstages g with heq | ⟨-, hnot⟩
    · rw [heq] at hrunning ⊢
      exact hnotes.stageOk (h.stage g hrunning)
    · exact absurd (hnot.symm.trans hrunning) nofun
  · refine hnotes.atRest (h.rest fun g => ?_)
    rcases hstages g with heq | ⟨hnot, -⟩
    · rw [← heq]
      exact hnone g
    · exact hnot

theorem abortPredecessor_notes (s : State) : Notes s (abortPredecessor s) := by
  unfold abortPredecessor
  split
  · exact Notes.refl s
  · split
    · exact Notes.refl s
    · exact ⟨.inr ⟨_, rfl⟩, rfl, rfl, rfl, rfl, rfl⟩

theorem abortPredecessor_stages (s : State) : (abortPredecessor s).stages = s.stages := by
  unfold abortPredecessor
  split
  · rfl
  · split <;> rfl

theorem Turns.enqueue (h : Turns s) (request : Request) : Turns (enqueue s request) := by
  obtain ⟨hattempt, hgeneration⟩ := abortPredecessor_keeps (s := s)
  have hstages := abortPredecessor_stages s
  unfold workspace_activation.enqueue
  dsimp only
  generalize abortPredecessor s = s₁ at hattempt hgeneration hstages ⊢
  have hold : ∀ other, other ≠ s₁.generation + 1 →
      update s₁.stages (s₁.generation + 1) .waiting other = s.stages other := by
    intro other hne
    rw [update_of_ne hne, hstages]
  refine ⟨fun g hg => (Option.some.inj hg).symm, fun other hother => ?_, ?_,
    fun other later hlt hnot => ?_⟩
  · change s₁.generation + 1 < other at hother
    exact (hold other (by omega)).trans (h.unrequested other (by omega))
  · exact (hold 0 (by omega)).trans h.zero
  · change update s₁.stages _ _ other ≠ _ at hnot
    change update s₁.stages _ _ later = _ ∨ s₁.generation + 1 < later
    by_cases hlater : later = s₁.generation + 1
    · subst hlater
      exact .inl (update_self ..)
    · by_cases hother : other = s₁.generation + 1
      · omega
      · rw [hold other hother] at hnot
        rw [hold later hlater]
        rcases h.serial other later hlt hnot with hwaiting | hbeyond
        · exact .inl hwaiting
        · exact .inr (by omega)

/-- The stages after a request: the attempt waits behind the others. -/
theorem enqueue_stages (h : Turns s) (request : Request) (other : Nat) :
    (enqueue s request).stages other = s.stages other ∨
      s.stages other = .settled ∧ (enqueue s request).stages other = .waiting := by
  obtain ⟨-, hgeneration⟩ := abortPredecessor_keeps (s := s)
  have hstages := abortPredecessor_stages s
  have hfresh : s.stages ((abortPredecessor s).generation + 1) = .settled :=
    h.unrequested _ (by omega)
  by_cases heq : other = (abortPredecessor s).generation + 1
  · subst heq
    exact .inr ⟨hfresh, by simp [workspace_activation.enqueue]⟩
  · left
    simp [workspace_activation.enqueue, heq, hstages]

theorem Sound.enqueue (h : Sound participants s) (request : Request) :
    Sound participants (enqueue s request) := by
  have hnotes := abortPredecessor_notes s
  refine h.notes ⟨hnotes.log, hnotes.transitions, hnotes.count, hnotes.current, hnotes.progress,
    hnotes.lockout⟩ (h.turns.enqueue request) fun other => ?_
  rcases enqueue_stages h.turns request other with heq | ⟨hsettled, hwaiting⟩
  · exact .inl heq
  · refine .inr ⟨?_, ?_⟩
    · rw [hsettled]
      rfl
    · rw [hwaiting]
      rfl

theorem Sound.cancelActivation (h : Sound participants s) (coordinatorCancels : Bool) :
    Sound participants (cancelActivation s coordinatorCancels).2 := by
  unfold workspace_activation.cancelActivation
  split
  · exact h
  · rename_i g hattempt
    split
    · exact h
    · have hturns := h.turns
      exact h.notes ⟨.inr ⟨g, rfl⟩, rfl, rfl, rfl, rfl, rfl⟩
        ⟨hturns.newest, hturns.unrequested, hturns.zero, hturns.serial⟩ fun _ => .inl rfl

theorem sound_step (hnodup : participants.Nodup) (h : Sound participants s)
    (event : ActivationEvent) : Sound participants (step participants s event) := by
  cases event with
  | request request => exact h.enqueue request
  | cancelActivation coordinatorCancels => exact h.cancelActivation coordinatorCancels
  | coordinatorChanges active => exact ⟨{ h.turns with }, h.booked, h.stage, h.rest⟩
  | begin g =>
    change Sound participants (begin participants s g)
    by_cases hturn : s.stages g = .waiting ∧ s.stages (g - 1) = .settled
    · have hturnOf := h.turns.of_turn hturn.1 hturn.2
      have hrest : s.AtRest participants := by
        refine h.rest fun other => ?_
        by_cases heq : other = g
        · rw [heq, hturn.1]
          rfl
        · exact h.turns.others_rest hturnOf other heq
      exact h.passes hturnOf (begin_passes h.turns.newest hturn)
        (begin_fine hnodup h.booked hrest hturn)
    · unfold begin
      rw [if_neg hturn]
      exact h
  | resume g reply =>
    change Sound participants (resume participants s g reply)
    cases hrunning : (s.stages g).running with
    | false =>
      rw [resume_of_not_running hrunning]
      exact h
    | true =>
      rcases resume_passes participants h.turns.newest reply with heq | hpasses
      · rw [heq]
        exact h
      · exact h.passes (h.turns.of_running hrunning) hpasses
          (resume_fine hnodup h.booked hrunning (h.stage g hrunning) reply)

/-! ## The transitions of a run -/

structure Complete (participants : List String) (s : State) : Prop where
  lawful : Lawful (Orderly participants) s.log
  ended : ∀ t id previous, .transitionCreated t id previous ∈ s.log →
    s.runtimeTransition ≠ some t → Over s.log t
  rest : (∀ g, (s.stages g).running = false) →
    s.runtimeTransition = none ∨ s.recoveryRequired = true ∨ ∃ g, .rejected g ∈ s.log

theorem Sound.complete (h : Sound participants s) : Complete participants s := by
  refine ⟨h.booked.lawful, fun t id previous hcreated hnot => ?_, fun hnone => (h.rest hnone).2⟩
  have hlt := ((Books.created h.booked t id previous).1 hcreated).1
  exact (Books.ended h.booked t hlt).2 hnot

/-- In every run the transitions keep to their order, each one but the current one has ended, and
where no attempt runs one that still stands is locked in or was left by an exception. -/
theorem transitions_run_in_order (participants : Participants) (events : List ActivationEvent) :
    Complete participants.ids (run (step participants.ids) {} events) := by
  have hstep : ∀ s event, Sound participants.ids s →
      Sound participants.ids (step participants.ids s event) :=
    fun _ event h => sound_step participants.nodup h event
  exact (run_invariant hstep sound_start events).complete

/-! ## Where the strict order breaks -/

/-- The order that a transition would keep if a deletion did not go on after a failed quiesce or a
failed dispose, and every transition ended in a commit or a restore. -/
def Strict (participants : List String) (past : List Happening) : Happening → Prop
  | .nativeActivation t | .nativeDeletion t =>
    OfWorkspace past t → ∀ p ∈ participants, .quiesceStarted t p ∈ past
  | .disposed t p => .disposed t p ∉ past
  | .transitionCommitted t =>
    ¬Over past t ∧ (OfWorkspace past t → ∀ p ∈ participants, .disposed t p ∈ past)
  | .transitionRestored t =>
    ¬Over past t ∧ ∀ p ∈ participants, .quiesceStarted t p ∈ past ∨ .disposeStarted t p ∈ past →
      .restored t p ∈ past
  | .restoreStarted t p => ∀ q, Behind participants p q →
      .quiesceStarted t q ∈ past ∨ .disposeStarted t q ∈ past → .restoreStarted t q ∈ past
  | .transitionDropped _ => False
  | _ => True

structure InStrictOrder (participants : List String) (s : State) : Prop where
  lawful : Lawful (Strict participants) s.log

theorem InStrictOrder.quiesceStarted (h : InStrictOrder participants s) (t : Nat) (p : String)
    (hlast : s.log.head? = some (.nativeDeletion t)) (id workspaceId : String)
    (hcreated : .transitionCreated t id (some workspaceId) ∈ s.log) (hp : p ∈ participants) :
    .quiesceStarted t p ∈ s.log := by
  obtain ⟨hlawful⟩ := h
  cases hlog : s.log with
  | nil =>
    rw [hlog] at hlast
    cases hlast
  | cons e past =>
    rw [hlog] at hlawful hlast hcreated
    cases hlast
    have hcreated' : .transitionCreated t id (some workspaceId) ∈ past := by
      rcases mem_cons.1 hcreated with heq | hmem
      · cases heq
      · exact hmem
    exact mem_cons_of_mem _ (hlawful.1 ⟨id, workspaceId, hcreated'⟩ p hp)

/-- The deletion of the open workspace, with a participant that fails to quiesce. -/
def unquiescedDeletion : List ActivationEvent :=
  [.request .activate, .begin 1, .resume 1 (.saved none),
   .resume 1 (.activated (.outcome (.completed ⟨"workspace", 1, []⟩))),
   .resume 1 (.staged ⟨"workspace", 1, []⟩), .resume 1 (.done none), .resume 1 (.done none),
   .resume 1 (.done none), .resume 1 (.done none), .request (.deleteCurrent "workspace"),
   .begin 2, .resume 2 (.threw .other), .resume 2 (.done none), .resume 2 (.saved none),
   .resume 2 (.flushed (.completed ())), .resume 2 (.done none), .resume 2 (.done none),
   .resume 2 (.done none), .resume 2 (.done none)]

/-- The second participant is not asked, and the workspace is deleted natively all the same. -/
theorem a_deletion_goes_on_unquiesced :
    ¬InStrictOrder ["session-runtime", "plugin-runtime"]
      (run (step ["session-runtime", "plugin-runtime"]) {} unquiescedDeletion) := by
  intro hstrict
  have hstarted := hstrict.quiesceStarted 1 "plugin-runtime" (by decide +kernel)
    "workspace-transition-2" "workspace" (by decide +kernel) (by decide)
  revert hstarted
  decide +kernel

end bbcom.workspace_activation
