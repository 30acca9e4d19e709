-- Runs of the operation registry: what it tells of an operation is true in every run, as long as no
-- owner reports a completion to a registry that is shutting down.
import Bbcom.OperationTruth

open bbcom.ipc_contracts bbcom.js bbcom.ordered_map.OrderedMap bbcom.runs bbcom.write_epoch

namespace bbcom.operation_registry

open Option StoredOperation

namespace OperationRegistry

def statusOf (registry : OperationRegistry) (operationId : String) : Option OperationStatus :=
  (registry.records.get operationId).map (·.status)

/-- The histories of the operations are legal, their progress is in bounds, and no handler is called
twice at a time. -/
structure Truthful (registry : OperationRegistry) : Prop where
  legal : ∀ operationId record, registry.records.get operationId = some record →
    LegalTrail (record.status :: record.trail)
  bounded : ∀ operationId record, registry.records.get operationId = some record →
    ∀ progress, record.progress = some progress → progress.val.1 ≤ progress.val.2
  oneInvocation : ∀ first ∈ registry.invocations, ∀ second ∈ registry.invocations,
    first.operationId = second.operationId → first.phase = .running → second.phase = .running →
      first = second

/-- The status goes back to the one before `cancelling`: the handler has failed. -/
def PutBack (registry : OperationRegistry) (event : OperationEvent) (operationId : String)
    (before after : StoredOperation) : Prop :=
  before.status = .cancelling ∧ before.trail.head? = some after.status ∧
    ∃ kind transition, event = .transitionSettles kind operationId ∧
      (registry.transitions kind).get operationId = some transition ∧
      registry.answerOf transition.invocation = some false

/-- An event moves statuses along the legal transitions, or puts one back. -/
def StatusesMove (registry : OperationRegistry) (event : OperationEvent) : Prop :=
  ∀ operationId before after, registry.records.get operationId = some before →
    (registry.step event).records.get operationId = some after →
      after.status = before.status ∨ after.status ∈ LEGAL_TRANSITIONS before.status ∨
        registry.PutBack event operationId before after

/-- The operation is not over, and the promise of a cancellation or an interruption of it has not
settled. -/
def BeingTakenDown (registry : OperationRegistry) (operationId : String) : Prop :=
  (∃ status, registry.statusOf operationId = some status ∧ status ∉ TERMINAL_STATUSES) ∧
    ∃ kind, ((registry.transitions kind).get operationId).isSome

/-- A completion that is reported in time stays, all along a run. -/
def CompletionWins (events : List OperationEvent) : Prop :=
  ∀ before operationId after, before ++ .complete operationId :: after <+: events →
    BeingTakenDown (run step {} before) operationId →
      statusOf (run step {} (before ++ .complete operationId :: after)) operationId =
        some .completed

/-- A completion in time finds the registry open, and the operation not put back among the queued
ones by a handler that failed. -/
def CompletionHeard (registry : OperationRegistry) : OperationEvent → Prop
  | .complete operationId => registry.BeingTakenDown operationId →
      registry.shuttingDown = false ∧ registry.statusOf operationId ≠ some .queued
  | _ => True

variable {registry : OperationRegistry} {operationId : String}

theorem Truthful.of_good (h : Good registry) : registry.Truthful := by
  refine ⟨h.legal, fun _ _ _ progress _ => progress.property, ?_⟩
  intro first hfirst second hsecond hsame hrunning hrunning'
  have hun : ∀ invocation : Invocation, invocation.phase = .running → invocation.Unfinished := by
    intro invocation hphase
    simp [Invocation.Unfinished, hphase]
  exact h.linked.one hfirst hsecond (hun first hrunning) (hun second hrunning') hsame

/-! ## How statuses move -/

/-- Every status is kept, or moved along a legal transition. -/
def MovesLegally (registry after : OperationRegistry) : Prop :=
  ∀ operationId record record', registry.records.get operationId = some record →
    after.records.get operationId = some record' →
      record'.status = record.status ∨ record'.status ∈ LEGAL_TRANSITIONS record.status

theorem movesLegally_of_eq {after : OperationRegistry} (h : after.records = registry.records) :
    MovesLegally registry after := by
  intro operationId record record' hget hget'
  rw [h, hget] at hget'
  exact .inl (congrArg status (some.inj hget').symm)

variable {record : StoredOperation}

theorem movesLegally_setRecord (hget : registry.records.get operationId = some record)
    (record' : StoredOperation)
    (hmoves : record'.status = record.status ∨ record'.status ∈ LEGAL_TRANSITIONS record.status) :
    MovesLegally registry (registry.setRecord operationId record') := by
  intro other old now hold hnow
  rw [get_setRecord] at hnow
  by_cases hother : other = operationId
  · subst hother
    rw [if_pos rfl] at hnow
    rw [hget] at hold
    obtain rfl := some.inj hold
    obtain rfl := some.inj hnow
    exact hmoves
  · rw [if_neg hother, hold] at hnow
    exact .inl (congrArg status (some.inj hnow).symm)

theorem records_release (after : OperationRegistry) (operationId : String)
    (status : OperationStatus) :
    (after.releaseHandlerIfTerminal operationId status).records = after.records := by
  unfold releaseHandlerIfTerminal
  split
  · rfl
  · rfl

theorem MovesLegally.of_records {first second : OperationRegistry} (h : MovesLegally registry first)
    (hsame : second.records = first.records) : MovesLegally registry second := by
  unfold MovesLegally at h ⊢
  rw [hsame]
  exact h

theorem movesLegally_behind {result : Except OperationError OperationRegistry}
    (hresult : ∀ after, result = .ok after → MovesLegally registry after) :
    MovesLegally registry (registry.behind result) := by
  unfold behind
  split
  · exact hresult _ rfl
  · exact movesLegally_of_eq rfl

theorem movesLegally_transition (operationId : String) (status : OperationStatus) :
    MovesLegally registry (registry.behind (registry.transition operationId status)) := by
  apply movesLegally_behind
  intro after hafter
  obtain ⟨_, record, hget, hlegal, rfl⟩ := transition_ok hafter
  have hmoves := movesLegally_setRecord hget (record.setStatus status) (.inr hlegal)
  exact hmoves.of_records (records_release _ operationId status)

theorem movesLegally_fail (operationId : String) (error : IpcError JsNumber) :
    MovesLegally registry (registry.fail operationId error).2 := by
  rcases fail_cases registry operationId error with heq | hfailed
  · exact movesLegally_of_eq (by rw [heq])
  · obtain ⟨record, record', hget, hlegal, _, _, _, hafter⟩ := hfailed
    have hmoves := movesLegally_setRecord hget record' (.inr hlegal)
    rcases hafter with heq | heq
    · exact hmoves.of_records (by rw [heq])
    · exact hmoves.of_records (by rw [heq, records_release])

theorem movesLegally_updateProgress (operationId : String) (update : OperationProgressUpdate) :
    MovesLegally registry (registry.updateProgress operationId update).2 := by
  rcases updateProgress_cases registry operationId update with heq | hupdated
  · exact movesLegally_of_eq (by rw [heq])
  · obtain ⟨record, record', _, hget, hstatus, _, _, _, heq⟩ := hupdated
    rw [heq]
    exact movesLegally_setRecord hget record' (.inl hstatus)

theorem movesLegally_create (input : CreateOperationInput) :
    MovesLegally registry (registry.create input).2 := by
  unfold create
  split
  · exact movesLegally_of_eq rfl
  · rename_i operationId progress hopened
    have hnone := openOperation_ok hopened
    dsimp only
    split
    · exact movesLegally_of_eq rfl
    · rename_i record _
      intro other old now hold hnow
      change (registry.setRecord operationId record).records.get other = some now at hnow
      rw [get_setRecord, if_neg] at hnow
      · rw [hold] at hnow
        exact .inl (congrArg status (some.inj hnow).symm)
      · rintro rfl
        rw [hnone] at hold
        cases hold

theorem records_beginTransition (kind : TransitionKind) (operationId : String)
    (record : StoredOperation) :
    (registry.beginTransition kind operationId record).records =
      (registry.setRecord operationId (record.setStatus .cancelling)).records := by
  obtain ⟨_, heq⟩ := beginTransition_eq registry kind operationId record
  rw [heq]
  rfl

theorem movesLegally_takeDown (kind : TransitionKind) (operationId : String) :
    MovesLegally registry (registry.behind (registry.takeDown kind operationId)) := by
  apply movesLegally_behind
  intro after hafter
  rcases takeDown_ok hafter with rfl | ⟨record, hget, hlegal, _, rfl⟩
  · exact movesLegally_of_eq rfl
  · have hmoves := movesLegally_setRecord hget (record.setStatus .cancelling) (.inr hlegal)
    exact hmoves.of_records (records_beginTransition kind operationId record)

/-- One interruption after the other moves each status at most once, to `cancelling`. -/
theorem movesLegally_interruptActive : MovesLegally registry registry.interruptActive := by
  have hstep : ∀ (after : OperationRegistry) (operationId : String),
      (∀ id record record', registry.records.get id = some record →
        after.records.get id = some record' → record'.status = record.status ∨
          record'.status = .cancelling ∧ record'.status ∈ LEGAL_TRANSITIONS record.status) →
      ∀ id record record', registry.records.get id = some record →
        (after.behind (after.interrupt operationId)).records.get id = some record' →
          record'.status = record.status ∨
            record'.status = .cancelling ∧ record'.status ∈ LEGAL_TRANSITIONS record.status := by
    intro after operationId hafter id record record' hget hget'
    cases hresult : after.interrupt operationId with
    | error error =>
      rw [hresult] at hget'
      exact hafter id record record' hget hget'
    | ok next =>
      rw [hresult] at hget'
      change next.records.get id = some record' at hget'
      rcases takeDown_ok hresult with rfl | ⟨found, hfound, hlegal, _, rfl⟩
      · exact hafter id record record' hget hget'
      · rw [records_beginTransition, get_setRecord] at hget'
        by_cases hid : id = operationId
        · subst hid
          rw [if_pos rfl] at hget'
          obtain rfl := some.inj hget'
          rcases hafter id record found hget hfound with hsame | ⟨hcancelling, _⟩
          · exact .inr ⟨rfl, hsame ▸ hlegal⟩
          · rw [hcancelling] at hlegal
            exact absurd hlegal (by decide)
        · rw [if_neg hid] at hget'
          exact hafter id record record' hget hget'
  have hrun := run_invariant hstep (s := registry) (by
    intro id record record' hget hget'
    rw [hget] at hget'
    exact .inl (congrArg status (some.inj hget').symm))
    ((registry.records.filter fun entry => entry.2.status ∉ TERMINAL_STATUSES).map Prod.fst)
  intro id record record' hget hget'
  exact (hrun id record record' hget hget').imp_right And.right

theorem movesLegally_shutdown : MovesLegally registry registry.shutdown := by
  unfold shutdown
  split
  · exact movesLegally_of_eq rfl
  · exact @movesLegally_interruptActive { registry with shuttingDown := true }

/-- What the answer of a handler does to the records. -/
theorem records_transitionSettles (kind : TransitionKind) (operationId : String) :
    (registry.transitionSettles kind operationId).records = registry.records ∨
      ∃ transition record status, (registry.transitions kind).get operationId = some transition ∧
        registry.records.get operationId = some record ∧ record.status = .cancelling ∧
        (status = kind.target ∨ status = transition.previousStatus ∧
          registry.answerOf transition.invocation = some false) ∧
        (registry.transitionSettles kind operationId).records =
          (registry.setRecord operationId (record.setStatus status)).records := by
  unfold transitionSettles
  split
  · exact .inl rfl
  rename_i transition htransition
  split
  · rename_i fulfilled record _ hanswer hget
    dsimp only
    split
    · rename_i hcancelling
      have hset : ∀ status, ((registry.setTransitions kind ((registry.transitions kind).set
          operationId { transition with settled := true })).setRecord operationId
            (record.setStatus status)).records =
          (registry.setRecord operationId (record.setStatus status)).records := by
        intro status
        unfold setRecord
        rw [records_setTransitions]
      refine .inr ⟨transition, record, ?_⟩
      cases fulfilled with
      | true =>
        refine ⟨kind.target, htransition, hget, hcancelling, .inl rfl, ?_⟩
        rw [if_pos rfl, records_release]
        exact hset _
      | false =>
        exact ⟨transition.previousStatus, htransition, hget, hcancelling, .inr ⟨rfl, hanswer⟩,
          hset _⟩
    · exact .inl (records_setTransitions _ _ _)
  · exact .inl rfl

/-- Behind the answer of a handler a status goes on, or back. -/
theorem statusesMove_transitionSettles (h : Good registry) (kind : TransitionKind)
    (operationId : String) : registry.StatusesMove (.transitionSettles kind operationId) := by
  intro id before after hbefore hafter
  change (registry.transitionSettles kind operationId).records.get id = some after at hafter
  rcases @records_transitionSettles registry kind operationId with
    hsame | ⟨transition, record, status, htransition, hget, hcancelling, hor, heq⟩
  · rw [hsame, hbefore] at hafter
    exact .inl (congrArg StoredOperation.status (some.inj hafter).symm)
  rw [heq, get_setRecord] at hafter
  by_cases hid : id = operationId
  · subst hid
    rw [if_pos rfl] at hafter
    rw [hget] at hbefore
    obtain rfl := some.inj hbefore
    obtain rfl := some.inj hafter
    rcases hor with rfl | ⟨rfl, hrejected⟩
    · refine .inr (.inl ?_)
      rw [hcancelling]
      change kind.target ∈ LEGAL_TRANSITIONS .cancelling
      cases kind <;> decide
    · exact .inr (.inr ⟨hcancelling, (answered_eq h htransition hget hcancelling).2, kind,
        transition, rfl, htransition, hrejected⟩)
  · rw [if_neg hid, hbefore] at hafter
    exact .inl (congrArg StoredOperation.status (some.inj hafter).symm)

theorem statusesMove (h : Good registry) (event : OperationEvent) :
    registry.StatusesMove event := by
  have hlegally : MovesLegally registry (registry.step event) → registry.StatusesMove event :=
    fun hmoves id before after hbefore hafter =>
      (hmoves id before after hbefore hafter).imp_right .inl
  have hinvocation := stepInvocation_or_same (P := MovesLegally registry)
    (movesLegally_of_eq rfl) event fun invocation _ => by
      apply movesLegally_of_eq
      unfold stepInvocation
      split
      · split <;> rfl
      · split <;> rfl
      · split <;> rfl
      · rfl
  cases event with
  | create input => exact hlegally (movesLegally_create input)
  | start operationId => exact hlegally (movesLegally_transition operationId .running)
  | complete operationId => exact hlegally (movesLegally_transition operationId .completed)
  | fail operationId error => exact hlegally (movesLegally_fail operationId error)
  | updateProgress operationId update =>
    exact hlegally (movesLegally_updateProgress operationId update)
  | cancel operationId => exact hlegally (movesLegally_takeDown .cancel operationId)
  | interrupt operationId => exact hlegally (movesLegally_takeDown .interrupt operationId)
  | interruptActive => exact hlegally movesLegally_interruptActive
  | shutdown => exact hlegally movesLegally_shutdown
  | invokeHandler id | handlerSettles id fulfilled | invocationEnds id =>
    exact hlegally (hinvocation id)
  | transitionSettles kind operationId => exact statusesMove_transitionSettles h kind operationId
  | transitionEnds kind operationId =>
    apply hlegally
    apply movesLegally_of_eq
    change (registry.transitionEnds kind operationId).records = _
    unfold transitionEnds
    split
    · rfl
    · split
      · exact records_setTransitions _ _ _
      · rfl

theorem statusOf_transition {status : OperationStatus} (hopen : registry.shuttingDown = false)
    (hget : registry.records.get operationId = some record)
    (hlegal : status ∈ LEGAL_TRANSITIONS record.status) :
    (registry.behind (registry.transition operationId status)).statusOf operationId =
      some status := by
  have hok : registry.transition operationId status = .ok
      ((registry.setRecord operationId (record.setStatus status)).releaseHandlerIfTerminal
        operationId status) := by
    simp [transition, assertOpen, requireRecord, assertTransition, hopen, hget, hlegal, bind,
      Except.bind]
  rw [hok]
  unfold behind statusOf
  dsimp only
  rw [records_release, get_setRecord, if_pos rfl]
  rfl

/-- A completion is heard just when the registry is open and the operation no longer queued. -/
theorem statusOf_complete_iff (htaken : registry.BeingTakenDown operationId) :
    (registry.step (.complete operationId)).statusOf operationId = some .completed ↔
      registry.shuttingDown = false ∧ registry.statusOf operationId ≠ some .queued := by
  obtain ⟨⟨status, hstatus, hactive⟩, _⟩ := htaken
  obtain ⟨record, hget, rfl⟩ := map_eq_some_iff.1 hstatus
  constructor
  · intro hcompleted
    change (registry.behind (registry.transition operationId .completed)).statusOf _ = _
      at hcompleted
    cases hresult : registry.transition operationId .completed with
    | error error =>
      rw [hresult] at hcompleted
      change registry.statusOf operationId = some .completed at hcompleted
      rw [hstatus] at hcompleted
      rw [some.inj hcompleted] at hactive
      exact absurd (by decide) hactive
    | ok after =>
      obtain ⟨hopen, found, hfound, hlegal, _⟩ := transition_ok hresult
      rw [hget] at hfound
      obtain rfl := some.inj hfound
      refine ⟨hopen, fun hqueued => ?_⟩
      rw [hstatus] at hqueued
      rw [some.inj hqueued] at hlegal
      exact absurd hlegal (by decide)
  · rintro ⟨hopen, hqueued⟩
    apply statusOf_transition hopen hget
    rw [hstatus] at hqueued
    revert hactive hqueued
    cases record.status <;> decide

theorem good_start : Good {} := by
  refine ⟨.start, ?_, ?_, ?_⟩
  · intro operationId kind other _ hsome
    cases kind <;> cases hsome
  · exact fun _ _ hget => by cases hget
  · exact fun _ _ hget => by cases hget

theorem sound_run (h : Good registry) (events : List OperationEvent) :
    Sound registry (run step registry events) := by
  have hstep : ∀ (after : OperationRegistry) (event : OperationEvent), Sound registry after →
      Sound registry (after.step event) := by
    intro after event hafter
    have hnext := sound_step hafter.good event
    exact ⟨hnext.good, hafter.later.trans hnext.later⟩
  exact run_invariant hstep (sound_refl h) events

theorem completionWins_iff (events : List OperationEvent) :
    CompletionWins events ↔ Along step CompletionHeard {} events := by
  rw [along_iff_split]
  constructor
  · rintro hwins before event after rfl
    cases event with
    | complete operationId =>
      intro htaken
      rw [← statusOf_complete_iff htaken]
      have hprefix : before ++ [.complete operationId] <+:
          before ++ .complete operationId :: after := by
        rw [List.prefix_append_right_inj]
        exact List.cons_prefix_cons.2 ⟨rfl, List.nil_prefix⟩
      have hnow := hwins before operationId [] hprefix htaken
      rw [run_append] at hnow
      exact hnow
    | _ => trivial
  · rintro hheard before operationId after ⟨rest, rfl⟩ htaken
    have hcompleted := (statusOf_complete_iff htaken).2
      (hheard before (.complete operationId) (after ++ rest) (by simp) htaken)
    have hgood := (sound_run good_start (before ++ [.complete operationId])).good
    rw [run_append] at hgood ⊢
    obtain ⟨record, hget, hstatus⟩ := map_eq_some_iff.1 hcompleted
    obtain ⟨record', hget', hevolves⟩ := (sound_run hgood after).later operationId record hget
    unfold statusOf
    change ((run step (step _ (.complete operationId)) after).records.get _).map _ = _
    change (run step (step _ (.complete operationId)) after).records.get _ = _ at hget'
    rw [hget', map_some, hevolves.terminal (by rw [hstatus]; decide), hstatus]

/-- In every run statuses move along the legal transitions, or back from `cancelling` behind a
handler that failed; what an operation has reached stays; a handler runs once at a time. A
completion that is reported before a cancellation or interruption has settled wins, just as long
as the registry is open then. -/
theorem operations_are_truthful_unless_one_completes_in_a_shutdown (events : List OperationEvent) :
    Truthful (run step {} events) ∧ Along step StatusesMove {} events ∧
      (∀ before, before <+: events → Later (run step {} before) (run step {} events)) ∧
      (CompletionWins events ↔ Along step CompletionHeard {} events) := by
  refine ⟨.of_good (sound_run good_start events).good, ?_, ?_, completionWins_iff events⟩
  · rw [along_iff_split]
    exact fun before event _ _ => statusesMove (sound_run good_start before).good event
  · rintro before ⟨after, rfl⟩
    rw [run_append]
    exact (sound_run (sound_run good_start before).good after).later

/-- The owner reports the completion of an operation that a shutdown is interrupting: the report is
refused, and the operation ends interrupted. -/
theorem a_completion_in_a_shutdown_is_lost :
    ¬CompletionWins
      [.create ⟨"import", .workspaceImport, "workspace", none, none, none, true⟩, .start "import",
       .shutdown, .invokeHandler 0, .complete "import", .handlerSettles 0 true, .invocationEnds 0,
       .transitionSettles .interrupt "import", .transitionEnds .interrupt "import"] := by
  intro hwins
  have hcompleted := hwins
    [.create ⟨"import", .workspaceImport, "workspace", none, none, none, true⟩, .start "import",
     .shutdown, .invokeHandler 0] "import"
    [.handlerSettles 0 true, .invocationEnds 0, .transitionSettles .interrupt "import",
     .transitionEnds .interrupt "import"] (List.prefix_refl _)
    ⟨⟨.cancelling, by decide +kernel, by decide⟩, .interrupt, by decide +kernel⟩
  revert hcompleted
  decide +kernel

/-- No operation is left in `cancelling`. In every run one transition stands for it, alone, and when
the handler has answered, the transition takes the operation to its target, or back to a status
that is not `cancelling`. -/
theorem a_cancelling_operation_is_answered (events : List OperationEvent) (operationId : String)
    (hcancelling : statusOf (run step {} events) operationId = some .cancelling) :
    let registry := run step {} events
    ∃ kind transition, (registry.transitions kind).get operationId = some transition ∧
      (∀ other, other ≠ kind → (registry.transitions other).get operationId = none) ∧
      transition.previousStatus ≠ .cancelling ∧
      ∀ fulfilled, registry.answerOf transition.invocation = some fulfilled →
        statusOf (registry.step (.transitionSettles kind operationId)) operationId =
          some (if fulfilled then kind.target else transition.previousStatus) := by
  have h := (sound_run good_start events).good
  generalize run step {} events = registry at h hcancelling ⊢
  obtain ⟨record, hget, hstatus⟩ := map_eq_some_iff.1 hcancelling
  obtain ⟨kind, transition, htransition, hsettled, hback⟩ :=
    h.answered operationId record hget hstatus
  obtain ⟨hne, -⟩ := legalTrail_back (h.legal operationId record hget) hstatus hback
  refine ⟨kind, transition, htransition, fun other hother => ?_, hne, fun fulfilled hanswer => ?_⟩
  · exact h.alone operationId kind other hother (by simp [htransition])
  · change ((registry.transitionSettles kind operationId).records.get operationId).map _ = _
    unfold transitionSettles
    simp only [htransition, hsettled, hanswer, hget, hstatus, if_true]
    cases fulfilled with
    | true =>
      rw [if_pos rfl, records_release, get_setRecord, if_pos rfl]
      rfl
    | false =>
      rw [if_neg Bool.false_ne_true, get_setRecord, if_pos rfl]
      rfl

theorem a_cancelled_import_is_answered :
    ∃ kind, ((run step {} [.create ⟨"import", .workspaceImport, "workspace", none, none,
      none, true⟩,
      .start "import", .cancel "import"]).transitions kind).get "import" ≠ none := by
  obtain ⟨kind, transition, hget, -⟩ := a_cancelling_operation_is_answered
    [.create ⟨"import", .workspaceImport, "workspace", none, none, none, true⟩, .start "import",
      .cancel "import"] "import" (by decide +kernel)
  exact ⟨kind, hget ▸ some_ne_none transition⟩

end OperationRegistry

end bbcom.operation_registry
