-- What every event of the operation registry keeps: statuses move along the legal transitions, a
-- handler is called once at a time, and what an operation has reached is not taken back.
import Bbcom.Lib.Pending
import Bbcom.OperationRegistry

open bbcom.ipc_contracts bbcom.js bbcom.ordered_map bbcom.ordered_map.OrderedMap bbcom.runs
open bbcom.write_epoch

namespace bbcom.operation_registry

open Option OperationStatus

/-! ## What is kept -/

/-- The statuses that an operation has had, the latest first: each is a legal transition from the
one before, or the one that a cancellation had left. -/
def LegalTrail : List OperationStatus → Prop
  | [] => False
  | [status] => status = .queued
  | now :: before :: earlier => LegalTrail (before :: earlier) ∧
      (now ∈ LEGAL_TRANSITIONS before ∨
        before = .cancelling ∧ now ≠ .cancelling ∧ earlier.head? = some now)

def Invocation.Unfinished (invocation : Invocation) : Prop :=
  ∀ fulfilled, invocation.phase ≠ .finished fulfilled

/-- The promise that stands for an operation in `cancelling` knows the status to go back to. -/
def OperationRegistry.Answered (registry : OperationRegistry) (operationId : String)
    (record : StoredOperation) : Prop :=
  ∃ kind transition, (registry.transitions kind).get operationId = some transition ∧
    transition.settled = false ∧ record.trail.head? = some transition.previousStatus

structure Good (registry : OperationRegistry) : Prop where
  linked : pending_tasks.Linked Invocation.id Invocation.operationId Invocation.Unfinished
    registry.invocations registry.cancelInvocations
  alone : ∀ operationId kind other, other ≠ kind →
    ((registry.transitions kind).get operationId).isSome →
      (registry.transitions other).get operationId = none
  legal : ∀ operationId record, registry.records.get operationId = some record →
    LegalTrail (record.status :: record.trail)
  answered : ∀ operationId record, registry.records.get operationId = some record →
    record.status = .cancelling → registry.Answered operationId record

/-- What an operation has reached stays: its history, a terminal status, its progress. -/
structure Evolves (before after : StoredOperation) : Prop where
  trail : (before.status :: before.trail) <:+ (after.status :: after.trail)
  terminal : before.status ∈ TERMINAL_STATUSES → after.status = before.status
  progress : ∀ progress, before.progress = some progress → ∃ progress',
    after.progress = some progress' ∧ progress.val.1 ≤ progress'.val.1 ∧
      progress'.val.2 = progress.val.2

theorem Evolves.refl (record : StoredOperation) : Evolves record record :=
  ⟨List.suffix_refl _, fun _ => rfl, fun progress h => ⟨progress, h, le_rfl, rfl⟩⟩

theorem Evolves.trans {first second third : StoredOperation} (h : Evolves first second)
    (h' : Evolves second third) : Evolves first third := by
  refine ⟨h.trail.trans h'.trail, fun hterminal => ?_, fun progress hprogress => ?_⟩
  · have hsame := h.terminal hterminal
    exact (h'.terminal (hsame ▸ hterminal)).trans hsame
  · obtain ⟨second, hsecond, hle, htotal⟩ := h.progress progress hprogress
    obtain ⟨third, hthird, hle', htotal'⟩ := h'.progress second hsecond
    exact ⟨third, hthird, hle.trans hle', htotal'.trans htotal⟩

/-- No terminal status has a legal transition. -/
theorem not_terminal_of_legal {source target : OperationStatus}
    (h : target ∈ LEGAL_TRANSITIONS source) : source ∉ TERMINAL_STATUSES := by
  revert h
  cases source <;> simp [LEGAL_TRANSITIONS, TERMINAL_STATUSES]

variable {record' : StoredOperation}

/-- A move of the status, of an operation that is not over. -/
theorem evolves_moved {record : StoredOperation} (h : record.status ∉ TERMINAL_STATUSES)
    (htrail : record'.trail = record.status :: record.trail)
    (hprogress : record'.progress = record.progress) : Evolves record record' := by
  refine ⟨htrail ▸ List.suffix_cons _ _, fun hterminal => absurd hterminal h, ?_⟩
  exact fun progress hold => ⟨progress, hprogress.trans hold, le_rfl, rfl⟩

/-- The records of a registry, later. -/
def Later (before after : OperationRegistry) : Prop :=
  ∀ operationId record, before.records.get operationId = some record →
    ∃ record', after.records.get operationId = some record' ∧ Evolves record record'

theorem Later.refl (registry : OperationRegistry) : Later registry registry :=
  fun _ record h => ⟨record, h, .refl record⟩

theorem Later.trans {first second third : OperationRegistry} (h : Later first second)
    (h' : Later second third) : Later first third := by
  intro operationId record hget
  obtain ⟨second, hsecond, hevolves⟩ := h operationId record hget
  obtain ⟨third, hthird, hevolves'⟩ := h' operationId second hsecond
  exact ⟨third, hthird, hevolves.trans hevolves'⟩

/-- A step that keeps the registry good and goes on from what its operations have reached. -/
structure Sound (before after : OperationRegistry) : Prop where
  good : Good after
  later : Later before after

/-! ## A change of one record -/

namespace OperationRegistry

variable {registry : OperationRegistry} {operationId : String} {record : StoredOperation}

theorem get_setRecord (registry : OperationRegistry) (operationId other : String)
    (record : StoredOperation) : (registry.setRecord operationId record).records.get other =
      if other = operationId then some record else registry.records.get other := by
  by_cases h : other = operationId
  · rw [if_pos h, h]
    exact get_set_self _ _ _
  · rw [if_neg h]
    exact get_set_of_ne _ _ h

theorem later_setRecord (hget : registry.records.get operationId = some record)
    (hevolves : Evolves record record') :
    Later registry (registry.setRecord operationId record') := by
  intro other old hold
  rw [get_setRecord]
  by_cases hother : other = operationId
  · rw [if_pos hother]
    rw [hother, hget] at hold
    obtain rfl := some.inj hold
    exact ⟨record', rfl, hevolves⟩
  · rw [if_neg hother]
    exact ⟨old, hold, .refl old⟩

theorem good_setRecord (h : Good registry) (hlegal : LegalTrail (record.status :: record.trail))
    (hanswered : record.status = .cancelling → registry.Answered operationId record) :
    Good (registry.setRecord operationId record) := by
  refine ⟨h.linked, h.alone, ?_, ?_⟩
  · intro other now hnow
    rw [get_setRecord] at hnow
    by_cases hother : other = operationId
    · rw [if_pos hother] at hnow
      obtain rfl := some.inj hnow
      exact hlegal
    · rw [if_neg hother] at hnow
      exact h.legal other now hnow
  · intro other now hnow hcancelling
    rw [get_setRecord] at hnow
    by_cases hother : other = operationId
    · rw [if_pos hother] at hnow
      obtain rfl := some.inj hnow
      rw [hother]
      exact hanswered hcancelling
    · rw [if_neg hother] at hnow
      exact h.answered other now hnow hcancelling

theorem sound_refl (h : Good registry) : Sound registry registry := ⟨h, .refl registry⟩

/-- A legal transition, other than to `cancelling`. -/
theorem sound_moved (h : Good registry) (record' : StoredOperation)
    (hget : registry.records.get operationId = some record)
    (hlegal : record'.status ∈ LEGAL_TRANSITIONS record.status)
    (hne : record'.status ≠ .cancelling) (htrail : record'.trail = record.status :: record.trail)
    (hprogress : record'.progress = record.progress) :
    Sound registry (registry.setRecord operationId record') := by
  refine ⟨good_setRecord h ?_ fun hnow => absurd hnow hne, later_setRecord hget ?_⟩
  · rw [htrail]
    exact ⟨h.legal operationId record hget, .inl hlegal⟩
  · exact evolves_moved (not_terminal_of_legal hlegal) htrail hprogress

/-- What stands beside the status and the trail may change. -/
theorem sound_keepStatus (h : Good registry) (hget : registry.records.get operationId = some record)
    (hstatus : record'.status = record.status) (htrail : record'.trail = record.trail)
    (hevolves : Evolves record record') :
    Sound registry (registry.setRecord operationId record') := by
  refine ⟨good_setRecord h ?_ fun hnow => ?_, later_setRecord hget hevolves⟩
  · rw [hstatus, htrail]
    exact h.legal operationId record hget
  · have hanswered := h.answered operationId record hget (hstatus ▸ hnow)
    unfold Answered at hanswered ⊢
    rw [htrail]
    exact hanswered

variable {after : OperationRegistry} {status : OperationStatus} {kind : TransitionKind}

/-- The handlers are beside the point. -/
theorem sound_handlers (h : Sound registry after) (cancelHandlers : List String) :
    Sound registry { after with cancelHandlers } :=
  ⟨⟨h.good.linked, h.good.alone, h.good.legal, h.good.answered⟩, h.later⟩

theorem sound_release (h : Sound registry after) (operationId : String) (status : OperationStatus) :
    Sound registry (after.releaseHandlerIfTerminal operationId status) := by
  unfold releaseHandlerIfTerminal
  split
  · exact sound_handlers h _
  · exact h

/-! ## The owner's calls -/

theorem transition_ok (h : registry.transition operationId status = .ok after) :
    registry.shuttingDown = false ∧ ∃ record, registry.records.get operationId = some record ∧
      status ∈ LEGAL_TRANSITIONS record.status ∧
      after = (registry.setRecord operationId (record.setStatus status)).releaseHandlerIfTerminal
        operationId status := by
  unfold transition assertOpen requireRecord assertTransition at h
  cases hopen : registry.shuttingDown with
  | true => simp [hopen, bind, Except.bind] at h
  | false =>
    cases hget : registry.records.get operationId with
    | none => simp [hopen, hget, bind, Except.bind] at h
    | some record =>
      by_cases hlegal : status ∈ LEGAL_TRANSITIONS record.status
      · refine ⟨rfl, record, rfl, hlegal, ?_⟩
        simpa [hopen, hget, hlegal, bind, Except.bind, eq_comm] using h
      · simp [hopen, hget, hlegal, bind, Except.bind] at h

theorem sound_behind {result : Except OperationError OperationRegistry} (h : Good registry)
    (hresult : ∀ after, result = .ok after → Sound registry after) :
    Sound registry (registry.behind result) := by
  unfold behind
  split
  · exact hresult _ rfl
  · exact sound_refl h

theorem sound_transition (h : Good registry) (operationId : String) (hne : status ≠ .cancelling) :
    Sound registry (registry.behind (registry.transition operationId status)) := by
  apply sound_behind h
  intro after hafter
  obtain ⟨_, record, hget, hlegal, rfl⟩ := transition_ok hafter
  exact sound_release (sound_moved h (record.setStatus status) hget hlegal hne rfl rfl)
    operationId status

/-- A failure moves the record of an operation that is not over. -/
theorem fail_cases (registry : OperationRegistry) (operationId : String)
    (error : IpcError JsNumber) :
    (registry.fail operationId error).2 = registry ∨
      ∃ record record', registry.records.get operationId = some record ∧
        record'.status ∈ LEGAL_TRANSITIONS record.status ∧ record'.status = .failed ∧
        record'.trail = record.status :: record.trail ∧ record'.progress = record.progress ∧
        ((registry.fail operationId error).2 = registry.setRecord operationId record' ∨
          (registry.fail operationId error).2 =
            (registry.setRecord operationId record').releaseHandlerIfTerminal operationId
              .failed) := by
  unfold fail requireRecord assertTransition
  cases hget : registry.records.get operationId with
  | none => exact .inl rfl
  | some record =>
    by_cases hlegal : failed ∈ LEGAL_TRANSITIONS record.status
    · simp only [hlegal, if_true]
      split
      · exact .inr ⟨record, record.setStatus .failed, rfl, hlegal, rfl, rfl, rfl, .inl rfl⟩
      · rename_i error _
        exact .inr ⟨record, { record.setStatus .failed with error := some error }, rfl, hlegal,
          rfl, rfl, rfl, .inr rfl⟩
    · simp [hlegal]

theorem sound_fail (h : Good registry) (operationId : String)
    (error : IpcError JsNumber) : Sound registry (registry.fail operationId error).2 := by
  rcases fail_cases registry operationId error with heq | hfailed
  · rw [heq]
    exact sound_refl h
  · obtain ⟨record, record', hget, hlegal, hstatus, htrail, hprogress, hafter⟩ := hfailed
    have hmoved := sound_moved h record' hget hlegal (hstatus ▸ nofun) htrail hprogress
    rcases hafter with heq | heq
    · rw [heq]
      exact hmoved
    · rw [heq]
      exact sound_release hmoved operationId .failed

/-- An update is checked against the progress that there is. -/
theorem checkedProgress_ok {update : OperationProgressUpdate} {progress : Progress}
    (h : checkedProgress operationId record update = .ok progress) :
    record.status ∉ TERMINAL_STATUSES ∧ ∀ old, record.progress = some old →
      old.val.1 ≤ progress.val.1 ∧ progress.val.2 = old.val.2 := by
  unfold checkedProgress at h
  simp only [bind, Except.bind] at h
  split at h
  · cases h
  rename_i hstatus
  split at h
  · cases h
  rename_i totalUnits _
  split at h
  · cases h
  rename_i htotal
  split at h
  · cases h
  split at h
  · split at h
    · cases h
    · rename_i hgrows
      cases h
      refine ⟨hstatus, fun old hold => ?_⟩
      rw [hold] at htotal hgrows
      simp only [map_some, isSome_some, true_and, ne_eq, some.injEq,
        not_not, any_some, decide_eq_true_eq, not_lt] at htotal hgrows
      exact ⟨hgrows, htotal.symm⟩
  · cases h

theorem updateProgress_cases (registry : OperationRegistry) (operationId : String)
    (update : OperationProgressUpdate) :
    (registry.updateProgress operationId update).2 = registry ∨
      ∃ record record' progress, registry.records.get operationId = some record ∧
        record'.status = record.status ∧ record'.trail = record.trail ∧
        record'.progress = some progress ∧
        (∀ old, record.progress = some old →
          old.val.1 ≤ progress.val.1 ∧ progress.val.2 = old.val.2) ∧
        (registry.updateProgress operationId update).2 =
          registry.setRecord operationId record' := by
  unfold updateProgress
  split
  · exact .inl rfl
  rename_i record hrecord
  have hget : registry.records.get operationId = some record := by
    unfold assertOpen requireRecord at hrecord
    cases hopen : registry.shuttingDown with
    | true => simp [hopen, Except.bind] at hrecord
    | false =>
      cases hget : registry.records.get operationId with
      | none => simp [hopen, hget, Except.bind] at hrecord
      | some found => simpa [hopen, hget, Except.bind] using hrecord
  split
  · exact .inl rfl
  rename_i progress hchecked
  have hgrows := (checkedProgress_ok hchecked).2
  dsimp only
  split
  · exact .inr ⟨record, { record with progress := some progress }, progress, hget, rfl, rfl, rfl,
      hgrows, rfl⟩
  · split
    · exact .inr ⟨record, { record with progress := some progress }, progress, hget, rfl, rfl,
        rfl, hgrows, rfl⟩
    · rename_i messageKey _
      exact .inr ⟨record, { record with progress := some progress, messageKey := some messageKey },
        progress, hget, rfl, rfl, rfl, hgrows, rfl⟩

theorem sound_updateProgress (h : Good registry) (operationId : String)
    (update : OperationProgressUpdate) :
    Sound registry (registry.updateProgress operationId update).2 := by
  rcases updateProgress_cases registry operationId update with heq | hupdated
  · rw [heq]
    exact sound_refl h
  · obtain ⟨record, record', progress, hget, hstatus, htrail, hprogress, hgrows, heq⟩ := hupdated
    rw [heq]
    refine sound_keepStatus h hget hstatus htrail ⟨?_, fun _ => hstatus, fun old hold => ?_⟩
    · rw [hstatus, htrail]
    · exact ⟨progress, hprogress, hgrows old hold⟩

variable {input : CreateOperationInput} {progress : Option Progress}

theorem openOperation_ok (h : registry.openOperation input = .ok (operationId, progress)) :
    registry.records.get operationId = none := by
  unfold openOperation at h
  simp only [bind, Except.bind] at h
  split at h
  · cases h
  split at h
  · cases h
  split at h
  · cases h
  rename_i hnew
  split at h
  · cases h
  · cases h
    simpa using hnew

theorem newRecord_ok {sequence : Nat} (h : newRecord input sequence progress = .ok record) :
    record.status = .queued ∧ record.trail = [] := by
  unfold newRecord at h
  simp only [bind, Except.bind] at h
  split at h
  · cases h
  split at h
  · cases h
  split at h
  · cases h
  · cases h
    exact ⟨rfl, rfl⟩

theorem sound_create (h : Good registry) (input : CreateOperationInput) :
    Sound registry (registry.create input).2 := by
  unfold create
  split
  · exact sound_refl h
  · rename_i operationId progress hopened
    have hnone := openOperation_ok hopened
    dsimp only
    split
    · exact ⟨⟨h.linked, h.alone, h.legal, h.answered⟩, .refl registry⟩
    · rename_i record hrecord
      obtain ⟨hstatus, htrail⟩ := newRecord_ok hrecord
      have hgood : Good (registry.setRecord operationId record) := by
        apply good_setRecord h
        · rw [hstatus, htrail]
          rfl
        · rw [hstatus]
          exact nofun
      refine ⟨⟨hgood.linked, hgood.alone, hgood.legal, hgood.answered⟩, ?_⟩
      intro other old hold
      refine ⟨old, ?_, .refl old⟩
      change (registry.setRecord operationId record).records.get other = some old
      rw [get_setRecord, if_neg]
      · exact hold
      · rintro rfl
        rw [hnone] at hold
        cases hold

/-! ## Cancellation and interruption -/

theorem transitions_setTransitions (registry : OperationRegistry) (kind other : TransitionKind)
    (transitions : OrderedMap String StatusTransition) :
    (registry.setTransitions kind transitions).transitions other =
      if other = kind then transitions else registry.transitions other := by
  cases kind <;> cases other <;> rfl

@[simp] theorem records_setTransitions (registry : OperationRegistry) (kind : TransitionKind)
    (transitions : OrderedMap String StatusTransition) :
    (registry.setTransitions kind transitions).records = registry.records := by
  cases kind <;> rfl

theorem linked_setTransitions (h : Good registry) (kind : TransitionKind)
    (transitions : OrderedMap String StatusTransition) :
    pending_tasks.Linked Invocation.id Invocation.operationId Invocation.Unfinished
      (registry.setTransitions kind transitions).invocations
      (registry.setTransitions kind transitions).cancelInvocations := by
  cases kind
  · exact h.linked
  · exact h.linked

/-- A promise is put into its map, or changed there. -/
theorem get_setTransitions (registry : OperationRegistry) (kind other : TransitionKind)
    (operationId id : String) (transition : StatusTransition) :
    ((registry.setTransitions kind ((registry.transitions kind).set operationId
        transition)).transitions other).get id =
      if other = kind ∧ id = operationId then some transition
      else (registry.transitions other).get id := by
  rw [transitions_setTransitions]
  by_cases hkind : other = kind
  · by_cases hid : id = operationId
    · rw [if_pos hkind, if_pos ⟨hkind, hid⟩, hid]
      exact get_set_self _ _ _
    · rw [if_pos hkind, if_neg fun hboth => hid hboth.2, hkind]
      exact get_set_of_ne _ _ hid
  · rw [if_neg hkind, if_neg fun hboth => hkind hboth.1]

/-- The promise that stands for an operation is set, and the record of the operation with it. -/
theorem good_setTransition (h : Good registry) (transition : StatusTransition)
    (records : OrderedMap String StoredOperation)
    (halone : ∀ other, other ≠ kind → (registry.transitions other).get operationId = none)
    (hothers : ∀ id record, id ≠ operationId → records.get id = some record →
      registry.records.get id = some record)
    (hone : ∀ record, records.get operationId = some record →
      LegalTrail (record.status :: record.trail) ∧ (record.status = .cancelling →
        transition.settled = false ∧ record.trail.head? = some transition.previousStatus)) :
    Good { registry.setTransitions kind ((registry.transitions kind).set operationId transition)
      with records } := by
  have hget := get_setTransitions registry kind
  refine ⟨linked_setTransitions h kind _, ?_, ?_, ?_⟩
  · intro id first second hne hsome
    change ((registry.setTransitions kind _).transitions first).get id |>.isSome at hsome
    change ((registry.setTransitions kind _).transitions second).get id = none
    rw [hget] at hsome ⊢
    by_cases hid : id = operationId
    · subst hid
      by_cases hsecond : second = kind
      · have hfirst : first ≠ kind := fun hfirst => hne (hsecond.trans hfirst.symm)
        rw [if_neg fun hboth => hfirst hboth.1, halone first hfirst] at hsome
        cases hsome
      · rw [if_neg fun hboth => hsecond hboth.1]
        exact halone second hsecond
    · rw [if_neg fun hboth => hid hboth.2] at hsome ⊢
      exact h.alone id first second hne hsome
  · intro id record hrecord
    by_cases hid : id = operationId
    · subst hid
      exact (hone record hrecord).1
    · exact h.legal id record (hothers id record hid hrecord)
  · intro id record hrecord hcancelling
    by_cases hid : id = operationId
    · subst hid
      refine ⟨kind, transition, ?_, (hone record hrecord).2 hcancelling⟩
      exact (hget kind id id transition).trans (if_pos ⟨rfl, rfl⟩)
    · obtain ⟨other, old, hold, hrest⟩ :=
        h.answered id record (hothers id record hid hrecord) hcancelling
      refine ⟨other, old, ?_, hrest⟩
      exact (hget other operationId id transition).trans
        ((if_neg fun hboth => hid hboth.2).trans hold)

theorem good_invokeCancelHandler (h : Good registry) (operationId : String) :
    Good (registry.invokeCancelHandler operationId).2 := by
  unfold invokeCancelHandler
  split
  · exact h
  · rename_i hnone
    refine ⟨h.linked.begun rfl ?_ hnone, h.alone, h.legal, h.answered⟩
    intro fulfilled
    dsimp only
    split <;> simp

/-- The record and the promise are set beside each other. -/
theorem beginTransition_eq (registry : OperationRegistry) (kind : TransitionKind)
    (operationId : String) (record : StoredOperation) :
    ∃ invocation, registry.beginTransition kind operationId record =
      { (registry.invokeCancelHandler operationId).2.setTransitions kind
          (((registry.invokeCancelHandler operationId).2.transitions kind).set operationId
            { previousStatus := record.status, invocation }) with
        records := registry.records.set operationId (record.setStatus .cancelling) } := by
  unfold beginTransition invokeCancelHandler setRecord
  dsimp only
  cases registry.cancelInvocations.get operationId with
  | none => cases kind <;> exact ⟨_, rfl⟩
  | some existing => cases kind <;> exact ⟨_, rfl⟩

theorem invokeCancelHandler_keeps (registry : OperationRegistry) (operationId : String) :
    (registry.invokeCancelHandler operationId).2.records = registry.records ∧
      ∀ kind, (registry.invokeCancelHandler operationId).2.transitions kind =
        registry.transitions kind := by
  unfold invokeCancelHandler
  split
  · exact ⟨rfl, fun _ => rfl⟩
  · exact ⟨rfl, fun kind => by cases kind <;> rfl⟩

theorem sound_beginTransition (h : Good registry) (kind : TransitionKind)
    (hget : registry.records.get operationId = some record)
    (hlegal : cancelling ∈ LEGAL_TRANSITIONS record.status)
    (hnone : ∀ other, (registry.transitions other).get operationId = none) :
    Sound registry (registry.beginTransition kind operationId record) := by
  have hinvoked := good_invokeCancelHandler h operationId
  obtain ⟨hrecords, htransitions⟩ := invokeCancelHandler_keeps registry operationId
  obtain ⟨invocation, heq⟩ := beginTransition_eq registry kind operationId record
  rw [heq]
  constructor
  · apply good_setTransition hinvoked _ (registry.records.set operationId _)
    · intro other _
      rw [htransitions]
      exact hnone other
    · intro id old hne hold
      rw [hrecords]
      rwa [get_set_of_ne _ _ hne] at hold
    · intro now hnow
      rw [get_set_self] at hnow
      obtain rfl := some.inj hnow
      exact ⟨⟨h.legal operationId record hget, .inl hlegal⟩, fun _ => ⟨rfl, rfl⟩⟩
  · exact later_setRecord hget (evolves_moved (not_terminal_of_legal hlegal) rfl rfl)

/-- What `cancel` and `interrupt` come to when they return. -/
theorem takeDown_ok (h : registry.takeDown kind operationId = .ok after) :
    after = registry ∨ ∃ record, registry.records.get operationId = some record ∧
      cancelling ∈ LEGAL_TRANSITIONS record.status ∧
      (∀ other, (registry.transitions other).get operationId = none) ∧
      after = registry.beginTransition kind operationId record := by
  unfold takeDown requireRecord assertTransition at h
  simp only [bind, Except.bind] at h
  split at h
  · cases h
  rename_i record hrecord
  have hget : registry.records.get operationId = some record := by
    split at hrecord
    · rename_i found hfound
      cases hrecord
      exact hfound
    · cases hrecord
  split at h
  · exact .inl (Except.ok.inj h).symm
  split at h
  · exact .inl (Except.ok.inj h).symm
  rename_i hcancel
  split at h
  · exact .inl (Except.ok.inj h).symm
  rename_i hinterrupt
  have hlegal : cancelling ∈ LEGAL_TRANSITIONS record.status ∧
      after = registry.beginTransition kind operationId record := by
    by_cases hlegal : cancelling ∈ LEGAL_TRANSITIONS record.status
    · refine ⟨hlegal, ?_⟩
      rw [if_pos hlegal] at h
      split at h
      · split at h
        · cases h
        · exact (Except.ok.inj h).symm
      · exact (Except.ok.inj h).symm
    · rw [if_neg hlegal] at h
      split at h
      · split at h
        · cases h
        · cases h
      · cases h
  refine .inr ⟨record, hget, hlegal.1, ?_, hlegal.2⟩
  intro other
  cases other with
  | cancel => exact not_isSome_iff_eq_none.1 hcancel
  | interrupt => exact not_isSome_iff_eq_none.1 hinterrupt

theorem sound_takeDown (h : Good registry) (kind : TransitionKind) (operationId : String) :
    Sound registry (registry.behind (registry.takeDown kind operationId)) := by
  apply sound_behind h
  intro after hafter
  rcases takeDown_ok hafter with rfl | ⟨record, hget, hlegal, hnone, rfl⟩
  · exact sound_refl h
  · exact sound_beginTransition h kind hget hlegal hnone

theorem sound_interruptActive (h : Good registry) : Sound registry registry.interruptActive := by
  have hstep : ∀ (after : OperationRegistry) (operationId : String), Sound registry after →
      Sound registry (after.behind (after.interrupt operationId)) := by
    intro after operationId hafter
    have hnext := sound_takeDown hafter.good .interrupt operationId
    exact ⟨hnext.good, hafter.later.trans hnext.later⟩
  exact run_invariant hstep (sound_refl h) _

theorem sound_shutdown (h : Good registry) : Sound registry registry.shutdown := by
  unfold shutdown
  split
  · exact sound_refl h
  · have hclosed : Good { registry with shuttingDown := true } :=
      ⟨h.linked, h.alone, h.legal, h.answered⟩
    have hinterrupted := sound_interruptActive hclosed
    exact ⟨hinterrupted.good, hinterrupted.later⟩

/-! ## The answers of the handlers -/

variable {invocation : Invocation}

theorem good_setPhase (h : Good registry) (hmem : invocation ∈ registry.invocations)
    {phase : InvocationPhase}
    (hun : ({ invocation with phase } : Invocation).Unfinished ↔ invocation.Unfinished) :
    Good (registry.setPhase invocation.id phase) := by
  refine ⟨h.linked.map ?_ ?_ ?_, h.alone, h.legal, h.answered⟩
  · exact h.linked.forall_modify hmem (P := fun before after => after.id = before.id)
      (fun _ _ _ => rfl) rfl
  · exact h.linked.forall_modify hmem
      (P := fun before after => after.operationId = before.operationId) (fun _ _ _ => rfl) rfl
  · exact h.linked.forall_modify hmem
      (P := fun before after => after.Unfinished ↔ before.Unfinished) (fun _ _ _ => Iff.rfl) hun

theorem sound_stepInvocation (h : Good registry) (hmem : invocation ∈ registry.invocations)
    (event : OperationEvent) :
    Sound registry (registry.stepInvocation invocation event) := by
  unfold stepInvocation
  split
  · split
    · rename_i hphase
      refine ⟨good_setPhase h hmem ?_, .refl registry⟩
      simp [Invocation.Unfinished, hphase]
    · exact sound_refl h
  · split
    · rename_i hphase
      refine ⟨good_setPhase h hmem ?_, .refl registry⟩
      simp [Invocation.Unfinished, hphase]
    · exact sound_refl h
  · split
    · rename_i fulfilled hphase
      have hended := h.linked.ended hmem (f := fun invocation =>
        { invocation with phase := .finished fulfilled })
        (by simp [Invocation.Unfinished, hphase]) rfl (by simp [Invocation.Unfinished])
      exact ⟨⟨hended, h.alone, h.legal, h.answered⟩, .refl registry⟩
    · exact sound_refl h
  · exact sound_refl h

/-- The promise that stands for an operation in `cancelling` is the only one. -/
theorem answered_eq (h : Good registry) {transition : StatusTransition}
    (htransition : (registry.transitions kind).get operationId = some transition)
    (hget : registry.records.get operationId = some record)
    (hcancelling : record.status = .cancelling) :
    transition.settled = false ∧ record.trail.head? = some transition.previousStatus := by
  obtain ⟨other, found, hfound, hrest⟩ := h.answered operationId record hget hcancelling
  have hkind : other = kind := by
    by_contra hne
    rw [h.alone operationId kind other hne (by simp [htransition])] at hfound
    cases hfound
  subst hkind
  rw [hfound] at htransition
  obtain rfl := some.inj htransition
  exact hrest

/-- The status that a rejected cancellation goes back to. -/
theorem legalTrail_back (h : LegalTrail (record.status :: record.trail))
    (hcancelling : record.status = .cancelling) (hback : record.trail.head? = some status) :
    status ≠ .cancelling ∧ LegalTrail (status :: record.status :: record.trail) := by
  have hne : status ≠ .cancelling := by
    rw [hcancelling] at h
    cases htrail : record.trail with
    | nil =>
      rw [htrail] at hback
      cases hback
    | cons before earlier =>
      rw [htrail] at h hback
      obtain rfl := some.inj hback
      rcases h.2 with hlegal | hagain
      · rintro rfl
        revert hlegal
        decide
      · exact absurd rfl hagain.2.1
  exact ⟨hne, h, .inr ⟨hcancelling, hne, hback⟩⟩

theorem sound_transitionSettles (h : Good registry) (kind : TransitionKind)
    (operationId : String) : Sound registry (registry.transitionSettles kind operationId) := by
  unfold transitionSettles
  split
  · exact sound_refl h
  rename_i transition htransition
  split
  · rename_i fulfilled record hsettled hanswer hget
    have halone : ∀ other, other ≠ kind →
        (registry.transitions other).get operationId = none := fun other hne =>
      h.alone operationId kind other hne (by simp [htransition])
    have hset : ∀ record' : StoredOperation, LegalTrail (record'.status :: record'.trail) →
        record'.status ≠ .cancelling → Evolves record record' →
        Sound registry ((registry.setTransitions kind ((registry.transitions kind).set operationId
          { transition with settled := true })).setRecord operationId record') := by
      intro record' hlegal hne hevolves
      unfold setRecord
      rw [records_setTransitions]
      refine ⟨good_setTransition h _ _ halone ?_ ?_, later_setRecord hget hevolves⟩
      · intro id old hid hold
        rwa [get_set_of_ne _ _ hid] at hold
      · intro now hnow
        rw [get_set_self] at hnow
        obtain rfl := some.inj hnow
        exact ⟨hlegal, fun hnow => absurd hnow hne⟩
    have hlegal := h.legal operationId record hget
    dsimp only
    split
    · rename_i hcancelling
      have hmoves : ∀ status, Evolves record (record.setStatus status) := fun status =>
        evolves_moved (by rw [hcancelling]; decide) rfl rfl
      split
      · apply sound_release
        have htarget : kind.target ∈ LEGAL_TRANSITIONS record.status := by
          rw [hcancelling]
          cases kind <;> decide
        have hne : kind.target ≠ .cancelling := by cases kind <;> decide
        exact hset (record.setStatus kind.target) ⟨hlegal, .inl htarget⟩ hne (hmoves _)
      · obtain ⟨hne, hback⟩ := legalTrail_back hlegal hcancelling
          (answered_eq h htransition hget hcancelling).2
        exact hset (record.setStatus transition.previousStatus) hback hne (hmoves _)
    · rename_i hnot
      have hone : ∀ now, registry.records.get operationId = some now →
          LegalTrail (now.status :: now.trail) ∧ (now.status = .cancelling →
            true = false ∧ now.trail.head? = some transition.previousStatus) := by
        intro now hnow
        rw [hget] at hnow
        obtain rfl := some.inj hnow
        exact ⟨hlegal, fun hcancelling => absurd hcancelling hnot⟩
      have hgood := good_setTransition h { transition with settled := true } registry.records
        halone (fun id old _ hold => hold) hone
      cases kind
      · exact ⟨hgood, .refl registry⟩
      · exact ⟨hgood, .refl registry⟩
  · exact sound_refl h

theorem sound_transitionEnds (h : Good registry) (kind : TransitionKind)
    (operationId : String) : Sound registry (registry.transitionEnds kind operationId) := by
  unfold transitionEnds
  split
  · exact sound_refl h
  rename_i transition htransition
  split
  · rename_i hsettled
    have hget : ∀ other id, ((registry.setTransitions kind
        ((registry.transitions kind).delete operationId)).transitions other).get id =
          if other = kind ∧ id = operationId then none
          else (registry.transitions other).get id := by
      intro other id
      rw [transitions_setTransitions]
      by_cases hkind : other = kind
      · by_cases hid : id = operationId
        · rw [if_pos hkind, if_pos ⟨hkind, hid⟩, hid]
          exact get_delete_self _ _
        · rw [if_pos hkind, if_neg fun hboth => hid hboth.2, hkind]
          exact get_delete_of_ne _ hid
      · rw [if_neg hkind, if_neg fun hboth => hkind hboth.1]
    refine ⟨⟨linked_setTransitions h kind _, ?_, ?_, ?_⟩, ?_⟩
    · intro id first second hne hsome
      rw [hget] at hsome ⊢
      split at hsome
      · cases hsome
      · split
        · rfl
        · exact h.alone id first second hne hsome
    · rw [records_setTransitions]
      exact h.legal
    · intro id record hrecord hcancelling
      rw [records_setTransitions] at hrecord
      obtain ⟨other, found, hfound, hrest⟩ := h.answered id record hrecord hcancelling
      refine ⟨other, found, ?_, hrest⟩
      rw [hget, if_neg]
      · exact hfound
      · rintro ⟨rfl, rfl⟩
        rw [htransition] at hfound
        obtain rfl := some.inj hfound
        rw [hrest.1] at hsettled
        cases hsettled
    · unfold Later
      rw [records_setTransitions]
      exact Later.refl registry
  · exact sound_refl h

/-- An event of an invocation is a step of it, or passes it by. -/
theorem stepInvocation_or_same {P : OperationRegistry → Prop} (hsame : P registry)
    (event : OperationEvent) (hsteps : ∀ invocation ∈ registry.invocations,
      P (registry.stepInvocation invocation event)) (id : Nat) :
    P (match registry.invocations.find? (·.id = id) with
      | none => registry
      | some invocation => registry.stepInvocation invocation event) := by
  split
  · exact hsame
  · rename_i invocation hfind
    exact hsteps invocation (List.mem_of_find?_eq_some hfind)

theorem sound_step (h : Good registry) (event : OperationEvent) :
    Sound registry (registry.step event) := by
  have hinvocation := stepInvocation_or_same (P := Sound registry) (sound_refl h) event
    fun invocation hmem => sound_stepInvocation h hmem event
  cases event with
  | create input => exact sound_create h input
  | start operationId => exact sound_transition h operationId nofun
  | complete operationId => exact sound_transition h operationId nofun
  | fail operationId error => exact sound_fail h operationId error
  | updateProgress operationId update => exact sound_updateProgress h operationId update
  | cancel operationId => exact sound_takeDown h .cancel operationId
  | interrupt operationId => exact sound_takeDown h .interrupt operationId
  | interruptActive => exact sound_interruptActive h
  | shutdown => exact sound_shutdown h
  | invokeHandler id | handlerSettles id fulfilled | invocationEnds id => exact hinvocation id
  | transitionSettles kind operationId => exact sound_transitionSettles h kind operationId
  | transitionEnds kind operationId => exact sound_transitionEnds h kind operationId

end OperationRegistry

end bbcom.operation_registry
