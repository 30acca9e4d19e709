-- The activation of workspaces (`activation-coordinator.ts`, `hydration-pipeline.ts`,
-- `recovery-handler.ts`) over the transition of their runtimes
-- (`workspace-transition-coordinator.ts`). Each event is what runs in one piece, between two
-- awaits. What the application shows of it (status, message key, notifications) is left out.
import Bbcom.Lib.Histories
import Bbcom.Lib.Runs

namespace bbcom.workspace_activation

open Function

/-! ## Outcomes and headers -/

structure WorkspaceActionFailure where
  messageKey : String
  code : Option String := none
  deriving DecidableEq, Repr

inductive WorkspaceActionOutcome (α : Type)
  | completed (value : α)
  | failed (failure : WorkspaceActionFailure)
  | cancelled
  | stale
  deriving DecidableEq, Repr

def failed (messageKey : String) : WorkspaceActionFailure := { messageKey := messageKey }

def rollbackFailed : WorkspaceActionFailure := failed "workspace.activation.rollback_failed"

/-- What `ActiveWorkspaceViewModel` says of a workspace that hydration compares. -/
structure ActiveWorkspaceViewModel where
  workspaceId : String
  revision : Nat
  sessionIds : List String
  deriving DecidableEq, Repr

structure StagedSession where
  id : String
  rebindRequired : Bool
  isConnected : Bool
  autoLogEnabled : Bool
  logPath : Option String
  deriving DecidableEq, Repr

structure WorkspaceHydrationStaging where
  workspaceId : String
  revision : Nat
  sessions : List StagedSession
  deriving DecidableEq, Repr

/-- An exception, by what the hydration asks of it. -/
inductive HydrationError
  /-- One with the name `AbortError`. -/
  | abort
  | other
  deriving DecidableEq, Repr

/-! ## Attempts, transitions and progress -/

inductive ActivationPhase
  | queued | draining | activating | hydrating | committing | rollingBack | terminal
  deriving DecidableEq, Repr

/-- An attempt is named by its `generation`. `aborted` is the signal of its controller. -/
structure ActivationAttempt where
  aborted : Bool := false
  previousWorkspaceId : Option String := none
  nativeActivationStarted : Bool := false
  cancelledByUser : Bool := false
  activatedWorkspaceId : Option String := none
  phase : ActivationPhase := .queued
  deriving DecidableEq, Repr

/-- A transition is named by its place among all that were created; `id` is the key of the
progress of its participants. -/
structure RuntimeTransition where
  id : String := ""
  previousWorkspaceId : Option String := none
  quiesceStarted : Bool := false
  quiesceFailure : Option WorkspaceActionFailure := none
  disposeStarted : Bool := false
  disposeCompleted : Bool := false
  stoppedWorkspaceId : Option String := none
  deriving DecidableEq, Repr

/-- The ids that the constructor of `WorkspaceTransitionCoordinator` accepts. -/
structure Participants where
  ids : List String
  named : "" ∉ ids
  nodup : ids.Nodup

structure ParticipantProgress where
  quiesceStarted : List String := []
  quiesced : List String := []
  disposed : List String := []
  activated : List String := []
  committed : List String := []
  restored : List String := []
  deriving DecidableEq, Repr

inductive Request
  /-- `openWorkspace`, `createWorkspace` or `importWorkspace`. -/
  | activate
  | deleteCurrent (workspaceId : String)
  deriving DecidableEq, Repr

/-- Who waits for `recoverActivationOwner`: `abortAndRecoverActivation`, or
`rollbackFailedActivation` after a failed hydration. -/
inductive RecoveryCaller
  | aborted
  | hydrationFailed
  deriving DecidableEq, Repr

/-- What follows on `restoreRuntimeAfterAbortedTransition`. -/
inductive AfterRestore
  | drainFailed (failure : WorkspaceActionFailure)
  | invokeThrew
  | activationEnded (outcome : WorkspaceActionOutcome Unit)
  | recovered (caller : RecoveryCaller) (rollbackView : Option ActiveWorkspaceViewModel)
  | staleCleared (workspaceId : String)
  | deletionEnded (outcome : WorkspaceActionOutcome Unit)
  deriving DecidableEq, Repr

/-- The await at which an attempt stands. In a loop over participants the first one of `rest` is
awaited; where none is left, or one has thrown `error`, the call itself is. -/
inductive Stage
  | waiting
  | quiescing (transition : Nat) (rest : List String) (error : Option HydrationError)
  | saving (transition : Nat) (quiesceFailure : Option WorkspaceActionFailure)
  | flushing (transition : Nat) (quiesceFailure : Option WorkspaceActionFailure)
  | invoking
  | staging (header : ActiveWorkspaceViewModel)
  | swapQueued (header : ActiveWorkspaceViewModel) (staged : WorkspaceHydrationStaging)
      (transition : Nat)
  | swapDisposing (header : ActiveWorkspaceViewModel) (staged : WorkspaceHydrationStaging)
      (transition : Nat) (rest : List String) (error : Option HydrationError)
  | swapActivating (header : ActiveWorkspaceViewModel) (staged : WorkspaceHydrationStaging)
      (transition : Nat) (rest : List String) (error : Option HydrationError)
  | disposalQueued (workspaceId : String) (transition : Nat)
  | disposing (workspaceId : String) (transition : Nat) (rest : List String)
      (error : Option HydrationError)
  | deleting (workspaceId : String) (transition : Nat)
  | reopening (caller : RecoveryCaller)
  | restoring (transition : Option Nat) (rest : List String) (anyFailed : Bool)
      (next : AfterRestore)
  | settled
  deriving DecidableEq, Repr

/-- What has happened, for the record: the code keeps none of it. -/
inductive Happening
  | began (generation : Nat)
  | ended (generation : Nat)
  /-- The promise of the attempt was rejected. -/
  | rejected (generation : Nat)
  /-- `cancelActivation` returned true for the attempt, or a later request superseded it. -/
  | revoked (generation : Nat)
  | committing (generation : Nat)
  | facadeReplaced (generation : Nat) (workspaceId : Option String)
  | workspaceDeleted (generation : Nat)
  | transitionCreated (transition : Nat) (id : String) (previousWorkspaceId : Option String)
  | quiesceStarted (transition : Nat) (participant : String)
  | quiesced (transition : Nat) (participant : String)
  | quiesceFailed (transition : Nat) (participant : String)
  | nativeActivation (transition : Nat)
  | nativeDeletion (transition : Nat)
  | disposeStarted (transition : Nat) (participant : String)
  | disposed (transition : Nat) (participant : String)
  | disposeFailed (transition : Nat) (participant : String)
  | restoreStarted (transition : Nat) (participant : String)
  | restored (transition : Nat) (participant : String)
  | restoreFailed (transition : Nat) (participant : String)
  | transitionCommitted (transition : Nat)
  | transitionRestored (transition : Nat)
  | transitionDropped (transition : Nat)
  deriving DecidableEq, Repr

/-- `coordinator` is the active workspace of the coordinator, `current` the id of the workspace
that the application holds for installed, `facade` the one that the facade shows. -/
structure State where
  generation : Nat := 0
  attempts : Nat → ActivationAttempt := fun _ => {}
  requests : Nat → Request := fun _ => .activate
  stages : Nat → Stage := fun _ => .settled
  attempt : Option Nat := none
  current : Option String := none
  recoveryRequired : Bool := false
  switching : Bool := false
  hydrating : Bool := false
  transitions : Nat → RuntimeTransition := fun _ => {}
  transitionCount : Nat := 0
  runtimeTransition : Option Nat := none
  internalDrainTransition : Option Nat := none
  progress : String → ParticipantProgress := fun _ => {}
  coordinator : Option ActiveWorkspaceViewModel := none
  facade : Option String := none
  log : List Happening := []

def State.activeWorkspaceId (s : State) : Option String := s.coordinator.map (·.workspaceId)

def State.modifyAttempt (s : State) (g : Nat) (f : ActivationAttempt → ActivationAttempt) : State :=
  { s with attempts := update s.attempts g (f (s.attempts g)) }

def State.setPhase (s : State) (g : Nat) (phase : ActivationPhase) : State :=
  s.modifyAttempt g fun a => { a with phase := phase }

def State.modifyTransition (s : State) (t : Nat) (f : RuntimeTransition → RuntimeTransition) :
    State :=
  { s with transitions := update s.transitions t (f (s.transitions t)) }

def State.goTo (s : State) (g : Nat) (stage : Stage) : State :=
  { s with stages := update s.stages g stage }

def State.record (s : State) (happening : Happening) : State :=
  { s with log := happening :: s.log }

/-- The promise of the attempt settles, and its successor may begin. -/
def State.settle (s : State) (g : Nat) : State := (s.record (.ended g)).goTo g .settled

/-- An exception that nothing catches. -/
def State.reject (s : State) (g : Nat) : State := (s.record (.rejected g)).settle g

/-- The progress under the id of a transition. -/
def State.forTransition (s : State) (t : Nat) : ParticipantProgress :=
  s.progress (s.transitions t).id

def State.modifyProgress (s : State) (t : Nat) (f : ParticipantProgress → ParticipantProgress) :
    State :=
  { s with
    progress := update s.progress (s.transitions t).id (f (s.forTransition t)) }

/-! ## The tracker (`activation-types.ts`) -/

def State.isActive (s : State) (g : Nat) : Bool :=
  !(s.attempts g).aborted && (s.attempts g).phase != .rollingBack &&
    (s.attempts g).phase != .terminal

def State.isLatest (s : State) (g : Nat) : Bool := s.attempt == some g && g == s.generation

/-! ## Requests -/

/-- The phases in which a predecessor is not aborted any more. -/
def ActivationPhase.decided : ActivationPhase → Bool
  | committing | terminal => true
  | _ => false

/-- What `activate` and `deleteCurrentWorkspace` do to the latest attempt. That the coordinator
drops its call too shows in the outcome that the call has later. -/
def abortPredecessor (s : State) : State :=
  match s.attempt with
  | none => s
  | some g =>
    if (s.attempts g).phase.decided then s
    else (s.modifyAttempt g fun a => { a with aborted := true }).record (.revoked g)

/-- `activate` and `deleteCurrentWorkspace`: the attempt is queued behind the tail. -/
def enqueue (s : State) (request : Request) : State :=
  let s := abortPredecessor s
  let g := s.generation + 1
  { s with
    generation := g
    attempts := update s.attempts g {}
    requests := update s.requests g request
    stages := update s.stages g .waiting
    attempt := some g
    switching := true
    hydrating := false }

/-- `coordinatorCancels` is what the coordinator answers where there is no attempt. -/
def cancelActivation (s : State) (coordinatorCancels : Bool) : Bool × State :=
  match s.attempt with
  | none => (coordinatorCancels, s)
  | some g =>
    if (s.attempts g).phase.decided then (false, s)
    else
      let s := s.modifyAttempt g fun a => { a with cancelledByUser := true, aborted := true }
      (true, { s.record (.revoked g) with switching := true, hydrating := false })

/-! ## Ends of an attempt -/

def finishAbortedQueuedAttempt (s : State) (g : Nat) : State :=
  if s.isLatest g then { s with attempt := none, switching := false, hydrating := false } else s

def finishActivationFailure (s : State) (g : Nat) (failure : WorkspaceActionFailure) : State :=
  let s := s.setPhase g .terminal
  if s.isLatest g then
    { s with
      switching := false
      hydrating := false
      recoveryRequired :=
        s.recoveryRequired ||
          failure.messageKey == "workspace.activation.rollback_failed"
      attempt := none }
  else s

def finishActivationOutcome (s : State) (g : Nat) (outcome : WorkspaceActionOutcome Unit) : State :=
  let s := s.setPhase g .terminal
  if s.isLatest g then
    match outcome with
    | .failed failure => finishActivationFailure s g failure
    | _ => { s with switching := false, hydrating := false, attempt := none }
  else s

def enterRecoveryLockout (s : State) (latestIsOwner : Bool) : State :=
  { s with
    recoveryRequired := true
    switching := false
    hydrating := false
    attempt := if latestIsOwner then none else s.attempt }

def markRecoveryRequired (s : State) (owner : Nat) : State :=
  match s.attempt with
  | none => enterRecoveryLockout s false
  | some latest =>
    if latest ≠ owner ∧ (s.attempts latest).phase ≠ .committing then
      enterRecoveryLockout (s.modifyAttempt latest fun a => { a with aborted := true }) false
    else enterRecoveryLockout s (latest == owner)

/-- An attempt whose runtimes were to be restored ends in `failure`, or in the lockout. -/
def finishRestored (s : State) (g : Nat) (restored : Bool) (failure : WorkspaceActionFailure) :
    State :=
  if restored then (finishActivationFailure s g failure).settle g
  else (finishActivationFailure (markRecoveryRequired s g) g rollbackFailed).settle g

/-- An attempt without a completed outcome ends in it, or in the lockout. -/
def finishOutcome (s : State) (g : Nat) (restored : Bool) (outcome : WorkspaceActionOutcome Unit) :
    State :=
  if restored then (finishActivationOutcome s g outcome).settle g
  else (finishActivationFailure (markRecoveryRequired s g) g rollbackFailed).settle g

/-! ## Restoring the runtimes -/

/-- The loop of `restore` over the participants in reverse order, up to the next call. -/
def restoreFrom (s : State) (g t : Nat) (rest : List String) (anyFailed : Bool)
    (next : AfterRestore) : State :=
  let progress := s.forTransition t
  match rest.dropWhile fun p =>
      progress.restored.contains p ||
        (!progress.quiesceStarted.contains p && !progress.disposed.contains p) with
  | [] => s.goTo g (.restoring (some t) [] anyFailed next)
  | p :: rest =>
    (s.record (.restoreStarted t p)).goTo g (.restoring (some t) (p :: rest) anyFailed next)

/-- `restoreRuntimeAfterAbortedTransition`, up to its await. -/
def restoreRuntimeAfterAbortedTransition (participants : List String) (s : State) (g : Nat)
    (next : AfterRestore) : State :=
  match s.runtimeTransition with
  | none => s.goTo g (.restoring none [] false next)
  | some t =>
    let transition := s.transitions t
    if transition.quiesceStarted || transition.disposeStarted ||
        transition.stoppedWorkspaceId.isSome then
      restoreFrom s g t participants.reverse false next
    else s.goTo g (.restoring (some t) [] false next)

/-- `recoverActivationOwner`, up to its first await. -/
def recoverActivationOwner (participants : List String) (s : State) (g : Nat)
    (caller : RecoveryCaller) : State :=
  let s := s.setPhase g .rollingBack
  match (s.attempts g).previousWorkspaceId with
  | none => restoreRuntimeAfterAbortedTransition participants s g (.recovered caller none)
  | some previousWorkspaceId =>
    if (s.attempts g).nativeActivationStarted || s.activeWorkspaceId != some previousWorkspaceId
    then s.goTo g (.reopening caller)
    else restoreRuntimeAfterAbortedTransition participants s g (.recovered caller none)

def abortAndRecoverActivation (participants : List String) (s : State) (g : Nat) : State :=
  recoverActivationOwner participants s g .aborted

/-- `adoptRollbackView`. -/
def adoptRollbackView (s : State) (g : Nat) (view : Option ActiveWorkspaceViewModel) : State :=
  match view with
  | none => s
  | some view =>
    if s.current = (s.attempts g).previousWorkspaceId then { s with current := view.workspaceId }
    else s

/-- What follows on `recoverActivationOwner`. -/
def finishRecovery (s : State) (g : Nat) (recovered : Bool) (caller : RecoveryCaller) : State :=
  let s := s.setPhase g .terminal
  if !recovered then (markRecoveryRequired s g).settle g
  else match caller with
    | .aborted => (finishAbortedQueuedAttempt s g).settle g
    | .hydrationFailed =>
      if s.isLatest g then
        (finishActivationFailure s g (failed "workspace.hydration.failed")).settle g
      else s.settle g

/-! ## Draining -/

def ensureRuntimeTransition (s : State) (previousWorkspaceId : Option String) :
    Option (Nat × State) :=
  match s.runtimeTransition with
  | some t =>
    -- the owner changed before completion: it throws
    if (s.transitions t).previousWorkspaceId ≠ previousWorkspaceId then none else some (t, s)
  | none =>
    let t := s.transitionCount
    let id := s!"workspace-transition-{s.generation}"
    some (t, { s.record (.transitionCreated t id previousWorkspaceId) with
        transitionCount := t + 1
        transitions := update s.transitions t
          { id := id, previousWorkspaceId := previousWorkspaceId }
        runtimeTransition := some t })

/-- The loop of `quiesce` over the participants, up to the next call. -/
def quiesceFrom (s : State) (g t : Nat) (rest : List String) : State :=
  match rest.dropWhile (s.forTransition t).quiesced.contains with
  | [] => s.goTo g (.quiescing t [] none)
  | p :: rest =>
    let s := s.modifyProgress t fun progress =>
      { progress with quiesceStarted := p :: progress.quiesceStarted }
    (s.record (.quiesceStarted t p)).goTo g (.quiescing t (p :: rest) none)

/-- `performActivationDrain`, up to its first await. The drain before it has settled, so that
`switchDrain` is free. -/
def performActivationDrain (participants : List String) (s : State) (g t : Nat) : State :=
  if (s.transitions t).previousWorkspaceId.isSome && !(s.transitions t).quiesceStarted then
    let s := s.modifyTransition t fun transition => { transition with quiesceStarted := true }
    quiesceFrom { s with internalDrainTransition := some t } g t participants
  else s.goTo g (.saving t (s.transitions t).quiesceFailure)

/-! ## Activation -/

def hydrateAfterNativeActivation (s : State) (g : Nat) (header : ActiveWorkspaceViewModel) :
    State :=
  let s := s.setPhase g .hydrating
  { s with hydrating := true }.goTo g (.staging header)

/-- `performActivation`, up to its first await. -/
def performActivation (participants : List String) (s : State) (g : Nat) : State :=
  if s.recoveryRequired then
    (finishActivationFailure s g rollbackFailed).settle g
  else if (s.attempts g).aborted then
    let s := s.setPhase g .terminal
    (finishAbortedQueuedAttempt s g).settle g
  else
    let s := s.modifyAttempt g fun a => { a with previousWorkspaceId := s.current }
    match ensureRuntimeTransition s s.current with
    | none => s.reject g
    | some (t, s) =>
      performActivationDrain participants
        (s.setPhase g .draining) g t

/-- `performActivation` after its drain. -/
def activateAfterDrain (participants : List String) (s : State) (g t : Nat)
    (drainFailure : Option WorkspaceActionFailure) : State :=
  if !s.isActive g then abortAndRecoverActivation participants s g
  else match drainFailure with
    | some failure =>
      restoreRuntimeAfterAbortedTransition participants s g (.drainFailed failure)
    | none =>
      let s := s.modifyAttempt g fun a =>
        { a with phase := .activating, nativeActivationStarted := true }
      (s.record (.nativeActivation t)).goTo g .invoking

/-- How the coordinator answers: with an outcome, or an exception. -/
inductive Answer (α : Type)
  | outcome (outcome : WorkspaceActionOutcome α)
  | threw
  deriving DecidableEq, Repr

def WorkspaceActionOutcome.dropValue {α β : Type} (value : β) :
    WorkspaceActionOutcome α → WorkspaceActionOutcome β
  | completed _ => .completed value
  | failed failure => .failed failure
  | cancelled => .cancelled
  | stale => .stale

/-- `performActivation` after the native call. -/
def activateAfterInvoke (participants : List String) (s : State) (g : Nat) :
    Answer ActiveWorkspaceViewModel → State
  | .threw =>
    if !s.isActive g then abortAndRecoverActivation participants s g
    else restoreRuntimeAfterAbortedTransition participants s g .invokeThrew
  | .outcome (.completed header) =>
    -- the coordinator has made the workspace its active one
    let s := { s with coordinator := some header }
    let s := s.modifyAttempt g fun a => { a with activatedWorkspaceId := header.workspaceId }
    if !s.isActive g then abortAndRecoverActivation participants s g
    else hydrateAfterNativeActivation s g header
  | .outcome outcome =>
    if !s.isActive g then abortAndRecoverActivation participants s g
    else
      restoreRuntimeAfterAbortedTransition participants s g
        (.activationEnded (outcome.dropValue ()))

/-! ## Hydration -/

def sameSessionSet (expected actual : List String) : Bool :=
  expected.length == actual.length && decide expected.Nodup && decide actual.Nodup &&
    expected.all actual.contains

def StagedSession.stopped (session : StagedSession) : Bool :=
  session.rebindRequired && !session.isConnected && !session.autoLogEnabled &&
    session.logPath.isNone

/-- `assertCurrentHydration`. -/
def assertCurrentHydration (s : State) (g : Nat) (header : ActiveWorkspaceViewModel)
    (staged : WorkspaceHydrationStaging) : Except HydrationError Unit :=
  if !s.isActive g || s.activeWorkspaceId != some header.workspaceId ||
      staged.workspaceId != header.workspaceId || staged.revision != header.revision then
    .error .abort
  else if s.coordinator.map (·.revision) != some header.revision then .error .other
  else if !sameSessionSet header.sessionIds (staged.sessions.map (·.id)) then .error .other
  else if !staged.sessions.all (·.stopped) then .error .other
  else .ok ()

def assertAttemptOwnsRuntimeTransition (s : State) (g t : Nat) : Bool :=
  s.isActive g && s.runtimeTransition == some t

/-- The `catch` of `hydrateAfterNativeActivation`. -/
def hydrationCaught (participants : List String) (s : State) (g : Nat) (error : HydrationError) :
    State :=
  if !s.isActive g || error == .abort then abortAndRecoverActivation participants s g
  else recoverActivationOwner participants s g .hydrationFailed

/-- The hydration after its staging, up to the queue of the lifecycle. -/
def swapAfterStaging (participants : List String) (s : State) (g : Nat)
    (header : ActiveWorkspaceViewModel) (staged : WorkspaceHydrationStaging) : State :=
  match assertCurrentHydration s g header staged with
  | .error error => hydrationCaught participants s g error
  | .ok () =>
    match ensureRuntimeTransition s (s.attempts g).previousWorkspaceId with
    | none => hydrationCaught participants s g .other
    | some (t, s) => s.goTo g (.swapQueued header staged t)

/-- The loop of `dispose` over the participants, up to the next call, in the stage of its caller. -/
def disposeFrom (s : State) (g t : Nat) (rest : List String)
    (stage : List String → Option HydrationError → Stage) : State :=
  match rest.dropWhile (s.forTransition t).disposed.contains with
  | [] => s.goTo g (stage [] none)
  | p :: rest => (s.record (.disposeStarted t p)).goTo g (stage (p :: rest) none)

/-- The loop of `activateStopped` over the participants, up to the next call. -/
def activateStoppedFrom (s : State) (g t : Nat) (rest : List String)
    (stage : List String → Option HydrationError → Stage) : State :=
  s.goTo g (stage (rest.dropWhile (s.forTransition t).activated.contains) none)

/-- `prepareRuntimeFacadeSwap` after the old runtimes are down. -/
def activateStopped (participants : List String) (s : State) (g t : Nat)
    (header : ActiveWorkspaceViewModel) (staged : WorkspaceHydrationStaging) : State :=
  if !assertAttemptOwnsRuntimeTransition s g t then hydrationCaught participants s g .abort
  else
    let s := s.modifyTransition t fun transition =>
      { transition with stoppedWorkspaceId := header.workspaceId }
    activateStoppedFrom s g t participants (.swapActivating header staged t)

/-- The stage of `prepareRuntimeFacadeSwap`, when the lifecycle is free. -/
def prepareRuntimeFacadeSwap (participants : List String) (s : State) (g t : Nat)
    (header : ActiveWorkspaceViewModel) (staged : WorkspaceHydrationStaging) : State :=
  if !assertAttemptOwnsRuntimeTransition s g t then hydrationCaught participants s g .abort
  else if (s.transitions t).previousWorkspaceId.isSome && !(s.transitions t).disposeCompleted then
    let s := s.modifyTransition t fun transition => { transition with disposeStarted := true }
    disposeFrom s g t participants (.swapDisposing header staged t)
  else activateStopped participants s g t header staged

/-- `commit` of the lifecycle: the participants up to the one that throws, if one does. -/
def commitTransition (participants : List String) (s : State) (t : Nat) (throws : Option String) :
    State :=
  let s := s.record (.transitionCommitted t)
  match throws with
  | none => { s with progress := update s.progress (s.transitions t).id {} }
  | some p =>
    let committing := participants.takeWhile (· ≠ p)
    s.modifyProgress t fun progress =>
      { progress with committed := progress.committed ++ committing }

/-- What ends a transition that is the current one. -/
def State.closeTransition (s : State) (t : Nat) : State :=
  { s with
    runtimeTransition := if s.runtimeTransition = some t then none else s.runtimeTransition
    internalDrainTransition :=
      if s.internalDrainTransition = some t then none else s.internalDrainTransition }

/-- The commit of the transition that has stopped the runtimes of the workspace. -/
def commitStopped (participants : List String) (s : State) (header : ActiveWorkspaceViewModel)
    (commitThrows : Option String) : State :=
  match s.runtimeTransition with
  | some t =>
    if (s.transitions t).stoppedWorkspaceId = some header.workspaceId then
      (commitTransition participants s t commitThrows).closeTransition t
    else s
  | none => s

/-- `installHydratedWorkspace`. -/
def installHydratedWorkspace (participants : List String) (s : State) (g : Nat)
    (header : ActiveWorkspaceViewModel) (commitThrows : Option String) : State :=
  let s := { s with current := some header.workspaceId, recoveryRequired := false,
                    hydrating := false }
  let s := s.setPhase g .terminal
  let s := commitStopped participants s header commitThrows
  if s.attempt = some g then { s with attempt := none, switching := false }
  else { s with switching := true }

/-- The facade shows `workspaceId`, by the attempt that is at its commit point. -/
def State.commitFacade (s : State) (g : Nat) (workspaceId : Option String) : State :=
  let s := s.setPhase g .committing
  { (s.record (.committing g)).record (.facadeReplaced g workspaceId) with facade := workspaceId }

/-- The end of `hydrateAfterNativeActivation`. -/
def commitHydration (participants : List String) (s : State) (g t : Nat)
    (header : ActiveWorkspaceViewModel) (staged : WorkspaceHydrationStaging)
    (commitThrows : Option String) : State :=
  if !assertAttemptOwnsRuntimeTransition s g t then hydrationCaught participants s g .abort
  else match assertCurrentHydration s g header staged with
    | .error error => hydrationCaught participants s g error
    | .ok () =>
      let s := s.commitFacade g (some header.workspaceId)
      (installHydratedWorkspace participants s g header commitThrows).settle g

/-! ## Deletion -/

/-- `performCurrentDeletion` from its transition on, up to the drain. -/
def startDeletion (participants : List String) (s : State) (g : Nat) (workspaceId : String) :
    State :=
  match ensureRuntimeTransition s (some workspaceId) with
  | none => s.reject g
  | some (t, s) =>
    performActivationDrain participants
      (s.setPhase g .draining) g t

/-- `performCurrentDeletion`, up to its first await. -/
def performCurrentDeletion (participants : List String) (s : State) (g : Nat)
    (workspaceId : String) : State :=
  if s.current ≠ some workspaceId ∧ s.activeWorkspaceId ≠ some workspaceId then
    (finishActivationFailure s g (failed "workspace.delete.failed")).settle g
  else
    let s := s.modifyAttempt g fun a => { a with previousWorkspaceId := some workspaceId }
    match s.runtimeTransition with
    | none => startDeletion participants s g workspaceId
    | some t =>
      if (s.transitions t).previousWorkspaceId ≠ some workspaceId then
        restoreRuntimeAfterAbortedTransition participants s g (.staleCleared workspaceId)
      else startDeletion participants s g workspaceId

/-- `performCurrentDeletion` once the stale transition was to be restored. -/
def deleteAfterClear (participants : List String) (s : State) (g : Nat) (workspaceId : String) :
    State :=
  match s.runtimeTransition with
  | none => startDeletion participants s g workspaceId
  | some t =>
    startDeletion participants
      { s.record (.transitionDropped t) with
        runtimeTransition := none
        internalDrainTransition := none } g workspaceId

/-- `performCurrentDeletion` after its drain: the disposal is queued behind the lifecycle. -/
def deleteAfterDrain (participants : List String) (s : State) (g t : Nat) (workspaceId : String) :
    State :=
  if !s.isActive g then abortAndRecoverActivation participants s g
  else
    let s := s.setPhase g .activating
    s.goTo g (.disposalQueued workspaceId t)

/-- The native deletion, whether the runtimes went down or not. -/
def deleteNative (s : State) (g t : Nat) (workspaceId : String) : State :=
  (s.record (.nativeDeletion t)).goTo g (.deleting workspaceId t)

/-- The disposal, when the lifecycle is free. An attempt that is not active any more throws, and
the `catch` goes on to the native deletion. -/
def disposeForDeletion (participants : List String) (s : State) (g t : Nat)
    (workspaceId : String) : State :=
  let owns := assertAttemptOwnsRuntimeTransition s g t
  let s := s.modifyTransition t fun transition => { transition with disposeStarted := true }
  if owns then disposeFrom s g t participants (.disposing workspaceId t)
  else deleteNative s g t workspaceId

/-- The end of `performCurrentDeletion` once the workspace is deleted. -/
def commitDeletion (participants : List String) (s : State) (g t : Nat) (workspaceId : String)
    (commitThrows : Option String) : State :=
  let s := if s.activeWorkspaceId = some workspaceId then { s with coordinator := none } else s
  let s := (s.record (.workspaceDeleted g)).commitFacade g none
  let s := { s with current := none, recoveryRequired := false }
  let s := (commitTransition participants s t commitThrows).closeTransition t
  let s := s.setPhase g .terminal
  { s with
    attempt := if s.attempt = some g then none else s.attempt
    switching := false
    hydrating := false }.settle g

/-! ## One step -/

/-- What an await of an attempt answers. -/
inductive Reply
  /-- Its promise is fulfilled. `commitThrows` is the participant that throws in a `commit`
  which follows in the same piece. -/
  | done (commitThrows : Option String)
  /-- Its promise is rejected. -/
  | threw (error : HydrationError)
  | saved (lastSaveFailure : Option WorkspaceActionFailure)
  | flushed (outcome : WorkspaceActionOutcome Unit)
  | activated (answer : Answer ActiveWorkspaceViewModel)
  | staged (staging : WorkspaceHydrationStaging)
  | reopened (answer : Answer ActiveWorkspaceViewModel)
  | deleted (outcome : WorkspaceActionOutcome Unit) (commitThrows : Option String)
  deriving DecidableEq, Repr

inductive ActivationEvent
  | request (request : Request)
  | cancelActivation (coordinatorCancels : Bool)
  /-- The active workspace of the coordinator changes: a save, another action. -/
  | coordinatorChanges (active : Option ActiveWorkspaceViewModel)
  /-- The tail hands over to an attempt. -/
  | begin (generation : Nat)
  /-- An attempt goes on after an await. -/
  | resume (generation : Nat) (reply : Reply)

/-- What `drainBeforeActivation` returned goes to the function that called it. -/
def afterDrain (participants : List String) (s : State) (g t : Nat)
    (drainFailure : Option WorkspaceActionFailure) : State :=
  match s.requests g with
  | .activate => activateAfterDrain participants s g t drainFailure
  | .deleteCurrent workspaceId => deleteAfterDrain participants s g t workspaceId

/-- The drain after the barrier of the saves. -/
def drainAfterSaves (participants : List String) (s : State) (g t : Nat)
    (quiesceFailure lastSaveFailure : Option WorkspaceActionFailure) : State :=
  match lastSaveFailure with
  | some failure => afterDrain participants s g t (some failure)
  | none =>
    if s.current = none ∨ s.activeWorkspaceId ≠ s.current then
      afterDrain participants s g t quiesceFailure
    else s.goTo g (.flushing t quiesceFailure)

def saveFailure : WorkspaceActionOutcome Unit → Option WorkspaceActionFailure
  | .failed failure => some failure
  | .completed _ => none
  | .cancelled | .stale => some (failed "workspace.save.interrupted")

/-- The rest of the drain, after `quiesce`. -/
def endQuiesce (s : State) (g t : Nat) (quiesceThrew : Bool) : State :=
  let s := if quiesceThrew then
      s.modifyTransition t fun transition =>
        { transition with quiesceFailure := some (failed "workspace.runtime.quiesce_failed") }
    else s
  let s := { s with internalDrainTransition :=
               if s.internalDrainTransition = some t then none else s.internalDrainTransition }
  s.goTo g (.saving t (s.transitions t).quiesceFailure)

/-- What follows on `restoreRuntimeAfterAbortedTransition`, in the function that called it. -/
def continueAfterRestore (participants : List String) (s : State) (g : Nat) (restored : Bool) :
    AfterRestore → State
  | .drainFailed failure =>
    if !s.isActive g then abortAndRecoverActivation participants s g
    else finishRestored s g restored failure
  | .invokeThrew => finishRestored s g restored (failed "workspace.activation.failed")
  | .activationEnded outcome | .deletionEnded outcome => finishOutcome s g restored outcome
  | .recovered caller rollbackView =>
    finishRecovery (if restored then adoptRollbackView s g rollbackView else s) g restored caller
  | .staleCleared workspaceId => deleteAfterClear participants s g workspaceId

/-- The end of `restoreRuntimeAfterAbortedTransition`. -/
def endRestore (participants : List String) (s : State) (g : Nat) (transition : Option Nat)
    (anyFailed : Bool) (next : AfterRestore) : State :=
  match transition with
  | none => continueAfterRestore participants s g true next
  | some t =>
    if anyFailed then continueAfterRestore participants s g false next
    else
      continueAfterRestore participants ((s.record (.transitionRestored t)).closeTransition t) g
        true next

/-- `recoverActivationOwner` after the previous workspace was to be opened again. -/
def recoverAfterReopen (participants : List String) (s : State) (g : Nat)
    (caller : RecoveryCaller) :
    Answer ActiveWorkspaceViewModel → State
  | .outcome (.completed view) =>
    let s := { s with coordinator := some view }
    if (s.attempts g).previousWorkspaceId ≠ some view.workspaceId then
      finishRecovery s g false caller
    else restoreRuntimeAfterAbortedTransition participants s g (.recovered caller (some view))
  | _ => finishRecovery s g false caller

/-- An attempt goes on. A reply that its await cannot give changes nothing. -/
def resume (participants : List String) (s : State) (g : Nat) (reply : Reply) : State :=
  match s.stages g, reply with
  | .quiescing t (p :: rest) none, .done _ =>
    let s := s.modifyProgress t fun progress => { progress with quiesced := p :: progress.quiesced }
    quiesceFrom (s.record (.quiesced t p)) g t rest
  | .quiescing t (p :: _) none, .threw error =>
    (s.record (.quiesceFailed t p)).goTo g (.quiescing t [] (some error))
  | .quiescing t [] error, .done _ => endQuiesce s g t error.isSome
  | .saving t quiesceFailure, .saved lastSaveFailure =>
    drainAfterSaves participants s g t quiesceFailure lastSaveFailure
  | .flushing t quiesceFailure, .flushed outcome =>
    afterDrain participants s g t ((saveFailure outcome).or quiesceFailure)
  | .flushing _ _, .threw _ => s.reject g
  | .invoking, .activated answer => activateAfterInvoke participants s g answer
  | .staging header, .staged staging => swapAfterStaging participants s g header staging
  | .staging _, .threw error => hydrationCaught participants s g error
  | .swapQueued header staged t, .done _ =>
    prepareRuntimeFacadeSwap participants s g t header staged
  | .swapDisposing header staged t (p :: rest) none, .done _ =>
    let s := s.modifyProgress t fun progress => { progress with disposed := p :: progress.disposed }
    disposeFrom (s.record (.disposed t p)) g t rest (.swapDisposing header staged t)
  | .swapDisposing header staged t (p :: _) none, .threw error =>
    (s.record (.disposeFailed t p)).goTo g (.swapDisposing header staged t [] (some error))
  | .swapDisposing _ _ _ [] (some error), .done _ => hydrationCaught participants s g error
  | .swapDisposing header staged t [] none, .done _ =>
    let s := s.modifyTransition t fun transition => { transition with disposeCompleted := true }
    activateStopped participants s g t header staged
  | .swapActivating header staged t (p :: rest) none, .done _ =>
    let s := s.modifyProgress t fun progress =>
      { progress with activated := p :: progress.activated }
    activateStoppedFrom s g t rest (.swapActivating header staged t)
  | .swapActivating header staged t (_ :: _) none, .threw error =>
    s.goTo g (.swapActivating header staged t [] (some error))
  | .swapActivating _ _ _ [] (some error), .done _ => hydrationCaught participants s g error
  | .swapActivating header staged t [] none, .done commitThrows =>
    commitHydration participants s g t header staged commitThrows
  | .disposalQueued workspaceId t, .done _ => disposeForDeletion participants s g t workspaceId
  | .disposing workspaceId t (p :: rest) none, .done _ =>
    let s := s.modifyProgress t fun progress => { progress with disposed := p :: progress.disposed }
    disposeFrom (s.record (.disposed t p)) g t rest (.disposing workspaceId t)
  | .disposing workspaceId t (p :: _) none, .threw error =>
    (s.record (.disposeFailed t p)).goTo g (.disposing workspaceId t [] (some error))
  | .disposing workspaceId t [] (some _), .done _ => deleteNative s g t workspaceId
  | .disposing workspaceId t [] none, .done _ =>
    let s := s.modifyTransition t fun transition => { transition with disposeCompleted := true }
    deleteNative s g t workspaceId
  | .deleting workspaceId t, .deleted (.completed ()) commitThrows =>
    commitDeletion participants s g t workspaceId commitThrows
  | .deleting _ _, .deleted outcome _ =>
    restoreRuntimeAfterAbortedTransition participants s g (.deletionEnded outcome)
  | .deleting _ _, .threw _ => s.reject g
  | .reopening caller, .reopened answer => recoverAfterReopen participants s g caller answer
  | .restoring (some t) (p :: rest) anyFailed next, .done _ =>
    let s := s.modifyProgress t fun progress => { progress with restored := p :: progress.restored }
    restoreFrom (s.record (.restored t p)) g t rest anyFailed next
  | .restoring (some t) (p :: rest) _ next, .threw _ =>
    restoreFrom (s.record (.restoreFailed t p)) g t rest true next
  | .restoring transition [] anyFailed next, .done _ =>
    endRestore participants s g transition anyFailed next
  | _, _ => s

/-- The tail hands over to the attempt, once its predecessor has settled. -/
def begin (participants : List String) (s : State) (g : Nat) : State :=
  if s.stages g = .waiting ∧ s.stages (g - 1) = .settled then
    let s := s.record (.began g)
    match s.requests g with
    | .activate => performActivation participants s g
    | .deleteCurrent workspaceId => performCurrentDeletion participants s g workspaceId
  else s

def step (participants : List String) (s : State) : ActivationEvent → State
  | .request request => enqueue s request
  | .cancelActivation coordinatorCancels => (cancelActivation s coordinatorCancels).2
  | .coordinatorChanges active => { s with coordinator := active }
  | .begin g => begin participants s g
  | .resume g reply => resume participants s g reply

end bbcom.workspace_activation
