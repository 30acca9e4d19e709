-- The save gate of the workspace application service (`acceptingSaveContext` in
-- `workspace-application-service.ts`, `SaveGate` in `save-queues/index.ts`), over the activation of
-- workspaces and the active document of the coordinator. Each event is what runs in one piece. Of a
-- save it matters only which flags and which save health it leaves.
import Bbcom.ActivationReturns
import Bbcom.WorkspaceContracts

open bbcom.contracts
open bbcom.workspace_activation (WorkspaceActionFailure ActivationEvent Request Reply)

namespace bbcom.save_gate

/-! ## The service -/

structure SaveContext where
  epoch : Nat
  workspaceId : String
  deriving DecidableEq, Repr

/-- The ten parts that the code joins with colons. -/
structure SaveGateCacheKey where
  current : Bool
  workspaceEpoch : Nat
  switching : Bool
  hydrating : Bool
  recoveryRequired : Bool
  lastSaveFailure : Nat
  saveInFlight : Bool
  scheduledSaveGroups : Bool
  configQueued : Bool
  framesQueued : Bool
  deriving DecidableEq, Repr

structure SaveGate where
  cache : Option (SaveGateCacheKey × Option SaveContext) := none

def SaveGate.accepting (gate : SaveGate) (key : SaveGateCacheKey) (evaluate : Option SaveContext) :
    Option SaveContext × SaveGate :=
  match gate.cache with
  | some (cachedKey, outcome) =>
    if cachedKey = key then (outcome, gate) else (evaluate, { cache := some (key, evaluate) })
  | none => (evaluate, { cache := some (key, evaluate) })

/-- What the gate asks of an `ActiveWorkspaceViewModel`. -/
structure WorkspaceView where
  workspaceId : String
  saveHealth : WorkspaceSaveHealth

/-- `currentHealth` is the save health of the document that the service holds for installed,
`activeHealth` the one of the document of the coordinator. -/
structure Service where
  activation : workspace_activation.State := {}
  currentHealth : WorkspaceSaveHealth := .clean
  activeHealth : WorkspaceSaveHealth := .clean
  lastSaveFailure : Option WorkspaceActionFailure := none
  saveInFlight : Bool := false
  scheduledSaveGroups : Nat := 0
  configQueued : Bool := false
  framesQueued : Bool := false
  saveGate : SaveGate := {}

namespace Service

variable (s : Service)

def workspaceEpoch : Nat := s.activation.workspaceEpoch

def recoveryRequired : Bool := s.activation.recoveryRequired

def current : Option WorkspaceView := s.activation.current.map (⟨·, s.currentHealth⟩)

/-- The active workspace in the snapshot of the coordinator. -/
def coordinated : Option WorkspaceView :=
  s.activation.coordinator.map fun active => ⟨active.workspaceId, s.activeHealth⟩

/-- `coordinator.acceptsMutations`. -/
def acceptsMutations : Bool := s.coordinated.any (·.saveHealth ≠ .readOnly)

/-- The document of the coordinator where it is of the same workspace, else the own one. -/
def source (current : WorkspaceView) : WorkspaceView :=
  match s.coordinated with
  | some coordinated =>
    if coordinated.workspaceId = current.workspaceId then coordinated else current
  | none => current

def revisionConflict : Bool :=
  s.lastSaveFailure.any (·.code = some "REVISION_CONFLICT")

def currentSaveHealth : Option WorkspaceView → WorkspaceSaveHealth
  | none => .clean
  | some current =>
    let coordinatorHealth := (s.source current).saveHealth
    if s.recoveryRequired || coordinatorHealth = .readOnly || s.revisionConflict then .readOnly
    else if s.lastSaveFailure.isSome || coordinatorHealth = .degraded then .degraded
    else if s.saveInFlight then .saving
    else if s.configQueued || s.framesQueued || 0 < s.scheduledSaveGroups then .pending
    else coordinatorHealth

def currentWorkspaceView : Option WorkspaceView :=
  s.current.map fun current =>
    let source := s.source current
    { source with saveHealth := s.currentSaveHealth (some source) }

def canAcceptSaves (current : Option WorkspaceView) (saveHealth : WorkspaceSaveHealth) : Bool :=
  match current with
  | none => false
  | some current =>
    !s.activation.switching && !s.activation.hydrating && s.lastSaveFailure.isNone &&
      !s.recoveryRequired && saveHealth ≠ .readOnly &&
      s.activation.activeWorkspaceId = some current.workspaceId && s.acceptsMutations

/-- The closure that the gate evaluates when its key has changed. -/
def evaluate : Option SaveContext :=
  let current := s.currentWorkspaceView
  if s.canAcceptSaves current (s.currentSaveHealth current) then
    current.map fun current => { epoch := s.workspaceEpoch, workspaceId := current.workspaceId }
  else none

def saveGateCacheKey : SaveGateCacheKey where
  current := s.activation.current.isSome
  workspaceEpoch := s.workspaceEpoch
  switching := s.activation.switching
  hydrating := s.activation.hydrating
  recoveryRequired := s.recoveryRequired
  lastSaveFailure := if s.lastSaveFailure.isNone then 0 else if s.revisionConflict then 2 else 1
  saveInFlight := s.saveInFlight
  scheduledSaveGroups := 0 < s.scheduledSaveGroups
  configQueued := s.configQueued
  framesQueued := s.framesQueued

def acceptingSaveContext : Option SaveContext × Service :=
  let (outcome, saveGate) := s.saveGate.accepting s.saveGateCacheKey s.evaluate
  (outcome, { s with saveGate })

/-! ## Saves -/

def syncCurrentFromCoordinator : Service :=
  if s.activation.activeWorkspaceId = s.activation.current then
    { s with currentHealth := s.activeHealth }
  else s

/-- The first failure stays; what is buffered is abandoned. -/
def latchSaveFailure (failure : WorkspaceActionFailure) : Service :=
  { s with
    lastSaveFailure := s.lastSaveFailure.or (some failure)
    configQueued := false
    framesQueued := false }.syncCurrentFromCoordinator

/-- What the write engine does to the active document of the coordinator. It writes nothing for one
that is read-only. -/
def setSaveHealth (health : WorkspaceSaveHealth) : Service :=
  if s.activeHealth = .readOnly then s else { s with activeHealth := health }

/-- The end of `coordinator.deleteWorkspace`, for a call that no attempt waits for. -/
def removeActive (workspaceId : String) : Service :=
  if s.activation.activeWorkspaceId = some workspaceId then
    { s with activation := { s.activation with coordinator := none } }
  else s

/-! ## Activation -/

/-- The piece gives `current` another document: that of a new epoch, or the one of a rollback. -/
def assignsCurrent (after : workspace_activation.State) : ActivationEvent → Bool
  | .resume g _ =>
    after.workspaceEpoch ≠ s.workspaceEpoch ||
      match s.activation.stages g with
      | .restoring _ [] _ next => next.view.isSome
      | _ => false
  | _ => false

/-- A piece of the activation. `saveHealth` is that of the document which it opens or installs. -/
def activate (participants : List String) (e : ActivationEvent) (saveHealth : WorkspaceSaveHealth) :
    Service :=
  let activation := workspace_activation.step participants s.activation e
  let next := { s with
    activation
    activeHealth := if s.activation.opens e then saveHealth else s.activeHealth
    currentHealth := if s.assignsCurrent activation e then saveHealth else s.currentHealth }
  -- `openEpoch`
  if activation.workspaceEpoch = s.workspaceEpoch then next
  else { next with
    lastSaveFailure := none
    saveInFlight := false
    scheduledSaveGroups := 0
    configQueued := false
    framesQueued := false }

end Service

inductive Event
  | request (request : Request)
  | cancelActivation (coordinatorCancels : Bool)
  | begin (generation : Nat)
  | resume (generation : Nat) (reply : Reply) (saveHealth : WorkspaceSaveHealth)
  | setSaveHealth (health : WorkspaceSaveHealth)
  /-- A commit moves the revision of the active document. -/
  | committed (revision : Nat)
  | removeActive (workspaceId : String)
  | syncCurrentFromCoordinator
  | scheduleSaveGroup
  | saveGroupBegins
  | saveGroupEnds
  | queues (configQueued framesQueued : Bool)
  | latchSaveFailure (failure : WorkspaceActionFailure)
  | acceptingSaveContext
  deriving DecidableEq

def step (participants : List String) (s : Service) : Event → Service
  | .request request => s.activate participants (.request request) .clean
  | .cancelActivation coordinatorCancels =>
    s.activate participants (.cancelActivation coordinatorCancels) .clean
  | .begin g => s.activate participants (.begin g) .clean
  | .resume g reply saveHealth => s.activate participants (.resume g reply) saveHealth
  | .setSaveHealth health => s.setSaveHealth health
  | .committed revision =>
    { s with activation := { s.activation with
               coordinator := s.activation.coordinator.map ({ · with revision }) } }
  | .removeActive workspaceId => s.removeActive workspaceId
  | .syncCurrentFromCoordinator => s.syncCurrentFromCoordinator
  | .scheduleSaveGroup => { s with scheduledSaveGroups := s.scheduledSaveGroups + 1 }
  | .saveGroupBegins => { s with saveInFlight := true }
  | .saveGroupEnds =>
    { s with scheduledSaveGroups := s.scheduledSaveGroups - 1, saveInFlight := false }
  | .queues configQueued framesQueued => { s with configQueued, framesQueued }
  | .latchSaveFailure failure => s.latchSaveFailure failure
  | .acceptingSaveContext => s.acceptingSaveContext.2

/-- The gate says what the conditions say. -/
def Service.Transparent (s : Service) : Prop := s.acceptingSaveContext.1 = s.evaluate

instance (s : Service) : Decidable s.Transparent :=
  inferInstanceAs (Decidable (s.acceptingSaveContext.1 = s.evaluate))

/-! ## What the conditions come to -/

/-- The key leaves the decision to the coordinator. -/
def SaveGateCacheKey.accepts (key : SaveGateCacheKey) : Bool :=
  key.current && !key.switching && !key.hydrating && !key.recoveryRequired &&
    key.lastSaveFailure == 0

/-- The coordinator has the workspace that is installed, and writes it. No part of the key says
so. -/
def Service.Ready (s : Service) : Prop :=
  s.activation.activeWorkspaceId = s.activation.current ∧ s.activeHealth ≠ .readOnly

instance (s : Service) : Decidable s.Ready :=
  inferInstanceAs (Decidable (_ ∧ _))

/-- The context of the workspace that is installed. -/
def Service.context (s : Service) : Option SaveContext :=
  s.activation.current.map fun workspaceId => { epoch := s.workspaceEpoch, workspaceId }

variable {s s' : Service}

open Service

theorem source_workspaceId (current : WorkspaceView) :
    (s.source current).workspaceId = current.workspaceId := by
  unfold source
  split
  · split
    · assumption
    · rfl
  · rfl

theorem source_of_active {current : WorkspaceView}
    (hactive : s.activation.activeWorkspaceId = some current.workspaceId) :
    (s.source current).saveHealth = s.activeHealth ∧
      s.acceptsMutations = decide (s.activeHealth ≠ .readOnly) := by
  obtain ⟨active, hcoordinator, hid⟩ := Option.map_eq_some_iff.1 hactive
  simp [source, acceptsMutations, coordinated, hcoordinator, hid]

theorem currentSaveHealth_readOnly (current : WorkspaceView) :
    s.currentSaveHealth (some current) = .readOnly ↔ s.recoveryRequired = true ∨
      (s.source current).saveHealth = .readOnly ∨ s.revisionConflict = true := by
  unfold currentSaveHealth
  dsimp only
  split_ifs with hreadOnly hdegraded hsaving hpending
  · simpa [or_assoc] using hreadOnly
  all_goals
    simp only [Bool.or_eq_true, decide_eq_true_eq, not_or] at hreadOnly
    simp [hreadOnly]

/-- The latched failure of a key that accepts is none. -/
theorem accepts_iff : s.saveGateCacheKey.accepts = true ↔ s.activation.current.isSome = true ∧
    s.activation.switching = false ∧ s.activation.hydrating = false ∧
      s.recoveryRequired = false ∧ s.lastSaveFailure = none := by
  have hfailure : s.saveGateCacheKey.lastSaveFailure = 0 ↔ s.lastSaveFailure = none := by
    unfold saveGateCacheKey
    cases s.lastSaveFailure with
    | none => simp
    | some failure => simp [ite_eq_iff]
  unfold SaveGateCacheKey.accepts
  rw [Bool.and_eq_true, beq_iff_eq, hfailure]
  simp [saveGateCacheKey, and_assoc]

theorem canAcceptSaves_iff (current : WorkspaceView) :
    s.canAcceptSaves (some current) (s.currentSaveHealth (some current)) = true ↔
      s.activation.switching = false ∧ s.activation.hydrating = false ∧
        s.recoveryRequired = false ∧ s.lastSaveFailure = none ∧
          s.activation.activeWorkspaceId = some current.workspaceId ∧
            s.activeHealth ≠ .readOnly := by
  have hreadOnly := currentSaveHealth_readOnly (s := s) current
  unfold canAcceptSaves
  by_cases hactive : s.activation.activeWorkspaceId = some current.workspaceId
  · obtain ⟨hsource, hmutations⟩ := source_of_active hactive
    rw [hsource] at hreadOnly
    cases hfailure : s.lastSaveFailure with
    | none =>
      simp [hreadOnly, hmutations, hactive, hfailure, revisionConflict]
      tauto
    | some failure => simp
  · simp [hactive]

theorem evaluate_eq :
    s.evaluate = if s.saveGateCacheKey.accepts ∧ s.Ready then s.context else none := by
  unfold evaluate context Ready
  simp only [accepts_iff]
  cases hview : s.currentWorkspaceView with
  | none =>
    have hcurrent : s.activation.current = none := by
      simpa [currentWorkspaceView, current] using hview
    simp [hcurrent, canAcceptSaves]
  | some view =>
    obtain ⟨current, hcurrent, hid⟩ : ∃ current, s.activation.current = some current ∧
        view.workspaceId = current := by
      simp only [currentWorkspaceView, current, Option.map_map,
        Option.map_eq_some_iff, Function.comp_apply] at hview
      obtain ⟨current, hcurrent, rfl⟩ := hview
      exact ⟨current, hcurrent, source_workspaceId _⟩
    subst hid
    simp only [canAcceptSaves_iff, hcurrent]
    simp [and_assoc]

end bbcom.save_gate
