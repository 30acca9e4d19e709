-- The registry of session runtimes (`application-runtime-registry.ts`): a factory creates them,
-- a disposer takes them down, and both answer later. Each event is what runs in one piece,
-- between two awaits.
import Bbcom.Lib.OrderedMap
import Bbcom.Lib.Runs
import Bbcom.WorkspaceValidation

open bbcom.ordered_map bbcom.ordered_map.OrderedMap bbcom.write_epoch

namespace bbcom.runtime_registry

class ApplicationSessionIdentity (TSession : Type) where
  id : TSession → String

inductive RuntimeDisposalReason
  | sessionRemoved
  | reconcile
  | applicationShutdown
  deriving DecidableEq, Repr

inductive RegistryError
  | shutDown
  | duplicateRuntime (sessionId : String)
  | duplicateIdentity (sessionId : String)
  | emptySessionId
  /-- What the hook `updateRuntime` throws. -/
  | updateFailed
  deriving DecidableEq, Repr

/-- The key of an entry is its `sessionId`. A runtime is its place among all that the factory
produced. -/
structure MutableRuntimeEntry (TSession : Type) where
  session : TSession
  runtime : Nat
  deriving DecidableEq, Repr

/-- How the promise of a creation settles. -/
inductive CreationOutcome
  | fulfilled (runtime : Nat)
  | factoryFailed
  | superseded
  | disposalFailed
  deriving DecidableEq, Repr

/-- What does not count among the failures of the shutdown. -/
def CreationOutcome.clean : CreationOutcome → Bool
  | .fulfilled _ | .superseded => true
  | .factoryFailed | .disposalFailed => false

/-- How far `beginCreation` has come. -/
inductive CreationPhase
  | scheduled
  | creating
  /-- The factory has answered; what follows on the answer has still to run. -/
  | produced (runtime : Nat)
  | disposing (runtime : Nat)
  | settled (outcome : CreationOutcome)
  /-- Its `finally` has run. -/
  | finished (outcome : CreationOutcome)
  deriving DecidableEq, Repr

/-- A call of `beginCreation`, with its `PendingRuntimeState`. -/
structure Creation (TSession : Type) where
  id : Nat
  sessionId : String
  session : TSession
  generation : Nat
  disposalReason : Option RuntimeDisposalReason := none
  phase : CreationPhase := .scheduled
  deriving DecidableEq, Repr

inductive DisposalOwner
  | removal
  | creation (id : Nat)
  | shutdown
  deriving DecidableEq, Repr

/-- A call of `disposeRuntime`, and whether its promise was fulfilled. -/
structure Disposal (TSession : Type) where
  runtime : Nat
  sessionId : String
  session : TSession
  reason : RuntimeDisposalReason
  owner : DisposalOwner
  fulfilled : Option Bool := none
  deriving DecidableEq, Repr

/-- What `ensure` returned: the promise of a resident runtime, or that of a creation. -/
inductive RuntimePromise
  | resident (runtime : Nat)
  | creation (id : Nat)
  deriving DecidableEq, Repr

/-- An answer of `ensure`, and whether a removal or the shutdown came after it. -/
structure Ensured where
  sessionId : String
  promise : RuntimePromise
  superseded : Bool := false
  deriving DecidableEq, Repr

/-- Where `performShutdown` is; it keeps the creations that it awaits. -/
inductive ShutdownTask
  | awaiting (pending : List Nat)
  | disposing (pending : List Nat)
  | settled (fulfilled : Bool)
  deriving DecidableEq, Repr

/-- `pending` leads to the creations. The last three fields are the history: the runtimes that
the factory produced with their sessions, the calls of the disposer, the answers of `ensure`. -/
structure ApplicationRuntimeRegistry (TSession : Type) where
  entries : OrderedMap String (MutableRuntimeEntry TSession) := []
  pending : OrderedMap String Nat := []
  generations : OrderedMap String Nat := []
  shutdownTask : Option ShutdownTask := none
  creations : List (Creation TSession) := []
  produced : List (Nat × String) := []
  disposals : List (Disposal TSession) := []
  ensured : List Ensured := []
  deriving DecidableEq, Repr

inductive RegistryEvent (TSession : Type)
  | create (session : TSession)
  /-- `updated` is false when the hook `updateRuntime` throws. -/
  | ensure (session : TSession) (updated : Bool)
  | reconcile (sessions : List TSession) (updated : String → Bool)
  | disposeSession (sessionId : String)
  | shutdown
  | invokeFactory (creation : Nat)
  | factoryResolves (creation : Nat)
  | factoryRejects (creation : Nat)
  /-- What follows on the factory's answer, or on the disposal of a superseded runtime. -/
  | continues (creation : Nat)
  | finishes (creation : Nat)
  | disposalSettles (runtime : Nat) (fulfilled : Bool)
  | shutdownContinues
  | shutdownSettles

def RegistryError.message : RegistryError → String
  | shutDown => "application runtime registry is shut down"
  | duplicateRuntime sessionId =>
    s!"runtime already exists or is being created for session {sessionId}"
  | duplicateIdentity sessionId => s!"duplicate session identity in reconciliation: {sessionId}"
  | emptySessionId => "session id must not be empty"
  | updateFailed => "updateRuntime"

variable {TSession : Type}

/-- The runtime of a creation that waits for what follows on the factory's answer, with its
session. -/
def Creation.waiting (creation : Creation TSession) : Option (Nat × String) :=
  match creation.phase with
  | .produced runtime => some (runtime, creation.sessionId)
  | _ => none

def residentsOf (entries : OrderedMap String (MutableRuntimeEntry TSession)) :
    List (Nat × String) :=
  entries.map fun entry => (entry.2.runtime, entry.1)

/-- What a call of the disposer is about. -/
def Disposal.call (disposal : Disposal TSession) : Nat × String :=
  (disposal.runtime, disposal.sessionId)

def validSessionId [ApplicationSessionIdentity TSession] (session : TSession) :
    Except RegistryError String :=
  let sessionId := trim (ApplicationSessionIdentity.id session)
  if sessionId = "" then .error .emptySessionId else .ok sessionId

namespace ApplicationRuntimeRegistry

variable (registry : ApplicationRuntimeRegistry TSession)

def shuttingDown : Bool := registry.shutdownTask.isSome

def assertOpen : Except RegistryError Unit :=
  if registry.shuttingDown then .error .shutDown else .ok ()

/-- The session of a call that needs an open registry and a valid identity. -/
def openSession [ApplicationSessionIdentity TSession] (session : TSession) :
    Except RegistryError String := do
  registry.assertOpen
  validSessionId session

/-- The generation after the one in use. -/
def nextGeneration (sessionId : String) : Nat := (registry.generations.get sessionId).getD 0 + 1

/-- `this.generations.set(sessionId, …)`. -/
def bumpGeneration (sessionId : String) : ApplicationRuntimeRegistry TSession :=
  { registry with
    generations := registry.generations.set sessionId (registry.nextGeneration sessionId) }

def modifyCreation (id : Nat) (f : Creation TSession → Creation TSession) :
    ApplicationRuntimeRegistry TSession :=
  { registry with creations := modifyKey Creation.id id f registry.creations }

def setPhase (id : Nat) (phase : CreationPhase) : ApplicationRuntimeRegistry TSession :=
  registry.modifyCreation id fun creation => { creation with phase }

def beginCreation (session : TSession) (sessionId : String) :
    Nat × ApplicationRuntimeRegistry TSession :=
  let id := registry.creations.length
  let creation := { id, sessionId, session, generation := registry.nextGeneration sessionId }
  (id, { registry.bumpGeneration sessionId with
      creations := registry.creations ++ [creation]
      pending := registry.pending.set sessionId id })

def create [ApplicationSessionIdentity TSession] (session : TSession) :
    Except RegistryError Nat × ApplicationRuntimeRegistry TSession :=
  match registry.openSession session with
  | .error error => (.error error, registry)
  | .ok sessionId =>
    if (registry.entries.get sessionId).isSome ∨ (registry.pending.get sessionId).isSome then
      (.error (.duplicateRuntime sessionId), registry)
    else
      let (creation, registry) := registry.beginCreation session sessionId
      (.ok creation, registry)

/-- `entry.session = session`. -/
def refreshEntry (sessionId : String) (session : TSession) :
    ApplicationRuntimeRegistry TSession :=
  { registry with
    entries := modifyKey Prod.fst sessionId
      (fun entry => (entry.1, { entry.2 with session })) registry.entries }

def ensure [ApplicationSessionIdentity TSession] (session : TSession) (updated : Bool) :
    Except RegistryError RuntimePromise × ApplicationRuntimeRegistry TSession :=
  match registry.openSession session with
  | .error error => (.error error, registry)
  | .ok sessionId =>
    match registry.entries.get sessionId with
    | some resident =>
      if updated then
        (.ok (.resident resident.runtime), registry.refreshEntry sessionId session)
      else (.error .updateFailed, registry.refreshEntry sessionId session)
    | none =>
      match registry.pending.get sessionId with
      | some creation => (.ok (.creation creation), registry)
      | none =>
        let (creation, registry) := registry.beginCreation session sessionId
        (.ok (.creation creation), registry)

/-- Take note of what `ensure` returned. -/
def ensureNoted [ApplicationSessionIdentity TSession] (session : TSession) (updated : Bool) :
    ApplicationRuntimeRegistry TSession :=
  match registry.ensure session updated with
  | (.error _, registry) => registry
  | (.ok promise, registry) =>
    { registry with
      ensured := registry.ensured ++
        [{ sessionId := trim (ApplicationSessionIdentity.id session), promise }] }

/-- The synchronous part of `disposeSession`; what comes behind its awaits changes nothing. -/
def disposeSession (sessionId : String) (reason : RuntimeDisposalReason) :
    ApplicationRuntimeRegistry TSession :=
  let marked : ApplicationRuntimeRegistry TSession :=
    { registry.bumpGeneration sessionId with
      creations := match registry.pending.get sessionId with
        | none => registry.creations
        | some id =>
          modifyKey Creation.id id
            (fun creation =>
              { creation with disposalReason := creation.disposalReason <|> some reason })
            registry.creations
      ensured := registry.ensured.map fun answer =>
        if answer.sessionId = sessionId then { answer with superseded := true } else answer }
  match registry.entries.get sessionId with
  | none => marked
  | some entry =>
    { marked with
      entries := registry.entries.delete sessionId
      disposals := registry.disposals ++
        [{ runtime := entry.runtime, sessionId, session := entry.session, reason,
           owner := .removal }] }

def sessionsById [ApplicationSessionIdentity TSession] :
    List TSession → OrderedMap String TSession →
      Except RegistryError (OrderedMap String TSession)
  | [], byId => .ok byId
  | session :: sessions, byId => do
    let sessionId ← validSessionId session
    if (byId.get sessionId).isSome then .error (.duplicateIdentity sessionId)
    else sessionsById sessions (byId.set sessionId session)

/-- The loop over the entries, which the first hook that throws ends. -/
def refreshEntries (byId : OrderedMap String TSession) (updated : String → Bool) :
    OrderedMap String (MutableRuntimeEntry TSession) →
      OrderedMap String (MutableRuntimeEntry TSession) × Bool
  | [] => ([], true)
  | (sessionId, entry) :: entries =>
    match byId.get sessionId with
    | none =>
      let (rest, done) := refreshEntries byId updated entries
      ((sessionId, entry) :: rest, done)
    | some session =>
      if updated sessionId then
        let (rest, done) := refreshEntries byId updated entries
        ((sessionId, { entry with session }) :: rest, done)
      else ((sessionId, { entry with session }) :: entries, false)

def knownIds : List String :=
  (registry.entries.map Prod.fst ++ registry.pending.map Prod.fst).eraseDups

/-- The synchronous part of `reconcile`. -/
def reconcile [ApplicationSessionIdentity TSession] (sessions : List TSession)
    (updated : String → Bool) :
    Except RegistryError Unit × ApplicationRuntimeRegistry TSession :=
  match registry.assertOpen.bind fun _ => sessionsById sessions [] with
  | .error error => (.error error, registry)
  | .ok byId =>
    let (entries, done) := refreshEntries byId updated registry.entries
    let refreshed := { registry with entries }
    if done then
      (.ok (), (refreshed.knownIds.filter fun sessionId => (byId.get sessionId).isNone).foldl
          (fun registry sessionId => registry.disposeSession sessionId .reconcile) refreshed)
    else (.error .updateFailed, refreshed)

/-- `performShutdown`, up to its first await. -/
def shutdown : ApplicationRuntimeRegistry TSession :=
  if registry.shuttingDown then registry
  else
    { registry.knownIds.foldl (fun registry sessionId => registry.bumpGeneration sessionId)
        registry with
      shutdownTask := some (.awaiting (registry.pending.map Prod.snd))
      ensured := registry.ensured.map fun answer => { answer with superseded := true } }

/-- Why the runtime of a creation is not to become resident. -/
def supersession (creation : Creation TSession) : Option RuntimeDisposalReason :=
  let disposalReason :=
    if registry.shuttingDown then some .applicationShutdown else creation.disposalReason
  if disposalReason.isSome ∨
      registry.generations.get creation.sessionId ≠ some creation.generation then
    some (disposalReason.getD .sessionRemoved)
  else none

/-- The continuation behind the factory. -/
def continueCreation (creation : Creation TSession) (runtime : Nat) :
    ApplicationRuntimeRegistry TSession :=
  match registry.supersession creation with
  | some reason =>
    { registry.setPhase creation.id (.disposing runtime) with
      disposals := registry.disposals ++
        [{ runtime, sessionId := creation.sessionId, session := creation.session, reason,
           owner := .creation creation.id }] }
  | none =>
    { registry.setPhase creation.id (.settled (.fulfilled runtime)) with
      entries := registry.entries.set creation.sessionId
        { session := creation.session, runtime } }

/-- What an event does to a creation in its phase; in the other phases it cannot come. -/
def stepCreation (creation : Creation TSession) :
    RegistryEvent TSession → ApplicationRuntimeRegistry TSession
  | .invokeFactory _ =>
    match creation.phase with
    | .scheduled => registry.setPhase creation.id .creating
    | _ => registry
  | .factoryResolves _ =>
    match creation.phase with
    | .creating =>
      { registry.setPhase creation.id (.produced registry.produced.length) with
        produced := registry.produced ++ [(registry.produced.length, creation.sessionId)] }
    | _ => registry
  | .factoryRejects _ =>
    match creation.phase with
    | .creating => registry.setPhase creation.id (.settled .factoryFailed)
    | _ => registry
  | .continues _ =>
    match creation.phase with
    | .produced runtime => registry.continueCreation creation runtime
    | .disposing runtime =>
      match (registry.disposals.find? (·.runtime = runtime)).bind (·.fulfilled) with
      | some true => registry.setPhase creation.id (.settled .superseded)
      | some false => registry.setPhase creation.id (.settled .disposalFailed)
      | none => registry
    | _ => registry
  | .finishes _ =>
    match creation.phase with
    | .settled outcome =>
      { registry.setPhase creation.id (.finished outcome) with
        pending :=
          if registry.pending.get creation.sessionId = some creation.id then
            registry.pending.delete creation.sessionId
          else registry.pending }
    | _ => registry
  | _ => registry

/-- The promise of a disposal settles once. -/
def settleDisposal (runtime : Nat) (fulfilled : Bool) : ApplicationRuntimeRegistry TSession :=
  { registry with
    disposals := modifyKey Disposal.runtime runtime
      (fun disposal => { disposal with fulfilled := disposal.fulfilled <|> some fulfilled })
      registry.disposals }

/-- How the promise of a creation was settled, once its `finally` has run. -/
def outcomeOf (id : Nat) : Option CreationOutcome :=
  (registry.creations.find? (·.id = id)).bind fun creation =>
    match creation.phase with
    | .finished outcome => some outcome
    | _ => none

/-- `performShutdown` behind the pending creations. -/
def shutdownContinues : ApplicationRuntimeRegistry TSession :=
  match registry.shutdownTask with
  | some (.awaiting pending) =>
    if ∀ id ∈ pending, (registry.outcomeOf id).isSome then
      { registry with
        entries := []
        disposals := registry.disposals ++ registry.entries.map fun entry =>
          { runtime := entry.2.runtime, sessionId := entry.1, session := entry.2.session,
            reason := .applicationShutdown, owner := .shutdown }
        shutdownTask := some (.disposing pending) }
    else registry
  | _ => registry

/-- The shutdown fails with a creation that failed, or with a disposal of its own. -/
def shutdownFulfilled (pending : List Nat) : Bool :=
  (pending.all fun id => (registry.outcomeOf id).any CreationOutcome.clean) &&
    registry.disposals.all fun disposal =>
      disposal.owner ≠ .shutdown ∨ disposal.fulfilled = some true

def shutdownSettles : ApplicationRuntimeRegistry TSession :=
  match registry.shutdownTask with
  | some (.disposing pending) =>
    if ∀ disposal ∈ registry.disposals,
        disposal.owner = .shutdown → disposal.fulfilled.isSome then
      { registry with shutdownTask := some (.settled (registry.shutdownFulfilled pending)) }
    else registry
  | _ => registry

def step [ApplicationSessionIdentity TSession] (registry : ApplicationRuntimeRegistry TSession)
    (event : RegistryEvent TSession) : ApplicationRuntimeRegistry TSession :=
  match event with
  | .create session => (registry.create session).2
  | .ensure session updated => registry.ensureNoted session updated
  | .reconcile sessions updated => (registry.reconcile sessions updated).2
  | .disposeSession sessionId => registry.disposeSession sessionId .sessionRemoved
  | .shutdown => registry.shutdown
  | .disposalSettles runtime fulfilled => registry.settleDisposal runtime fulfilled
  | .shutdownContinues => registry.shutdownContinues
  | .shutdownSettles => registry.shutdownSettles
  | .invokeFactory id | .factoryResolves id | .factoryRejects id | .continues id
  | .finishes id =>
    match registry.creations.find? (·.id = id) with
    | none => registry
    | some creation => registry.stepCreation creation event

/-! ## What the registry promises -/

/-- The disposal of a runtime was called and its promise fulfilled. -/
def Disposed (runtime : Nat) : Prop :=
  ∃ disposal ∈ registry.disposals, disposal.runtime = runtime ∧ disposal.fulfilled = some true

instance (runtime : Nat) : Decidable (registry.Disposed runtime) :=
  inferInstanceAs (Decidable (∃ disposal ∈ registry.disposals, _))

/-- Every runtime that the factory produced, with its session, is resident, or was handed to the
disposer once, or has just been produced; and nothing else was. -/
structure DisposedOnce : Prop where
  distinct : (registry.produced.map Prod.fst).Nodup
  placed : (registry.creations.filterMap Creation.waiting ++ residentsOf registry.entries ++
    registry.disposals.map Disposal.call).Perm registry.produced

/-- At most one runtime of a session is live. -/
def OneLive : Prop :=
  ∀ first ∈ registry.produced, ∀ second ∈ registry.produced, first.2 = second.2 →
    ¬registry.Disposed first.1 → ¬registry.Disposed second.1 → first = second

instance : Decidable registry.OneLive :=
  inferInstanceAs (Decidable (∀ first ∈ registry.produced, ∀ second ∈ registry.produced, _))

/-- The resident runtime of a session. -/
def get (sessionId : String) : Option Nat := (registry.entries.get sessionId).map (·.runtime)

/-- The runtime of a creation is resident, or will be when the factory answers. A factory that
fails has none to give. -/
def WillReside (creation : Creation TSession) : Prop :=
  match creation.phase with
  | .scheduled | .creating | .produced _ => registry.supersession creation = none
  | .settled (.fulfilled runtime) | .finished (.fulfilled runtime) =>
    registry.get creation.sessionId = some runtime
  | .settled .factoryFailed | .finished .factoryFailed => True
  | _ => False

/-- What a promise of `ensure` leads to is a resident runtime of the session. -/
def Yields (sessionId : String) : RuntimePromise → Prop
  | .resident runtime => registry.get sessionId = some runtime
  | .creation id => ∃ creation ∈ registry.creations, creation.id = id ∧
      creation.sessionId = sessionId ∧ registry.WillReside creation

/-- What `ensure` returned yields, unless a removal or the shutdown came later. -/
def EnsuredYields : Prop :=
  ∀ answer ∈ registry.ensured, answer.superseded = false →
    registry.Yields answer.sessionId answer.promise

/-- A shutdown that has resolved leaves no runtime live. -/
def ShutDownClean : Prop :=
  registry.shutdownTask = some (.settled true) →
    ∀ runtime ∈ registry.produced, registry.Disposed runtime.1

/-- What holds as long as the removals are over in time. -/
structure Promised : Prop where
  oneLive : registry.OneLive
  yields : registry.EnsuredYields
  clean : registry.ShutDownClean

end ApplicationRuntimeRegistry

end bbcom.runtime_registry
