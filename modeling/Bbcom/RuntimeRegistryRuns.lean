-- Runs of the registry of session runtimes: when at most one runtime of a session is live, when an
-- `ensure` yields a resident one, and when a shutdown that resolves leaves none.
import Bbcom.RuntimeRegistryCalls

open bbcom.ordered_map bbcom.ordered_map.OrderedMap bbcom.runs bbcom.write_epoch

namespace bbcom.runtime_registry

open ApplicationRuntimeRegistry List Books Disposal

variable {TSession : Type}

/-! ## What is done in time -/

/-- The shutdown waits for a disposal: it is its own, or a creation's that it awaits. -/
def Disposal.AwaitedWith (pending : List Nat) (disposal : Disposal TSession) : Prop :=
  match disposal.owner with
  | .removal => False
  | .creation id => id ∈ pending
  | .shutdown => True

namespace ApplicationRuntimeRegistry

/-- The removals are over in time: a factory answers behind the disposals of the earlier runtimes
of its session, `ensure` meets no pending creation that a removal has superseded, and a shutdown
resolves behind the disposals that it does not await. -/
def Timely [ApplicationSessionIdentity TSession] (registry : ApplicationRuntimeRegistry TSession) :
    RegistryEvent TSession → Prop
  | .factoryResolves id =>
    ∀ creation ∈ registry.creations, creation.id = id → creation.phase = .creating →
      ∀ disposal ∈ registry.disposals, disposal.sessionId = creation.sessionId →
        disposal.fulfilled = some true
  | .ensure session _ =>
    ∀ sessionId, registry.openSession session = .ok sessionId →
      registry.entries.get sessionId = none →
        ∀ creation ∈ registry.creations, registry.pending.get sessionId = some creation.id →
          registry.generations.get sessionId = some creation.generation ∨
            creation.phase = .settled .factoryFailed
  | .shutdownSettles =>
    ∀ pending, registry.shutdownTask = some (.disposing pending) →
      registry.shutdownFulfilled pending →
        ∀ disposal ∈ registry.disposals, ¬disposal.AwaitedWith pending →
          disposal.fulfilled = some true
  | _ => True

variable {registry : ApplicationRuntimeRegistry TSession}

/-! ## What no event takes back -/

/-- No runtime comes to be live, and no shutdown resolves. -/
structure Extends (before after : ApplicationRuntimeRegistry TSession) : Prop where
  produced : after.produced = before.produced
  disposed : ∀ runtime, before.Disposed runtime → after.Disposed runtime
  settled : after.shutdownTask = some (.settled true) →
    before.shutdownTask = some (.settled true)

theorem Extends.refl (registry : ApplicationRuntimeRegistry TSession) :
    Extends registry registry := ⟨rfl, fun _ => id, id⟩

theorem Extends.trans {first second third : ApplicationRuntimeRegistry TSession}
    (h : Extends first second) (h' : Extends second third) : Extends first third :=
  ⟨h'.produced.trans h.produced,
    fun runtime hdone => h'.disposed runtime (h.disposed runtime hdone),
    fun hsettled => h.settled (h'.settled hsettled)⟩

variable {after : ApplicationRuntimeRegistry TSession} {creation : Creation TSession}
  {runtime : Nat × String} {promise : RuntimePromise} {sessionId : String}

/-- Calls of the disposer are only added. -/
theorem extends_of_disposals {calls : List (Disposal TSession)}
    (hproduced : after.produced = registry.produced)
    (hdisposals : after.disposals = registry.disposals ++ calls)
    (hsettled : after.shutdownTask = some (.settled true) →
      registry.shutdownTask = some (.settled true)) : Extends registry after := by
  refine ⟨hproduced, ?_, hsettled⟩
  rintro runtime ⟨disposal, hmem, hdone⟩
  exact ⟨disposal, hdisposals ▸ mem_append_left _ hmem, hdone⟩

theorem extends_of_eq (hproduced : after.produced = registry.produced)
    (hdisposals : after.disposals = registry.disposals)
    (htask : after.shutdownTask = registry.shutdownTask) : Extends registry after :=
  extends_of_disposals hproduced (hdisposals.trans (append_nil _).symm)
    fun hsettled => htask ▸ hsettled

theorem OneLive.extended (h : registry.OneLive) (hextends : Extends registry after) :
    after.OneLive := by
  unfold OneLive at h ⊢
  rw [hextends.produced]
  intro first hfirst second hsecond hsession hlive hlive'
  exact h first hfirst second hsecond hsession (fun hdone => hlive (hextends.disposed _ hdone))
    fun hdone => hlive' (hextends.disposed _ hdone)

theorem ShutDownClean.extended (h : registry.ShutDownClean) (hextends : Extends registry after) :
    after.ShutDownClean := by
  intro hsettled runtime hruntime
  rw [hextends.produced] at hruntime
  exact hextends.disposed _ (h (hextends.settled hsettled) runtime hruntime)

theorem extends_beginCreation (session : TSession) (sessionId : String) :
    Extends registry (registry.beginCreation session sessionId).2 :=
  extends_of_eq rfl rfl rfl

theorem extends_create [ApplicationSessionIdentity TSession] (session : TSession) :
    Extends registry (registry.create session).2 := by
  unfold create
  split
  · exact .refl _
  · split
    · exact .refl _
    · exact extends_beginCreation session _

theorem extends_ensureNoted [ApplicationSessionIdentity TSession] (session : TSession)
    (updated : Bool) : Extends registry (registry.ensureNoted session updated) := by
  have hensure : Extends registry (registry.ensure session updated).2 := by
    unfold ensure
    split
    · exact .refl _
    · split
      · split
        · exact extends_of_eq rfl rfl rfl
        · exact extends_of_eq rfl rfl rfl
      · split
        · exact .refl _
        · exact extends_beginCreation session _
  unfold ensureNoted
  split
  · rename_i heq
    rw [heq] at hensure
    exact hensure
  · rename_i heq
    rw [heq] at hensure
    exact hensure.trans (extends_of_eq rfl rfl rfl)

theorem extends_disposeSession (sessionId : String) (reason : RuntimeDisposalReason) :
    Extends registry (registry.disposeSession sessionId reason) := by
  unfold disposeSession
  cases registry.entries.get sessionId with
  | none => exact extends_of_eq rfl rfl rfl
  | some entry => exact extends_of_disposals rfl rfl id

theorem extends_reconcile [ApplicationSessionIdentity TSession] (sessions : List TSession)
    (updated : String → Bool) : Extends registry (registry.reconcile sessions updated).2 := by
  unfold reconcile
  split
  · exact .refl _
  · rename_i byId _
    have hrefreshed : Extends registry
        { registry with entries := (refreshEntries byId updated registry.entries).1 } :=
      extends_of_eq rfl rfl rfl
    dsimp only
    split
    · exact run_invariant (fun after sessionId h =>
        Extends.trans h (extends_disposeSession sessionId .reconcile)) hrefreshed _
    · exact hrefreshed

theorem extends_shutdown : Extends registry registry.shutdown := by
  unfold shutdown
  split
  · exact .refl _
  · have hbumped : Extends registry (registry.knownIds.foldl
        (fun registry sessionId => registry.bumpGeneration sessionId) registry) :=
      run_invariant (fun after sessionId h => Extends.trans h
        (show Extends after (after.bumpGeneration sessionId) from extends_of_eq rfl rfl rfl))
        (.refl _) _
    exact ⟨hbumped.produced, hbumped.disposed, fun hsettled => by cases hsettled⟩

theorem extends_settleDisposal (runtime : Nat) (fulfilled : Bool) :
    Extends registry (registry.settleDisposal runtime fulfilled) := by
  refine ⟨rfl, ?_, id⟩
  rintro _ ⟨disposal, hmem, rfl, hdone⟩
  refine ⟨_, mem_map_of_mem hmem, ?_⟩
  split
  · simp [hdone]
  · simp [hdone]

theorem extends_shutdownContinues : Extends registry registry.shutdownContinues := by
  unfold shutdownContinues
  split
  · split
    · exact extends_of_disposals rfl rfl fun hsettled => by cases hsettled
    · exact .refl _
  · exact .refl _

/-- Among the events of a creation only the factory's answer brings a runtime. -/
theorem extends_stepCreation {event : RegistryEvent TSession}
    (hevent : ∀ id, event = .factoryResolves id → creation.phase ≠ .creating) :
    Extends registry (registry.stepCreation creation event) := by
  unfold stepCreation
  split
  · split
    · exact extends_of_eq rfl rfl rfl
    · exact .refl _
  · split
    · exact absurd ‹_› (hevent _ rfl)
    · exact .refl _
  · split
    · exact extends_of_eq rfl rfl rfl
    · exact .refl _
  · split
    · unfold continueCreation
      split
      · exact extends_of_disposals rfl rfl id
      · exact extends_of_eq rfl rfl rfl
    · split
      · exact extends_of_eq rfl rfl rfl
      · exact extends_of_eq rfl rfl rfl
      · exact .refl _
    · exact .refl _
  · split
    · exact extends_of_eq rfl rfl rfl
    · exact .refl _
  · exact .refl _

/-! ## One live runtime -/

/-- A runtime that is live and not in the disposer's hands is resident, or waits with its
creation. -/
theorem place_of_live (h : Books registry) (hproduced : runtime ∈ registry.produced)
    (hcalled : ∀ disposal ∈ registry.disposals, disposal.call ≠ runtime) :
    (registry.entries.get runtime.2).isSome ∨
      ∃ creation ∈ registry.creations, creation.phase = .produced runtime.1 ∧
        creation.sessionId = runtime.2 := by
  have hplace := h.placed.places.mem_iff.2 hproduced
  rcases mem_append.1 hplace with hplace | hplace
  · rcases mem_append.1 hplace with hplace | hplace
    · obtain ⟨creation, hmem, hwaiting⟩ := mem_filterMap.1 hplace
      unfold Creation.waiting at hwaiting
      split at hwaiting
      · rename_i hphase
        cases hwaiting
        exact .inr ⟨creation, hmem, hphase, rfl⟩
      · cases hwaiting
    · obtain ⟨entry, hmem, rfl⟩ := mem_map.1 hplace
      exact .inl (by rw [get_of_mem h.placed.keys hmem]; rfl)
  · obtain ⟨disposal, hmem, hcall⟩ := mem_map.1 hplace
    exact absurd hcall (hcalled disposal hmem)

/-- What a factory's answer finds: every other runtime of the session is with the disposer. -/
theorem called_of_creating (h : Books registry) (hmem : creation ∈ registry.creations)
    (hphase : creation.phase = .creating) (hproduced : runtime ∈ registry.produced)
    (hsession : runtime.2 = creation.sessionId) :
    ∃ disposal ∈ registry.disposals, disposal.call = runtime := by
  by_contra hnot
  push Not at hnot
  have hunplaced : creation.Unplaced := by simp [Creation.Unplaced, hphase]
  rcases place_of_live h hproduced hnot with hsome | ⟨other, hother, hproducing, hsame⟩
  · rw [hsession, h.placed.absent creation hmem hunplaced] at hsome
    cases hsome
  · have hun : other.Unfinished := by simp [Creation.Unfinished, hproducing]
    rw [h.linked.one hother hmem hun hunplaced.unfinished (hsame.trans hsession), hphase]
      at hproducing
    cases hproducing

theorem oneLive_factoryResolves (h : Books registry) (hone : registry.OneLive)
    (hmem : creation ∈ registry.creations) (hphase : creation.phase = .creating)
    (hdone : ∀ disposal ∈ registry.disposals, disposal.sessionId = creation.sessionId →
      disposal.fulfilled = some true) :
    OneLive { registry.setPhase creation.id (.produced registry.produced.length) with
      produced := registry.produced ++ [(registry.produced.length, creation.sessionId)] } := by
  have hearlier : ∀ runtime ∈ registry.produced, runtime.2 = creation.sessionId →
      registry.Disposed runtime.1 := by
    intro runtime hruntime hsession
    obtain ⟨disposal, hdisposal, rfl⟩ := called_of_creating h hmem hphase hruntime hsession
    exact ⟨disposal, hdisposal, rfl, hdone disposal hdisposal hsession⟩
  intro first hfirst second hsecond hsession hlive hlive'
  rcases mem_append.1 hfirst with hold | hnew
  · rcases mem_append.1 hsecond with hold' | hnew'
    · exact hone first hold second hold' hsession hlive hlive'
    · rw [mem_singleton.1 hnew'] at hsession
      exact absurd (hearlier first hold hsession) hlive
  · rcases mem_append.1 hsecond with hold' | hnew'
    · rw [mem_singleton.1 hnew] at hsession
      exact absurd (hearlier second hold' hsession.symm) hlive'
    · rw [mem_singleton.1 hnew, mem_singleton.1 hnew']

variable {disposal : Disposal TSession}

/-- A factory that answers before the disposal of an earlier runtime is over makes two live. -/
theorem not_oneLive_factoryResolves (h : Books registry) (hdisposal : disposal ∈ registry.disposals)
    (hsession : disposal.sessionId = creation.sessionId) (hopen : disposal.fulfilled ≠ some true) :
    ¬OneLive { registry.setPhase creation.id (.produced registry.produced.length) with
      produced := registry.produced ++ [(registry.produced.length, creation.sessionId)] } := by
  intro hone
  have hcall : disposal.call ∈ registry.produced :=
    h.placed.places.mem_iff.1 (mem_append_right _ (mem_map_of_mem hdisposal))
  have hruntimes : (registry.disposals.map runtime).Nodup := h.runtimes_nodup
  have hlive : ¬registry.Disposed disposal.runtime := by
    rintro ⟨other, hother, hruntime, hdone⟩
    rw [inj_on_of_nodup_map hruntimes hother hdisposal hruntime] at hdone
    exact hopen hdone
  have hnew : ¬registry.Disposed registry.produced.length := by
    rintro ⟨other, hother, hruntime, _⟩
    have hbelow := h.placed.below other.call
      (h.placed.places.mem_iff.1 (mem_append_right _ (mem_map_of_mem hother)))
    exact hbelow.ne hruntime
  have hsame := hone disposal.call (mem_append_left _ hcall)
    (registry.produced.length, creation.sessionId)
    (mem_append_right _ (mem_singleton_self _)) hsession hlive hnew
  exact (h.placed.below _ hcall).ne (congrArg Prod.fst hsame)

/-! ## What `ensure` yields -/

/-- A promise is kept as long as its session keeps what it has. -/
theorem Yields.imp (h : registry.Yields sessionId promise)
    (hget : ∀ runtime, registry.get sessionId = some runtime → after.get sessionId = some runtime)
    (hcreations : ∀ creation ∈ registry.creations, creation.sessionId = sessionId →
      registry.WillReside creation → ∃ creation' ∈ after.creations,
        creation'.id = creation.id ∧ creation'.sessionId = creation.sessionId ∧
          after.WillReside creation') : after.Yields sessionId promise := by
  cases promise with
  | resident runtime => exact hget runtime h
  | creation id =>
    obtain ⟨creation, hmem, hid, hsession, hwill⟩ := h
    obtain ⟨creation', hmem', hid', hsession', hwill'⟩ := hcreations creation hmem hsession hwill
    exact ⟨creation', hmem', hid'.trans hid, hsession'.trans hsession, hwill'⟩

/-- Whether a creation is kept depends on its session's generation and on the shutdown. -/
theorem supersession_congr (htask : after.shutdownTask = registry.shutdownTask)
    (hgeneration : after.generations.get creation.sessionId =
      registry.generations.get creation.sessionId) :
    after.supersession creation = registry.supersession creation := by
  unfold supersession shuttingDown
  rw [htask, hgeneration]

theorem WillReside.congr (h : registry.WillReside creation)
    (htask : after.shutdownTask = registry.shutdownTask)
    (hgeneration : after.generations.get creation.sessionId =
      registry.generations.get creation.sessionId)
    (hget : ∀ runtime, registry.get creation.sessionId = some runtime →
      after.get creation.sessionId = some runtime) : after.WillReside creation := by
  unfold WillReside at h ⊢
  rw [supersession_congr htask hgeneration]
  split at h
  all_goals first | exact h | exact hget _ h

/-- A session of which nothing changes keeps its promises. -/
theorem Yields.elsewhere (h : registry.Yields sessionId promise)
    (htask : after.shutdownTask = registry.shutdownTask)
    (hgeneration : after.generations.get sessionId = registry.generations.get sessionId)
    (hget : ∀ runtime, registry.get sessionId = some runtime → after.get sessionId = some runtime)
    (hcreations : ∀ creation ∈ registry.creations, creation.sessionId = sessionId →
      creation ∈ after.creations) : after.Yields sessionId promise := by
  apply h.imp hget
  rintro creation hmem rfl hwill
  exact ⟨creation, hcreations creation hmem rfl, rfl, rfl, hwill.congr htask hgeneration hget⟩

/-- No promise of a session stands that could begin a creation: the factory has failed. -/
theorem Yields.begun (h : Books registry) (hyields : registry.Yields sessionId promise)
    (hentry : registry.entries.get sessionId = none)
    (hpending : registry.pending.get sessionId = none) :
    ∃ creation ∈ registry.creations, promise = .creation creation.id ∧
      creation.sessionId = sessionId ∧ creation.phase = .finished .factoryFailed := by
  have hget : registry.get sessionId = none := by simp [get, hentry]
  cases promise with
  | resident runtime =>
    rw [Yields, hget] at hyields
    cases hyields
  | creation id =>
    obtain ⟨creation, hmem, rfl, rfl, hwill⟩ := hyields
    refine ⟨creation, hmem, rfl, rfl, ?_⟩
    have hfinished : ¬creation.Unfinished := fun hun => by
      rw [h.linked.complete creation hmem hun] at hpending
      cases hpending
    unfold Creation.Unfinished at hfinished
    push Not at hfinished
    obtain ⟨outcome, hphase⟩ := hfinished
    unfold WillReside at hwill
    rw [hphase] at hwill ⊢
    cases outcome with
    | factoryFailed => rfl
    | fulfilled runtime =>
      rw [hget] at hwill
      cases hwill
    | superseded => exact hwill.elim
    | disposalFailed => exact hwill.elim

theorem ensuredYields_beginCreation (h : Books registry) (hyields : registry.EnsuredYields)
    (session : TSession) (hentry : registry.entries.get sessionId = none)
    (hpending : registry.pending.get sessionId = none) :
    (registry.beginCreation session sessionId).2.EnsuredYields := by
  intro answer hanswer hstanding
  have hold := hyields answer hanswer hstanding
  by_cases hsession : answer.sessionId = sessionId
  · subst hsession
    obtain ⟨creation, hmem, hpromise, hsame, hphase⟩ := hold.begun h hentry hpending
    rw [hpromise]
    refine ⟨creation, mem_append_left _ hmem, rfl, hsame, ?_⟩
    unfold WillReside
    rw [hphase]
    trivial
  · exact hold.elsewhere rfl (get_set_of_ne _ _ hsession) (fun _ => id)
      fun creation hmem _ => mem_append_left _ hmem

theorem ensuredYields_create [ApplicationSessionIdentity TSession] (h : Books registry)
    (hyields : registry.EnsuredYields) (session : TSession) :
    (registry.create session).2.EnsuredYields := by
  unfold create
  split
  · exact hyields
  · split
    · exact hyields
    · rename_i hfree
      rw [not_or, Option.not_isSome_iff_eq_none, Option.not_isSome_iff_eq_none] at hfree
      exact ensuredYields_beginCreation h hyields session hfree.1 hfree.2

theorem ensuredYields_refreshed (hyields : registry.EnsuredYields)
    {entries : OrderedMap String (MutableRuntimeEntry TSession)}
    (hsame : residentsOf entries = residentsOf registry.entries) :
    EnsuredYields { registry with entries } := by
  intro answer hanswer hstanding
  refine (hyields answer hanswer hstanding).elsewhere rfl rfl (fun runtime hget => ?_)
    fun creation hmem _ => hmem
  exact (get_runtime_congr hsame answer.sessionId).trans hget

theorem not_older_of_current {generations : OrderedMap String Nat}
    (hcurrent : Current generations creation) : ¬Older generations creation := by
  rintro ⟨generation, hget, hlt⟩
  unfold Current at hcurrent
  rw [hcurrent] at hget
  exact absurd (Option.some.inj hget) hlt.ne

/-- A pending creation, met by `ensure` in an open registry, will give a resident runtime just
when no removal has superseded it. -/
theorem willReside_pending_iff (h : Books registry) (htask : registry.shutdownTask = none)
    (hmem : creation ∈ registry.creations) (hun : creation.Unfinished)
    (hentry : registry.entries.get creation.sessionId = none) :
    registry.WillReside creation ↔
      registry.generations.get creation.sessionId = some creation.generation ∨
        creation.phase = .settled .factoryFailed := by
  have hopen : registry.shuttingDown = false := by
    simp [shuttingDown, htask]
  have hsupersession : registry.supersession creation = none ↔
      Current registry.generations creation := by
    rw [supersession_eq_none]
    refine ⟨fun hall => hall.2.2, fun hcurrent => ⟨hopen, ?_, hcurrent⟩⟩
    rw [← Option.not_isSome_iff_eq_none]
    exact fun hreason => not_older_of_current hcurrent (h.dated.removed creation hmem hreason)
  have hlost : creation.Lost → ¬Current registry.generations creation := by
    intro hlost hcurrent
    rcases h.dated.lost creation hmem hlost with hclosing | holder
    · rw [hopen] at hclosing
      cases hclosing
    · exact not_older_of_current hcurrent holder
  have hget : registry.get creation.sessionId = none := by
    simp [get, hentry]
  change _ ↔ Current registry.generations creation ∨ _
  unfold WillReside
  cases hphase : creation.phase with
  | scheduled => simpa using hsupersession
  | creating => simpa using hsupersession
  | produced runtime => simpa using hsupersession
  | disposing runtime => simpa using hlost (by simp [Creation.Lost, hphase])
  | finished outcome => exact absurd hphase (hun outcome)
  | settled outcome =>
    cases outcome with
    | factoryFailed => simp
    | superseded => simpa using hlost (by simp [Creation.Lost, hphase])
    | disposalFailed => simpa using hlost (by simp [Creation.Lost, hphase])
    | fulfilled runtime =>
      refine ⟨fun hnow => ?_, fun hor => ?_⟩
      · rw [hget] at hnow
        cases hnow
      · rcases hor with hcurrent | hfailed
        · rcases h.dated.kept creation hmem runtime hphase with hnow | hclosing | holder
          · exact hnow
          · rw [hopen] at hclosing
            cases hclosing
          · exact absurd holder (not_older_of_current hcurrent)
        · cases hfailed

variable {session : TSession}

theorem openSession_eq [ApplicationSessionIdentity TSession]
    (h : registry.openSession session = .ok sessionId) :
    sessionId = trim (ApplicationSessionIdentity.id session) := by
  unfold openSession assertOpen validSessionId at h
  cases hopen : registry.shuttingDown with
  | true =>
    rw [hopen] at h
    cases h
  | false =>
    rw [hopen] at h
    by_cases hempty : trim (ApplicationSessionIdentity.id session) = ""
    · simp [hempty, bind, Except.bind] at h
    · simpa [hempty, bind, Except.bind, eq_comm] using h

theorem ensuredYields_append (hyields : registry.EnsuredYields) (sessionId : String)
    (promise : RuntimePromise) :
    EnsuredYields { registry with ensured := registry.ensured ++ [{ sessionId, promise }] } ↔
      registry.Yields sessionId promise := by
  constructor
  · exact fun hall => hall _ (mem_append_right _ (mem_singleton_self _)) rfl
  · intro hnew answer hanswer hstanding
    rcases mem_append.1 hanswer with hold | hthis
    · exact hyields answer hold hstanding
    · rw [mem_singleton.1 hthis]
      exact hnew

theorem timely_ensure_iff [ApplicationSessionIdentity TSession]
    (hopen : registry.openSession session = .ok sessionId) (updated : Bool) :
    registry.Timely (.ensure session updated) ↔
      (registry.entries.get sessionId = none →
        ∀ creation ∈ registry.creations, registry.pending.get sessionId = some creation.id →
          registry.generations.get sessionId = some creation.generation ∨
            creation.phase = .settled .factoryFailed) := by
  refine ⟨fun hall => hall sessionId hopen, fun hall other hother => ?_⟩
  obtain rfl : sessionId = other := Except.ok.inj (hopen.symm.trans hother)
  exact hall

section

variable (h : Books registry) (hyields : registry.EnsuredYields)
include h hyields

/-- `ensure` yields just when the pending creation that it meets, if any, is not superseded. -/
theorem ensuredYields_ensureNoted_iff [ApplicationSessionIdentity TSession] (session : TSession)
    (updated : Bool) :
    (registry.ensureNoted session updated).EnsuredYields ↔
      registry.Timely (.ensure session updated) := by
  have hrefreshed : ∀ sessionId, (registry.refreshEntry sessionId session).EnsuredYields :=
    fun sessionId => ensuredYields_refreshed hyields
      (residentsOf_refreshEntry registry sessionId session)
  cases hopen : registry.openSession session with
  | error error =>
    have htimely : registry.Timely (.ensure session updated) := by
      intro sessionId hok
      rw [hopen] at hok
      cases hok
    unfold ensureNoted ensure
    simpa [hopen, htimely] using hyields
  | ok sessionId =>
    have hid := openSession_eq hopen
    have htask := shutdownTask_of_open hopen
    rw [timely_ensure_iff hopen]
    unfold ensureNoted ensure
    rw [hopen]
    dsimp only
    cases hentry : registry.entries.get sessionId with
    | some resident =>
      refine iff_of_true ?_ (fun hnone => by cases hnone)
      cases updated with
      | false => exact hrefreshed sessionId
      | true =>
        dsimp only
        rw [if_pos rfl]
        dsimp only
        rw [ensuredYields_append (hrefreshed sessionId), ← hid]
        refine (get_runtime_congr (residentsOf_refreshEntry registry sessionId session)
          sessionId).trans ?_
        rw [hentry]
        rfl
    | none =>
      dsimp only
      cases hpending : registry.pending.get sessionId with
      | none =>
        refine iff_of_true ?_ (fun _ creation _ hsome => by cases hsome)
        dsimp only
        rw [ensuredYields_append (ensuredYields_beginCreation h hyields session hentry hpending),
          ← hid]
        refine ⟨_, mem_append_right _ (mem_singleton_self _), rfl, rfl, ?_⟩
        change (registry.beginCreation session sessionId).2.supersession _ = none
        rw [supersession_eq_none]
        refine ⟨?_, rfl, get_set_self _ _ _⟩
        change registry.shutdownTask.isSome = false
        rw [htask]
        rfl
      | some id =>
        dsimp only
        rw [ensuredYields_append hyields, ← hid]
        obtain ⟨creation, hmem, rfl, rfl, hun⟩ := h.linked.sound sessionId id hpending
        have hiff := willReside_pending_iff h htask hmem hun hentry
        constructor
        · rintro ⟨other, hother, hsame, _, hwill⟩ _ third hthird hsameId
          rw [h.linked.eq hother hmem hsame] at hwill
          rw [← h.linked.eq hmem hthird (Option.some.inj hsameId)]
          exact hiff.1 hwill
        · intro hall
          exact ⟨creation, hmem, rfl, rfl, hiff.2 (hall rfl creation hmem rfl)⟩

omit h hyields in
theorem creations_disposeSession (sessionId : String) (reason : RuntimeDisposalReason) :
    (registry.disposeSession sessionId reason).creations =
      match registry.pending.get sessionId with
      | none => registry.creations
      | some id => modifyKey Creation.id id (fun creation =>
          { creation with disposalReason := creation.disposalReason <|> some reason })
          registry.creations := by
  unfold disposeSession
  cases registry.entries.get sessionId with
  | none => rfl
  | some entry => rfl

theorem ensuredYields_disposeSession (sessionId : String) (reason : RuntimeDisposalReason) :
    (registry.disposeSession sessionId reason).EnsuredYields := by
  have hfields : (registry.disposeSession sessionId reason).ensured =
        registry.ensured.map (fun answer : Ensured =>
          if answer.sessionId = sessionId then { answer with superseded := true } else answer) ∧
      (registry.disposeSession sessionId reason).shutdownTask = registry.shutdownTask ∧
      (registry.disposeSession sessionId reason).generations =
        (registry.bumpGeneration sessionId).generations := by
    unfold disposeSession
    cases registry.entries.get sessionId with
    | none => exact ⟨rfl, rfl, rfl⟩
    | some entry => exact ⟨rfl, rfl, rfl⟩
  obtain ⟨hensured, htask, hgenerations⟩ := hfields
  intro _ hanswer hstanding
  rw [hensured] at hanswer
  obtain ⟨answer, hold, rfl⟩ := mem_map.1 hanswer
  have hne : answer.sessionId ≠ sessionId := by
    intro hsession
    rw [if_pos hsession] at hstanding
    cases hstanding
  rw [if_neg hne] at hstanding ⊢
  refine (hyields answer hold hstanding).elsewhere htask ?_ (fun runtime hget => ?_) ?_
  · rw [hgenerations]
    exact get_set_of_ne _ _ hne
  · unfold disposeSession get
    cases registry.entries.get sessionId with
    | none => exact hget
    | some entry =>
      dsimp only
      rw [get_delete_of_ne _ hne]
      exact hget
  · intro creation hmem hsession
    rw [creations_disposeSession]
    cases hpending : registry.pending.get sessionId with
    | none => exact hmem
    | some id =>
      obtain ⟨marked, hmarked, rfl, hsame, _⟩ := h.linked.sound sessionId id hpending
      refine mem_map.2 ⟨creation, hmem, if_neg fun hid => ?_⟩
      rw [h.linked.eq hmem hmarked hid] at hsession
      exact hne (hsession.symm.trans hsame)

theorem ensuredYields_reconcile [ApplicationSessionIdentity TSession] (sessions : List TSession)
    (updated : String → Bool) : (registry.reconcile sessions updated).2.EnsuredYields := by
  unfold reconcile
  split
  · exact hyields
  · rename_i byId _
    have hsame := residentsOf_refreshEntries byId updated registry.entries
    have hrefreshed := ensuredYields_refreshed hyields hsame
    have hkeeps : ∀ (after : ApplicationRuntimeRegistry TSession) (sessionId : String),
        Books after ∧ after.EnsuredYields → Books (after.disposeSession sessionId .reconcile) ∧
            (after.disposeSession sessionId .reconcile).EnsuredYields :=
      fun after sessionId hboth => ⟨hboth.1.disposeSession sessionId .reconcile,
        ensuredYields_disposeSession hboth.1 hboth.2 sessionId .reconcile⟩
    dsimp only
    split
    · exact (run_invariant hkeeps ⟨h.refreshed hsame, hrefreshed⟩ _).2
    · exact hrefreshed

end

/-- Behind the shutdown no promise stands. -/
theorem ensuredYields_of_superseded
    (hall : ∀ answer ∈ registry.ensured, answer.superseded) : registry.EnsuredYields := by
  intro answer hanswer hstanding
  rw [hall answer hanswer] at hstanding
  cases hstanding

theorem ensuredYields_shutdown (hyields : registry.EnsuredYields) :
    registry.shutdown.EnsuredYields := by
  unfold shutdown
  split
  · exact hyields
  · apply ensuredYields_of_superseded
    intro _ hmap
    obtain ⟨answer, _, rfl⟩ := mem_map.1 hmap
    rfl

/-- A phase of a creation that keeps what the creation promises. -/
theorem EnsuredYields.phased {phase : CreationPhase} (hyields : registry.EnsuredYields)
    (h : Books registry) (hmem : creation ∈ registry.creations)
    (hcreations : after.creations = registry.creations.map (withPhase creation.id phase))
    (hensured : after.ensured = registry.ensured)
    (htask : after.shutdownTask = registry.shutdownTask)
    (hgenerations : after.generations = registry.generations)
    (hget : ∀ sessionId runtime, registry.get sessionId = some runtime →
      after.get sessionId = some runtime)
    (hwill : registry.WillReside creation → after.WillReside { creation with phase }) :
    after.EnsuredYields := by
  intro answer hanswer hstanding
  rw [hensured] at hanswer
  refine (hyields answer hanswer hstanding).imp (hget _) fun other hother _ hnow => ?_
  have hcarries := carries_withPhase creation.id phase other
  refine ⟨withPhase creation.id phase other, ?_, hcarries.id, hcarries.sessionId, ?_⟩
  · rw [hcreations]
    exact mem_map_of_mem hother
  · refine h.linked.forall_withPhase hmem
      (P := fun before behind => registry.WillReside before → after.WillReside behind)
      (fun third _ _ hthird => ?_) hwill other hother hnow
    exact hthird.congr htask (by rw [hgenerations]) (hget _)

theorem ensuredYields_stepCreation (h : Books registry) (hyields : registry.EnsuredYields)
    (hmem : creation ∈ registry.creations) (event : RegistryEvent TSession) :
    (registry.stepCreation creation event).EnsuredYields := by
  unfold stepCreation
  split
  · split
    · rename_i hphase
      refine hyields.phased h hmem rfl rfl rfl rfl (fun _ _ => id) ?_
      simp only [WillReside, hphase]
      exact id
    · exact hyields
  · split
    · rename_i hphase
      refine hyields.phased h hmem rfl rfl rfl rfl (fun _ _ => id) ?_
      simp only [WillReside, hphase]
      exact id
    · exact hyields
  · split
    · refine hyields.phased h hmem rfl rfl rfl rfl (fun _ _ => id) ?_
      simp [WillReside]
    · exact hyields
  · split
    · rename_i runtime hphase
      unfold continueCreation
      cases hsome : registry.supersession creation with
      | some reason =>
        refine hyields.phased h hmem rfl rfl rfl rfl (fun _ _ => id) ?_
        simp [WillReside, hphase, hsome]
      | none =>
        have habsent := h.placed.absent creation hmem (by simp [Creation.Unplaced, hphase])
        refine hyields.phased h hmem rfl rfl rfl rfl ?_ ?_
        · intro sessionId other hget
          have hne : sessionId ≠ creation.sessionId := by
            rintro rfl
            simp [get, habsent] at hget
          unfold get at hget ⊢
          dsimp only
          rw [get_set_of_ne _ _ hne]
          exact hget
        · intro _
          simp [WillReside, get]
    · rename_i hphase
      have hnot : ¬registry.WillReside creation := by simp [WillReside, hphase]
      split
      · exact hyields.phased h hmem rfl rfl rfl rfl (fun _ _ => id) fun hwill => absurd hwill hnot
      · exact hyields.phased h hmem rfl rfl rfl rfl (fun _ _ => id) fun hwill => absurd hwill hnot
      · exact hyields
    · exact hyields
  · split
    · rename_i outcome hphase
      refine hyields.phased h hmem rfl rfl rfl rfl (fun _ _ => id) ?_
      cases outcome with
      | fulfilled runtime =>
        simp only [WillReside, hphase]
        exact id
      | factoryFailed => simp [WillReside]
      | superseded => simp [WillReside, hphase]
      | disposalFailed => simp [WillReside, hphase]
    · exact hyields
  · exact hyields

/-! ## The shutdown -/

/-- A shutdown that resolves has all disposals that it waited for behind it. -/
theorem fulfilled_of_awaited (h : Books registry) {pending : List Nat}
    (hfulfilled : registry.shutdownFulfilled pending) (hdisposal : disposal ∈ registry.disposals)
    (hawaited : disposal.AwaitedWith pending) :
    disposal.fulfilled = some true := by
  unfold shutdownFulfilled at hfulfilled
  rw [Bool.and_eq_true, all_eq_true, all_eq_true] at hfulfilled
  cases howner : disposal.owner with
  | removal => simp [AwaitedWith, howner] at hawaited
  | shutdown => simpa [howner] using hfulfilled.2 disposal hdisposal
  | creation id =>
    have hpending : id ∈ pending := by simpa [AwaitedWith, howner] using hawaited
    obtain ⟨creation, hmem, rfl, hknows⟩ := h.owned disposal hdisposal id howner
    have hclean := hfulfilled.1 creation.id hpending
    unfold outcomeOf at hclean
    rw [find_of_mem h.linked.ids hmem, Option.bind_some] at hclean
    unfold Creation.Knows at hknows
    cases hphase : creation.phase with
    | finished outcome =>
      rw [hphase] at hknows hclean
      cases outcome with
      | superseded => exact hknows
      | fulfilled runtime => exact hknows.elim
      | factoryFailed => exact hknows.elim
      | disposalFailed => simp [CreationOutcome.clean] at hclean
    | _ => simp [hphase] at hclean

/-- All runtimes are with the disposer once the shutdown has taken the residents. -/
theorem called_of_closing (h : Books registry)
    (hclosed : (∀ creation ∈ registry.creations, ¬creation.Unfinished) ∧ registry.entries = [])
    (hproduced : runtime ∈ registry.produced) :
    ∃ disposal ∈ registry.disposals, disposal.call = runtime := by
  by_contra hnot
  push Not at hnot
  rcases place_of_live h hproduced hnot with hsome | ⟨creation, hmem, hphase, _⟩
  · rw [hclosed.2] at hsome
    cases hsome
  · exact hclosed.1 creation hmem (by simp [Creation.Unfinished, hphase])

/-- A shutdown resolves clean just when the disposals that it did not await are over. -/
theorem shutDownClean_shutdownSettles_iff [ApplicationSessionIdentity TSession]
    (h : Books registry) (hclean : registry.ShutDownClean) :
    registry.shutdownSettles.ShutDownClean ↔ registry.Timely .shutdownSettles := by
  have hnotSettling : (∀ pending, registry.shutdownTask ≠ some (.disposing pending)) →
      (registry.shutdownSettles.ShutDownClean ↔ registry.Timely .shutdownSettles) := by
    intro hnot
    have hsame : registry.shutdownSettles = registry := by
      unfold shutdownSettles
      split
      · exact absurd ‹_› (hnot _)
      · rfl
    rw [hsame]
    exact iff_of_true hclean fun pending htask => absurd htask (hnot pending)
  cases htask : registry.shutdownTask with
  | none => exact hnotSettling (by simp [htask])
  | some task =>
    cases task with
    | awaiting pending => exact hnotSettling (by simp [htask])
    | settled fulfilled => exact hnotSettling (by simp [htask])
    | disposing pending =>
      have hclosing := h.closing
      rw [htask] at hclosing
      have htimely : registry.Timely .shutdownSettles ↔ (registry.shutdownFulfilled pending →
          ∀ disposal ∈ registry.disposals, ¬disposal.AwaitedWith pending →
            disposal.fulfilled = some true) := by
        refine ⟨fun hall => hall pending htask, fun hall other hother => ?_⟩
        rw [htask] at hother
        cases hother
        exact hall
      rw [htimely]
      unfold shutdownSettles
      rw [htask]
      dsimp only
      cases hfulfilled : registry.shutdownFulfilled pending with
      | false =>
        refine iff_of_true ?_ (fun hnot => by cases hnot)
        split
        · intro hsettled
          cases hsettled
        · exact hclean
      | true =>
        have hown : ∀ disposal ∈ registry.disposals, disposal.owner = .shutdown →
            disposal.fulfilled.isSome := by
          intro disposal hdisposal howner
          rw [fulfilled_of_awaited h hfulfilled hdisposal (by simp [AwaitedWith, howner])]
          rfl
        rw [if_pos hown]
        constructor
        · intro hall _ disposal hdisposal _
          have hcall : disposal.call ∈ registry.produced :=
            h.placed.places.mem_iff.1 (mem_append_right _ (mem_map_of_mem hdisposal))
          obtain ⟨other, hother, hruntime, hdone⟩ := hall rfl disposal.call hcall
          rw [inj_on_of_nodup_map h.runtimes_nodup hother hdisposal hruntime] at hdone
          exact hdone
        · intro hall _ runtime hruntime
          obtain ⟨disposal, hdisposal, rfl⟩ := called_of_closing h hclosing.2 hruntime
          refine ⟨disposal, hdisposal, rfl, ?_⟩
          by_cases hawaited : disposal.AwaitedWith pending
          · exact fulfilled_of_awaited h hfulfilled hdisposal hawaited
          · exact hall rfl disposal hdisposal hawaited

/-! ## The runs -/

theorem Promised.extended (h : registry.Promised) (hextends : Extends registry after)
    (hyields : after.EnsuredYields) : after.Promised :=
  ⟨h.oneLive.extended hextends, hyields, h.clean.extended hextends⟩

theorem promised_factoryResolves_iff [ApplicationSessionIdentity TSession] (h : Books registry)
    (hpromised : registry.Promised) (id : Nat) :
    (registry.step (.factoryResolves id)).Promised ↔ registry.Timely (.factoryResolves id) := by
  cases hfind : registry.creations.find? (·.id = id) with
  | none =>
    have hsame : registry.step (.factoryResolves id) = registry := by
      simp only [step, hfind]
    rw [hsame]
    refine iff_of_true hpromised fun creation hmem hid => ?_
    have hnone := List.find?_eq_none.1 hfind creation hmem
    simp [hid] at hnone
  | some creation =>
    have hfound : creation ∈ registry.creations ∧ creation.id = id := find_mem hfind
    obtain ⟨hmem, rfl⟩ := hfound
    have hsteps : registry.step (.factoryResolves creation.id) =
        registry.stepCreation creation (.factoryResolves creation.id) := by
      simp only [step, hfind]
    rw [hsteps]
    have htimely : registry.Timely (.factoryResolves creation.id) ↔
        (creation.phase = .creating → ∀ disposal ∈ registry.disposals,
          disposal.sessionId = creation.sessionId → disposal.fulfilled = some true) := by
      refine ⟨fun hall => hall creation hmem rfl, fun hall other hother hid => ?_⟩
      rw [h.linked.eq hother hmem hid]
      exact hall
    rw [htimely]
    have hyields := ensuredYields_stepCreation h hpromised.yields hmem
      (.factoryResolves creation.id)
    by_cases hphase : creation.phase = .creating
    · have hstep : registry.stepCreation creation (.factoryResolves creation.id) =
          { registry.setPhase creation.id (.produced registry.produced.length) with
            produced :=
              registry.produced ++ [(registry.produced.length, creation.sessionId)] } := by
        simp [stepCreation, hphase]
      rw [hstep] at hyields ⊢
      constructor
      · intro hnow _ disposal hdisposal hsession
        by_contra hopen
        exact not_oneLive_factoryResolves h hdisposal hsession hopen hnow.oneLive
      · intro hdone
        refine ⟨oneLive_factoryResolves h hpromised.oneLive hmem hphase (hdone hphase), hyields, ?_⟩
        -- a registry that is shut down has no creation left
        intro hsettled
        have hclosing := h.closing
        change registry.shutdownTask = some (.settled true) at hsettled
        rw [hsettled] at hclosing
        exact absurd (by simp [Creation.Unfinished, hphase]) (hclosing.2.1 creation hmem)
    · refine iff_of_true (hpromised.extended ?_ hyields) fun hcreating => absurd hcreating hphase
      exact extends_stepCreation fun _ _ => hphase

/-- A step keeps the promises of the registry just when it is timely. -/
theorem promised_step_iff [ApplicationSessionIdentity TSession] (h : Books registry)
    (hpromised : registry.Promised) (event : RegistryEvent TSession) :
    (registry.step event).Promised ↔ registry.Timely event := by
  have hcreation := fun id (hevent : ∀ other, event ≠ .factoryResolves other) =>
    stepCreation_or_same (P := Promised) hpromised event (fun creation hmem =>
      hpromised.extended (extends_stepCreation fun other hother => absurd hother (hevent other))
        (ensuredYields_stepCreation h hpromised.yields hmem event)) id
  cases event with
  | create session =>
    exact iff_of_true (hpromised.extended (extends_create session)
      (ensuredYields_create h hpromised.yields session)) trivial
  | ensure session updated =>
    rw [← ensuredYields_ensureNoted_iff h hpromised.yields]
    exact ⟨fun hnow => hnow.yields, fun hyields =>
      hpromised.extended (extends_ensureNoted session updated) hyields⟩
  | reconcile sessions updated =>
    exact iff_of_true (hpromised.extended (extends_reconcile sessions updated)
      (ensuredYields_reconcile h hpromised.yields sessions updated)) trivial
  | disposeSession sessionId =>
    exact iff_of_true (hpromised.extended (extends_disposeSession sessionId .sessionRemoved)
      (ensuredYields_disposeSession h hpromised.yields sessionId .sessionRemoved)) trivial
  | shutdown =>
    exact iff_of_true (hpromised.extended extends_shutdown
      (ensuredYields_shutdown hpromised.yields)) trivial
  | disposalSettles runtime fulfilled =>
    exact iff_of_true (hpromised.extended (extends_settleDisposal runtime fulfilled)
      hpromised.yields) trivial
  | shutdownContinues =>
    refine iff_of_true (hpromised.extended extends_shutdownContinues ?_) trivial
    change registry.shutdownContinues.EnsuredYields
    unfold shutdownContinues
    split
    · rename_i pending htask
      have hclosing := h.closing
      rw [htask] at hclosing
      split
      · exact ensuredYields_of_superseded hclosing.1
      · exact hpromised.yields
    · exact hpromised.yields
  | shutdownSettles =>
    rw [← shutDownClean_shutdownSettles_iff h hpromised.clean]
    refine ⟨fun hnow => hnow.clean, fun hclean => ⟨?_, ?_, hclean⟩⟩
    · change registry.shutdownSettles.OneLive
      unfold shutdownSettles
      split
      · split
        · exact hpromised.oneLive
        · exact hpromised.oneLive
      · exact hpromised.oneLive
    · change registry.shutdownSettles.EnsuredYields
      unfold shutdownSettles
      split
      · rename_i pending htask
        have hclosing := h.closing
        rw [htask] at hclosing
        split
        · exact ensuredYields_of_superseded hclosing.1
        · exact hpromised.yields
      · exact hpromised.yields
  | factoryResolves id => exact promised_factoryResolves_iff h hpromised id
  | invokeFactory id | factoryRejects id | continues id | finishes id =>
    exact iff_of_true (hcreation id (by simp)) trivial

theorem promised_start : Promised ({} : ApplicationRuntimeRegistry TSession) := by
  refine ⟨?_, ?_, ?_⟩
  · simp [OneLive]
  · simp [EnsuredYields]
  · simp [ShutDownClean]

/-- In every run each runtime is handed to the disposer once or still resident. No session has two
live runtimes, every `ensure` yields a resident one and no shutdown resolves over a live one, just
as long as the removals are over in time. -/
theorem a_session_has_one_runtime_as_long_as_removals_are_in_time
    [ApplicationSessionIdentity TSession] (events : List (RegistryEvent TSession)) :
    DisposedOnce (run step {} events) ∧
      ((∀ before, before <+: events → Promised (run step {} before)) ↔
        Along step Timely {} events) := by
  constructor
  · have h := run events
    exact ⟨h.placed.distinct, h.placed.places⟩
  · apply throughout_iff (fun registry event (hinv : Books registry ∧ registry.Promised) htimely =>
      ⟨hinv.1.step event, (promised_step_iff hinv.1 hinv.2 event).2 htimely⟩)
    · exact fun registry hinv => hinv.2
    · exact fun registry event hinv hnot hpromised =>
        hnot ((promised_step_iff hinv.1 hinv.2 event).1 hpromised)
    · exact ⟨start, promised_start⟩

end ApplicationRuntimeRegistry

/-- A session that is its own identity. -/
instance : ApplicationSessionIdentity String := ⟨id⟩

/-- A session is removed and comes back while its old runtime is still being disposed: both
runtimes are live. -/
theorem a_slow_disposal_leaves_two_runtimes :
    ¬OneLive (run step
      ({} : ApplicationRuntimeRegistry String)
      [.ensure "a" true, .invokeFactory 0, .factoryResolves 0, .continues 0, .finishes 0,
       .disposeSession "a", .ensure "a" true, .invokeFactory 1, .factoryResolves 1]) := by
  decide +kernel

end bbcom.runtime_registry
