-- The calls of the registry keep its books: a creation begins, a session is refreshed or removed,
-- the registry shuts down.
import Bbcom.RuntimeRegistryBooks

open bbcom.ordered_map bbcom.ordered_map.OrderedMap bbcom.runs bbcom.write_epoch

namespace bbcom.runtime_registry

open ApplicationRuntimeRegistry List Creation Disposal

variable {TSession : Type}

/-! ## Entries that keep their runtimes -/

section

variable {entries entries' : OrderedMap String (MutableRuntimeEntry TSession)}

theorem residentsOf_keys (entries : OrderedMap String (MutableRuntimeEntry TSession)) :
    (residentsOf entries).map Prod.snd = entries.map Prod.fst := by
  simp [residentsOf]

/-- The resident runtime of a session is read off the list of all. -/
theorem get_runtime (entries : OrderedMap String (MutableRuntimeEntry TSession))
    (sessionId : String) : (entries.get sessionId).map (·.runtime) =
      ((residentsOf entries).find? (·.2 = sessionId)).map Prod.fst := by
  induction entries with
  | nil => rfl
  | cons entry entries ih =>
    rw [get_cons]
    by_cases hkey : entry.1 = sessionId
    · simp [residentsOf, hkey]
    · rw [if_neg hkey, ih]
      simp [residentsOf, hkey]

theorem get_runtime_congr (h : residentsOf entries' = residentsOf entries) (sessionId : String) :
    (entries'.get sessionId).map (·.runtime) = (entries.get sessionId).map (·.runtime) := by
  rw [get_runtime, get_runtime, h]

theorem get_eq_none_congr (h : residentsOf entries' = residentsOf entries) (sessionId : String) :
    entries'.get sessionId = none ↔ entries.get sessionId = none := by
  rw [get_eq_none, get_eq_none, ← residentsOf_keys, ← residentsOf_keys, h]

theorem residentsOf_eq_nil : residentsOf entries = [] ↔ entries = [] := by
  simp [residentsOf]

end

/-! ## Generations -/

variable {generations : OrderedMap String Nat}

theorem Older.bumped {creation : Creation TSession}
    (h : Current generations creation ∨ Older generations creation) (sessionId : String) :
    (creation.sessionId ≠ sessionId ∧
      (generations.set sessionId ((generations.get sessionId).getD 0 + 1)).get creation.sessionId =
        generations.get creation.sessionId) ∨
    (creation.sessionId = sessionId ∧
      Older (generations.set sessionId ((generations.get sessionId).getD 0 + 1)) creation) := by
  by_cases hsession : creation.sessionId = sessionId
  · subst hsession
    refine .inr ⟨rfl, _, get_set_self _ _ _, ?_⟩
    rcases h with h | ⟨generation, h, hlt⟩
    · unfold Current at h
      rw [h]
      exact Nat.lt_succ_self _
    · rw [h]
      exact Nat.lt_succ_of_lt hlt
  · exact .inl ⟨hsession, get_set_of_ne _ _ hsession⟩

theorem Dated.bumped {creations : List (Creation TSession)}
    {entries : OrderedMap String (MutableRuntimeEntry TSession)} {closing : Bool}
    (h : Dated creations entries generations closing) (sessionId : String) :
    Dated creations entries
      (generations.set sessionId ((generations.get sessionId).getD 0 + 1)) closing := by
  have holder : ∀ creation ∈ creations, Older generations creation →
      Older (generations.set sessionId ((generations.get sessionId).getD 0 + 1)) creation := by
    intro creation hmem hold
    rcases Older.bumped (h.dated creation hmem) sessionId with ⟨_, hsame⟩ | ⟨_, hnow⟩
    · obtain ⟨generation, hget, hlt⟩ := hold
      exact ⟨generation, hsame.trans hget, hlt⟩
    · exact hnow
  refine ⟨?_, ?_, ?_, ?_⟩
  · intro creation hmem
    rcases Older.bumped (h.dated creation hmem) sessionId with ⟨_, hsame⟩ | ⟨_, hnow⟩
    · refine (h.dated creation hmem).imp (fun hcurrent => ?_) (holder creation hmem)
      exact hsame.trans hcurrent
    · exact .inr hnow
  · exact fun creation hmem hreason => holder creation hmem (h.removed creation hmem hreason)
  · exact fun creation hmem hlost => (h.lost creation hmem hlost).imp_right (holder creation hmem)
  · exact fun creation hmem runtime hphase =>
      (h.kept creation hmem runtime hphase).imp_right fun hor =>
        hor.imp_right (holder creation hmem)

/-! ## Sessions are refreshed -/

namespace Books

variable {registry : ApplicationRuntimeRegistry TSession}

theorem refreshed (h : Books registry) {entries : OrderedMap String (MutableRuntimeEntry TSession)}
    (hsame : residentsOf entries = residentsOf registry.entries) :
    Books { registry with entries } := by
  refine ⟨h.linked, ⟨?_, ?_, h.placed.below, h.placed.distinct, hsame ▸ h.placed.places⟩,
    ⟨h.dated.dated, h.dated.removed, h.dated.lost, ?_⟩, h.owned, ?_⟩
  · rw [← residentsOf_keys, hsame, residentsOf_keys]
    exact h.placed.keys
  · intro creation hmem hun
    exact (get_eq_none_congr hsame _).2 (h.placed.absent creation hmem hun)
  · intro creation hmem runtime hphase
    rw [get_runtime_congr hsame]
    exact h.dated.kept creation hmem runtime hphase
  · refine h.closing.imp (fun creation hmem hun => ⟨creation, hmem, rfl, hun⟩) (fun hnil => ?_) id
    rw [← residentsOf_eq_nil, hsame, hnil]
    rfl

theorem residentsOf_refreshEntry (registry : ApplicationRuntimeRegistry TSession)
    (sessionId : String) (session : TSession) :
    residentsOf (registry.refreshEntry sessionId session).entries =
      residentsOf registry.entries := by
  unfold refreshEntry residentsOf modifyKey
  rw [map_map]
  apply map_congr_left
  intro entry _
  rw [Function.comp_apply]
  split
  · rfl
  · rfl

theorem residentsOf_refreshEntries (byId : OrderedMap String TSession)
    (updated : String → Bool) (entries : OrderedMap String (MutableRuntimeEntry TSession)) :
    residentsOf (refreshEntries byId updated entries).1 =
      residentsOf entries := by
  induction entries with
  | nil => rfl
  | cons entry entries ih =>
    unfold refreshEntries
    split
    · simpa [residentsOf] using ih
    · split
      · simpa [residentsOf] using ih
      · rfl

/-! ## A creation begins -/

theorem bumpGeneration (h : Books registry) (sessionId : String) :
    Books (registry.bumpGeneration sessionId) :=
  ⟨h.linked, h.placed, h.dated.bumped sessionId, h.owned, h.closing⟩

variable {sessionId : String}

theorem beginCreation (h : Books registry) (session : TSession)
    (hopen : registry.shutdownTask = none) (hentry : registry.entries.get sessionId = none)
    (hpending : registry.pending.get sessionId = none) :
    Books (registry.beginCreation session sessionId).2 := by
  have hbumped := h.dated.bumped sessionId
  refine ⟨h.linked.begun rfl (by simp [Unfinished]) hpending,
    ⟨h.placed.keys, ?_, h.placed.below, h.placed.distinct, ?_⟩, ⟨?_, ?_, ?_, ?_⟩, ?_, ?_⟩
  · exact forall_mem_append.2 ⟨h.placed.absent, forall_mem_singleton.2 fun _ => hentry⟩
  · change ((registry.creations ++ [_]).filterMap waiting ++ _ ++ _).Perm _
    have hsame : ∀ creation : Creation TSession, creation.phase = .scheduled →
        (registry.creations ++ [creation]).filterMap waiting =
          registry.creations.filterMap waiting := by
      intro creation hphase
      simp [filterMap_append, waiting, hphase]
    rw [hsame _ rfl]
    exact h.placed.places
  · exact forall_mem_append.2
      ⟨hbumped.dated, forall_mem_singleton.2 (.inl (get_set_self _ _ _))⟩
  · exact forall_mem_append.2 ⟨hbumped.removed, by simp⟩
  · exact forall_mem_append.2 ⟨hbumped.lost, by simp [Lost]⟩
  · exact forall_mem_append.2 ⟨hbumped.kept, by simp⟩
  · intro disposal hdisposal id howner
    obtain ⟨creation, hmem, hrest⟩ := h.owned disposal hdisposal id howner
    exact ⟨creation, mem_append_left _ hmem, hrest⟩
  · change Closing _ _ registry.shutdownTask _
    rw [hopen]
    trivial

/-! ## Sessions are removed -/

section

variable (h : Books registry)
include h

variable {sessionId : String}

/-- The removal marks the pending creation of its session. -/
theorem marked {id : Nat} (hpending : registry.pending.get sessionId = some id)
    (holder : ∀ creation ∈ registry.creations, creation.sessionId = sessionId →
      Older registry.generations creation) (reason : RuntimeDisposalReason) :
    Books (registry.modifyCreation id fun creation =>
      { creation with disposalReason := creation.disposalReason <|> some reason }) := by
  obtain ⟨creation, hmem, rfl, hsession, _⟩ := h.linked.sound sessionId id hpending
  have hall : ∀ {P : Creation TSession → Creation TSession → Prop},
      (∀ other ∈ registry.creations, P other other) →
      P creation { creation with disposalReason := creation.disposalReason <|> some reason } →
      ∀ other ∈ registry.creations, P other (if other.id = creation.id then
          { other with disposalReason := other.disposalReason <|> some reason } else other) :=
    fun hothers hone => h.linked.forall_modify hmem (fun other hother _ => hothers other hother)
      hone
  have hcarries := hall (P := Carries) (fun _ _ => ⟨rfl, rfl, rfl⟩) ⟨rfl, rfl, rfl⟩
  refine ⟨h.linked.map (fun other hother => (hcarries other hother).id)
    (fun other hother => (hcarries other hother).sessionId) ?_, h.placed.map hcarries ?_ ?_,
    h.dated.map hcarries ?_ ?_ ?_,
    h.owned.map hcarries ?_, h.closing.map hcarries ?_⟩
  · exact hall (P := fun before after => after.Unfinished ↔ before.Unfinished)
      (fun _ _ => Iff.rfl) Iff.rfl
  · exact hall (P := fun before after => after.Unplaced → before.Unplaced) (fun _ _ => id) id
  · exact hall (P := fun before after => after.waiting = before.waiting) (fun _ _ => rfl) rfl
  · exact hall (P := fun before after => after.disposalReason.isSome →
      Older registry.generations before) h.dated.removed fun _ => holder creation hmem hsession
  · exact hall (P := fun before after => after.Lost → registry.shuttingDown ∨
      Older registry.generations before) h.dated.lost (h.dated.lost creation hmem)
  · exact hall (P := fun before after => ∀ runtime, after.phase = .settled (.fulfilled runtime) →
        (registry.entries.get before.sessionId).map (·.runtime) = some runtime ∨
          registry.shuttingDown ∨ Older registry.generations before)
      h.dated.kept (h.dated.kept creation hmem)
  · exact hall (P := fun before after => ∀ disposal ∈ registry.disposals,
      before.Knows disposal → after.Knows disposal) (fun _ _ _ _ => id) fun _ _ => id
  · exact hall (P := fun before after => after.Unfinished → before.Unfinished) (fun _ _ => id) id

/-- A resident runtime goes to the disposer. -/
theorem taken {entry : MutableRuntimeEntry TSession}
    (hentry : registry.entries.get sessionId = some entry)
    (holder : ∀ creation ∈ registry.creations, creation.sessionId = sessionId →
      Older registry.generations creation) (reason : RuntimeDisposalReason) :
    Books { registry with
      entries := registry.entries.delete sessionId
      disposals := registry.disposals ++
        [{ runtime := entry.runtime, sessionId, session := entry.session, reason,
           owner := .removal }] } := by
  refine ⟨h.linked, ⟨(keys_delete _ h.placed.keys).1, ?_, h.placed.below, h.placed.distinct, ?_⟩,
    ⟨h.dated.dated, h.dated.removed, h.dated.lost, ?_⟩, ?_, ?_⟩
  · intro creation hmem hun
    by_cases hsession : creation.sessionId = sessionId
    · rw [hsession]
      exact get_delete_self _ _
    · rw [get_delete_of_ne _ hsession]
      exact h.placed.absent creation hmem hun
  · have hresidents : (residentsOf registry.entries).Perm
        ((entry.runtime, sessionId) :: residentsOf (registry.entries.delete sessionId)) :=
      (perm_filter_key h.placed.keys (mem_of_get hentry)).map _
    have hplaces := h.placed.places
    rw [perm_iff_count] at hresidents hplaces ⊢
    intro runtime
    have hr := hresidents runtime
    have hp := hplaces runtime
    simp only [map_append, map_singleton, call, count_append, count_cons, count_nil] at hr hp ⊢
    omega
  · intro creation hmem runtime hphase
    by_cases hsession : creation.sessionId = sessionId
    · exact .inr (.inr (holder creation hmem hsession))
    · rw [get_delete_of_ne _ hsession]
      exact h.dated.kept creation hmem runtime hphase
  · intro disposal hdisposal id howner
    rcases mem_append.1 hdisposal with hold | hnew
    · exact h.owned disposal hold id howner
    · rw [mem_singleton.1 hnew] at howner
      cases howner
  · refine h.closing.imp (fun creation hmem hun => ⟨creation, hmem, rfl, hun⟩) (fun hnil => ?_) id
    rw [hnil]
    rfl

/-- Answers of `ensure` that a removal overtakes. -/
theorem overtaken {ensured : List Ensured}
    (hensured : (∀ answer ∈ registry.ensured, answer.superseded) →
      ∀ answer ∈ ensured, answer.superseded) : Books { registry with ensured } :=
  ⟨h.linked, h.placed, h.dated, h.owned,
    h.closing.imp (fun creation hmem hun => ⟨creation, hmem, rfl, hun⟩) id hensured⟩

theorem older_of_bumped (sessionId : String) :
    ∀ creation ∈ registry.creations, creation.sessionId = sessionId →
      Older (registry.bumpGeneration sessionId).generations creation := by
  intro creation hmem hsession
  rcases Older.bumped (h.dated.dated creation hmem) sessionId with ⟨hne, _⟩ | ⟨_, holder⟩
  · exact absurd hsession hne
  · exact holder

theorem disposeSession (sessionId : String) (reason : RuntimeDisposalReason) :
    Books (registry.disposeSession sessionId reason) := by
  have hensured : (∀ answer ∈ registry.ensured, answer.superseded) →
      ∀ answer ∈ registry.ensured.map fun answer : Ensured =>
        if answer.sessionId = sessionId then { answer with superseded := true } else answer,
        answer.superseded := by
    intro hall _ hmap
    obtain ⟨answer, hanswer, rfl⟩ := mem_map.1 hmap
    split
    · rfl
    · exact hall answer hanswer
  have hbumped := (h.bumpGeneration sessionId).overtaken hensured
  have holder := h.older_of_bumped sessionId
  unfold ApplicationRuntimeRegistry.disposeSession
  cases hpending : registry.pending.get sessionId with
  | none =>
    cases hentry : registry.entries.get sessionId with
    | none => exact hbumped
    | some entry => exact hbumped.taken hentry holder reason
  | some id =>
    have hmarked := hbumped.marked hpending holder reason
    cases hentry : registry.entries.get sessionId with
    | none => exact hmarked
    | some entry =>
      refine hmarked.taken hentry ?_ reason
      intro _ hmap hsession
      obtain ⟨creation, hmem, rfl⟩ := mem_map.1 hmap
      have hcarries : Carries creation (if creation.id = id then
          { creation with disposalReason := creation.disposalReason <|> some reason }
          else creation) := by
        split
        · exact ⟨rfl, rfl, rfl⟩
        · exact ⟨rfl, rfl, rfl⟩
      exact (holder creation hmem (hcarries.sessionId.symm.trans hsession)).map hcarries

end

/-! ## The other calls -/

variable {session : TSession}

theorem shutdownTask_of_open [ApplicationSessionIdentity TSession]
    (h : registry.openSession session = .ok sessionId) :
    registry.shutdownTask = none := by
  unfold openSession assertOpen shuttingDown at h
  cases htask : registry.shutdownTask with
  | none => rfl
  | some task =>
    rw [htask] at h
    cases h

theorem create [ApplicationSessionIdentity TSession] (h : Books registry) (session : TSession) :
    Books (registry.create session).2 := by
  unfold ApplicationRuntimeRegistry.create
  split
  · exact h
  · rename_i sessionId hopen
    split
    · exact h
    · rename_i hfree
      rw [not_or, Option.not_isSome_iff_eq_none, Option.not_isSome_iff_eq_none] at hfree
      exact h.beginCreation session (shutdownTask_of_open hopen) hfree.1 hfree.2

theorem ensure [ApplicationSessionIdentity TSession] (h : Books registry) (session : TSession)
    (updated : Bool) : Books (registry.ensure session updated).2 := by
  unfold ApplicationRuntimeRegistry.ensure
  split
  · exact h
  · rename_i sessionId hopen
    split
    · split
      · exact h.refreshed (residentsOf_refreshEntry registry sessionId session)
      · exact h.refreshed (residentsOf_refreshEntry registry sessionId session)
    · rename_i hentry
      split
      · exact h
      · rename_i hpending
        exact h.beginCreation session (shutdownTask_of_open hopen) hentry hpending

/-- What `ensure` returns comes from an open registry. -/
theorem shutdownTask_of_ensure [ApplicationSessionIdentity TSession] {updated : Bool}
    {promise : RuntimePromise} {behind : ApplicationRuntimeRegistry TSession}
    (h : registry.ensure session updated = (.ok promise, behind)) : behind.shutdownTask = none := by
  unfold ApplicationRuntimeRegistry.ensure at h
  split at h
  · cases h
  · rename_i sessionId hopen
    have htask := shutdownTask_of_open hopen
    split at h
    · split at h
      · cases h
        exact htask
      · cases h
    · split at h
      · cases h
        exact htask
      · cases h
        exact htask

/-- An event of a creation is a step of it, or passes it by. -/
theorem stepCreation_or_same {P : ApplicationRuntimeRegistry TSession → Prop} (hsame : P registry)
    [ApplicationSessionIdentity TSession] (event : RegistryEvent TSession)
    (hsteps : ∀ creation ∈ registry.creations, P (registry.stepCreation creation event))
    (id : Nat) :
    P (match registry.creations.find? (·.id = id) with
      | none => registry
      | some creation => registry.stepCreation creation event) := by
  split
  · exact hsame
  · rename_i creation hfind
    exact hsteps creation (List.mem_of_find?_eq_some hfind)

section

variable (h : Books registry)
include h

theorem ensureNoted [ApplicationSessionIdentity TSession] (session : TSession) (updated : Bool) :
    Books (registry.ensureNoted session updated) := by
  unfold ApplicationRuntimeRegistry.ensureNoted
  have hbooks := h.ensure session updated
  split
  · rename_i behind hensure
    rw [hensure] at hbooks
    exact hbooks
  · rename_i promise behind hensure
    rw [hensure] at hbooks
    refine ⟨hbooks.linked, hbooks.placed, hbooks.dated, hbooks.owned, ?_⟩
    change Closing _ _ behind.shutdownTask _
    rw [shutdownTask_of_ensure hensure]
    trivial

theorem reconcile [ApplicationSessionIdentity TSession] (sessions : List TSession)
    (updated : String → Bool) : Books (registry.reconcile sessions updated).2 := by
  unfold ApplicationRuntimeRegistry.reconcile
  split
  · exact h
  · rename_i byId _
    have hrefreshed := h.refreshed (residentsOf_refreshEntries byId updated registry.entries)
    dsimp only
    split
    · exact run_invariant (fun registry sessionId hbooks =>
        hbooks.disposeSession sessionId .reconcile) hrefreshed _
    · exact hrefreshed

theorem shutdown : Books registry.shutdown := by
  unfold ApplicationRuntimeRegistry.shutdown
  split
  · exact h
  · rename_i hopen
    have hkeeps : ∀ (ids : List String) (registry : ApplicationRuntimeRegistry TSession),
        Books registry →
        Books (ids.foldl (fun registry id => registry.bumpGeneration id) registry) ∧
        (ids.foldl (fun registry id => registry.bumpGeneration id) registry).pending =
          registry.pending := by
      intro ids
      induction ids with
      | nil => exact fun registry h => ⟨h, rfl⟩
      | cons id ids ih => exact fun registry h => ih _ (h.bumpGeneration id)
    obtain ⟨hbumped, hpending⟩ := hkeeps registry.knownIds registry h
    refine ⟨hbumped.linked, hbumped.placed, ?_, hbumped.owned, ?_, ?_⟩
    · exact ⟨hbumped.dated.dated, hbumped.dated.removed, fun _ _ _ => .inl rfl,
        fun _ _ _ _ => .inr (.inl rfl)⟩
    · intro _ hmap
      obtain ⟨answer, _, rfl⟩ := mem_map.1 hmap
      rfl
    · intro creation hmem hun
      have hget := hbumped.linked.complete creation hmem hun
      rw [hpending] at hget
      exact mem_map_of_mem (mem_of_get hget)

theorem settleDisposal (runtime : Nat) (fulfilled : Bool) :
    Books (registry.settleDisposal runtime fulfilled) := by
  refine ⟨h.linked,
    ⟨h.placed.keys, h.placed.absent, h.placed.below, h.placed.distinct, ?_⟩, h.dated, ?_,
    h.closing⟩
  · have hcalls : (registry.settleDisposal runtime fulfilled).disposals.map call =
        registry.disposals.map call := by
      unfold ApplicationRuntimeRegistry.settleDisposal modifyKey
      rw [map_map]
      apply map_congr_left
      intro disposal _
      rw [Function.comp_apply]
      split
      · rfl
      · rfl
    rw [hcalls]
    exact h.placed.places
  · intro disposal hdisposal id howner
    rcases mem_modifyKey hdisposal with ⟨old, hold, _, rfl⟩ | ⟨hold, _⟩
    · obtain ⟨creation, hmem, hid, hknows⟩ := h.owned old hold id howner
      refine ⟨creation, hmem, hid, ?_⟩
      unfold Knows at hknows ⊢
      split
      all_goals simp_all
    · exact h.owned disposal hold id howner

/-- Behind the creations that the shutdown awaits, none is unfinished. -/
theorem none_unfinished {pending : List Nat}
    (htask : registry.shutdownTask = some (.awaiting pending))
    (hfinished : ∀ id ∈ pending, (registry.outcomeOf id).isSome) :
    ∀ creation ∈ registry.creations, ¬creation.Unfinished := by
  intro creation hmem hun
  have hclosing := h.closing
  rw [htask] at hclosing
  have hsome := hfinished creation.id (hclosing.2 creation hmem hun)
  unfold outcomeOf at hsome
  rw [find_of_mem h.linked.ids hmem, Option.bind_some] at hsome
  split at hsome
  · exact hun _ ‹_›
  · cases hsome

theorem shutdownContinues : Books registry.shutdownContinues := by
  unfold ApplicationRuntimeRegistry.shutdownContinues
  split
  · rename_i pending htask
    split
    · rename_i hfinished
      have hclosing := h.closing
      rw [htask] at hclosing
      refine ⟨h.linked, ⟨nodup_nil, fun _ _ _ => rfl, h.placed.below, h.placed.distinct, ?_⟩,
        ⟨h.dated.dated, h.dated.removed, fun _ _ _ => .inl rfl, fun _ _ _ _ => .inr (.inl rfl)⟩,
        ?_, ⟨hclosing.1, h.none_unfinished htask hfinished, rfl⟩⟩
      · have hplaces := h.placed.places
        rw [perm_iff_count] at hplaces ⊢
        intro runtime
        have hp := hplaces runtime
        have hcalls : (registry.entries.map fun entry =>
            ({ runtime := entry.2.runtime, sessionId := entry.1, session := entry.2.session,
               reason := .applicationShutdown, owner := .shutdown } :
              Disposal TSession)).map call = residentsOf registry.entries := by
          simp [residentsOf, call]
        rw [map_append, hcalls]
        simp only [count_append, residentsOf, map_nil, count_nil] at hp ⊢
        omega
      · intro disposal hdisposal id howner
        rcases mem_append.1 hdisposal with hold | hnew
        · exact h.owned disposal hold id howner
        · obtain ⟨entry, _, rfl⟩ := mem_map.1 hnew
          cases howner
    · exact h
  · exact h

theorem shutdownSettles : Books registry.shutdownSettles := by
  unfold ApplicationRuntimeRegistry.shutdownSettles
  split
  · rename_i pending htask
    split
    · have hclosing := h.closing
      rw [htask] at hclosing
      exact ⟨h.linked, h.placed, ⟨h.dated.dated, h.dated.removed, fun _ _ _ => .inl rfl,
        fun _ _ _ _ => .inr (.inl rfl)⟩, h.owned, hclosing⟩
    · exact h
  · exact h

theorem step [ApplicationSessionIdentity TSession] (event : RegistryEvent TSession) :
    Books (registry.step event) := by
  have hcreation := stepCreation_or_same (P := Books) h event fun creation hmem =>
    h.stepCreation hmem event
  cases event with
  | create session => exact h.create session
  | ensure session updated => exact h.ensureNoted session updated
  | reconcile sessions updated => exact h.reconcile sessions updated
  | disposeSession sessionId => exact h.disposeSession sessionId .sessionRemoved
  | shutdown => exact h.shutdown
  | disposalSettles runtime fulfilled => exact h.settleDisposal runtime fulfilled
  | shutdownContinues => exact h.shutdownContinues
  | shutdownSettles => exact h.shutdownSettles
  | invokeFactory id | factoryResolves id | factoryRejects id | continues id | finishes id =>
    exact hcreation id

end

theorem start : Books ({} : ApplicationRuntimeRegistry TSession) := by
  refine ⟨.start, ⟨?_, ?_, ?_, ?_, ?_⟩, ⟨?_, ?_, ?_, ?_⟩, ?_, trivial⟩
  all_goals simp [residentsOf, Owned]

/-- The books after a run. -/
theorem run [ApplicationSessionIdentity TSession] (events : List (RegistryEvent TSession)) :
    Books (bbcom.runs.run ApplicationRuntimeRegistry.step {} events) :=
  run_invariant (fun _ event h => h.step event) start events

end Books

end bbcom.runtime_registry
