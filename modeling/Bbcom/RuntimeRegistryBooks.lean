-- What the books of the registry say after any event: which creations are pending, where each
-- runtime is, which generations are current.
import Bbcom.Lib.Pending
import Bbcom.RuntimeRegistry

open bbcom.ordered_map bbcom.ordered_map.OrderedMap

namespace bbcom.runtime_registry

open Creation List Option Disposal ApplicationRuntimeRegistry

variable {TSession : Type}

/-! ## The phases of a creation -/

namespace Creation

def Unfinished (creation : Creation TSession) : Prop :=
  ∀ outcome, creation.phase ≠ .finished outcome

/-- Its session waits for a runtime, or for the disposal of the one that came. -/
def Unplaced (creation : Creation TSession) : Prop :=
  match creation.phase with
  | .scheduled | .creating | .produced _ | .disposing _ => True
  | .settled _ | .finished _ => False

/-- Its runtime was not kept. -/
def Lost (creation : Creation TSession) : Prop :=
  match creation.phase with
  | .disposing _ | .settled .superseded | .settled .disposalFailed => True
  | _ => False

theorem Unplaced.unfinished {creation : Creation TSession} (h : creation.Unplaced) :
    creation.Unfinished := by
  intro outcome hphase
  simp [Unplaced, hphase] at h

end Creation

/-! ## The clusters of the books -/

section

variable (creations : List (Creation TSession))
  (entries : OrderedMap String (MutableRuntimeEntry TSession))

/-- `pending` holds the unfinished creations, one for a session. -/
abbrev Linked (pending : OrderedMap String Nat) : Prop :=
  pending_tasks.Linked Creation.id Creation.sessionId Creation.Unfinished creations pending

/-- Each runtime is in one place. -/
structure Placed (produced : List (Nat × String)) (disposals : List (Disposal TSession)) :
    Prop where
  keys : (entries.map Prod.fst).Nodup
  absent : ∀ creation ∈ creations, creation.Unplaced → entries.get creation.sessionId = none
  below : ∀ runtime ∈ produced, runtime.1 < produced.length
  distinct : (produced.map Prod.fst).Nodup
  places : (creations.filterMap waiting ++ residentsOf entries ++
    disposals.map call).Perm produced

/-- The generation of a session is that of the creation. -/
def Current (generations : OrderedMap String Nat) (creation : Creation TSession) : Prop :=
  generations.get creation.sessionId = some creation.generation

/-- The generation of a session has gone past that of the creation. -/
def Older (generations : OrderedMap String Nat) (creation : Creation TSession) : Prop :=
  ∃ generation, generations.get creation.sessionId = some generation ∧
    creation.generation < generation

/-- What the generations know of the creations. -/
structure Dated (generations : OrderedMap String Nat) (closing : Bool) : Prop where
  dated : ∀ creation ∈ creations, Current generations creation ∨ Older generations creation
  removed : ∀ creation ∈ creations, creation.disposalReason.isSome → Older generations creation
  lost : ∀ creation ∈ creations, creation.Lost → closing ∨ Older generations creation
  kept : ∀ creation ∈ creations, ∀ runtime, creation.phase = .settled (.fulfilled runtime) →
    (entries.get creation.sessionId).map (·.runtime) = some runtime ∨ closing ∨
      Older generations creation

/-- What a creation knows of a disposal that it began. -/
def Creation.Knows (creation : Creation TSession) (disposal : Disposal TSession) : Prop :=
  match creation.phase with
  | .disposing runtime => runtime = disposal.runtime
  | .settled .superseded | .finished .superseded => disposal.fulfilled = some true
  | .settled .disposalFailed | .finished .disposalFailed => True
  | _ => False

def Owned (disposals : List (Disposal TSession)) : Prop :=
  ∀ disposal ∈ disposals, ∀ id, disposal.owner = .creation id →
    ∃ creation ∈ creations, creation.id = id ∧ creation.Knows disposal

/-- What is over once the shutdown has come to a point. -/
def Closing (task : Option ShutdownTask) (ensured : List Ensured) : Prop :=
  match task with
  | none => True
  | some (.awaiting pending) =>
    (∀ answer ∈ ensured, answer.superseded) ∧
      ∀ creation ∈ creations, creation.Unfinished → creation.id ∈ pending
  | some (.disposing _) | some (.settled _) =>
    (∀ answer ∈ ensured, answer.superseded) ∧
      (∀ creation ∈ creations, ¬creation.Unfinished) ∧ entries = []

end

/-- The books of the registry. -/
structure Books (registry : ApplicationRuntimeRegistry TSession) : Prop where
  linked : Linked registry.creations registry.pending
  placed : Placed registry.creations registry.entries registry.produced registry.disposals
  dated : Dated registry.creations registry.entries registry.generations registry.shuttingDown
  owned : Owned registry.creations registry.disposals
  closing : Closing registry.creations registry.entries registry.shutdownTask registry.ensured

/-! ## A change of the creations -/

section

variable {creations : List (Creation TSession)}
  {entries : OrderedMap String (MutableRuntimeEntry TSession)}
  {pending generations : OrderedMap String Nat} {produced : List (Nat × String)}
  {disposals : List (Disposal TSession)} {closing : Bool} {task : Option ShutdownTask}
  {ensured : List Ensured} {creation : Creation TSession}
  {g : Creation TSession → Creation TSession}

/-- What a change of a creation leaves as it is. -/
structure Carries (before after : Creation TSession) : Prop where
  id : after.id = before.id
  sessionId : after.sessionId = before.sessionId
  generation : after.generation = before.generation

/-- A phase is given to one creation. -/
def withPhase (id : Nat) (phase : CreationPhase) (creation : Creation TSession) :
    Creation TSession :=
  if creation.id = id then { creation with phase } else creation

theorem Linked.forall_withPhase (h : Linked creations pending) (hmem : creation ∈ creations)
    {phase : CreationPhase} {P : Creation TSession → Creation TSession → Prop}
    (hothers : ∀ other ∈ creations, other.id ≠ creation.id → P other other)
    (hone : P creation { creation with phase }) :
    ∀ other ∈ creations, P other (withPhase creation.id phase other) :=
  h.forall_modify hmem hothers hone

theorem carries_withPhase (id : Nat) (phase : CreationPhase) (creation : Creation TSession) :
    Carries creation (withPhase id phase creation) := by
  unfold withPhase
  split
  · exact ⟨rfl, rfl, rfl⟩
  · exact ⟨rfl, rfl, rfl⟩

theorem withPhase_disposalReason (id : Nat) (phase : CreationPhase) (creation : Creation TSession) :
    (withPhase id phase creation).disposalReason = creation.disposalReason := by
  unfold withPhase
  split
  · rfl
  · rfl

theorem Placed.map (h : Placed creations entries produced disposals)
    (hcarries : ∀ creation ∈ creations, Carries creation (g creation))
    (hunplaced : ∀ creation ∈ creations, (g creation).Unplaced → creation.Unplaced)
    (hwaiting : ∀ creation ∈ creations, (g creation).waiting = creation.waiting) :
    Placed (creations.map g) entries produced disposals := by
  refine ⟨h.keys, ?_, h.below, h.distinct, ?_⟩
  · intro _ hmap hun
    obtain ⟨creation, hmem, rfl⟩ := mem_map.1 hmap
    rw [(hcarries creation hmem).sessionId]
    exact h.absent creation hmem (hunplaced creation hmem hun)
  · have hsame : (creations.map g).filterMap waiting = creations.filterMap waiting := by
      rw [filterMap_map]
      exact filterMap_congr hwaiting
    rw [hsame]
    exact h.places

theorem Older.map {before after : Creation TSession} (hcarries : Carries before after)
    (h : Older generations before) : Older generations after := by
  unfold Older at h ⊢
  rw [hcarries.sessionId, hcarries.generation]
  exact h

theorem Dated.map (h : Dated creations entries generations closing)
    (hcarries : ∀ creation ∈ creations, Carries creation (g creation))
    (hremoved : ∀ creation ∈ creations, (g creation).disposalReason.isSome →
      Older generations creation)
    (hlost : ∀ creation ∈ creations, (g creation).Lost → closing ∨ Older generations creation)
    (hkept : ∀ creation ∈ creations, ∀ runtime, (g creation).phase = .settled (.fulfilled runtime) →
        (entries.get creation.sessionId).map (·.runtime) = some runtime ∨ closing ∨
          Older generations creation) :
    Dated (creations.map g) entries generations closing := by
  refine ⟨?_, ?_, ?_, ?_⟩
  · intro _ hmap
    obtain ⟨creation, hmem, rfl⟩ := mem_map.1 hmap
    have hsame := hcarries creation hmem
    rcases h.dated creation hmem with hcurrent | holder
    · left
      unfold Current at hcurrent ⊢
      rw [hsame.sessionId, hsame.generation]
      exact hcurrent
    · exact .inr (holder.map hsame)
  · intro _ hmap hreason
    obtain ⟨creation, hmem, rfl⟩ := mem_map.1 hmap
    exact (hremoved creation hmem hreason).map (hcarries creation hmem)
  · intro _ hmap hnow
    obtain ⟨creation, hmem, rfl⟩ := mem_map.1 hmap
    exact (hlost creation hmem hnow).imp_right fun holder => holder.map (hcarries creation hmem)
  · intro _ hmap runtime hphase
    obtain ⟨creation, hmem, rfl⟩ := mem_map.1 hmap
    rw [(hcarries creation hmem).sessionId]
    exact (hkept creation hmem runtime hphase).imp_right fun hor =>
      hor.imp_right fun holder => holder.map (hcarries creation hmem)

theorem Owned.map (h : Owned creations disposals)
    (hcarries : ∀ creation ∈ creations, Carries creation (g creation))
    (hknows : ∀ creation ∈ creations, ∀ disposal ∈ disposals, creation.Knows disposal →
      (g creation).Knows disposal) : Owned (creations.map g) disposals := by
  intro disposal hdisposal id howner
  obtain ⟨creation, hmem, hid, hknown⟩ := h disposal hdisposal id howner
  exact ⟨g creation, mem_map_of_mem hmem, (hcarries creation hmem).id.trans hid,
    hknows creation hmem disposal hdisposal hknown⟩

theorem Closing.imp (h : Closing creations entries task ensured)
    {creations' : List (Creation TSession)}
    {entries' : OrderedMap String (MutableRuntimeEntry TSession)} {ensured' : List Ensured}
    (hcreations : ∀ after ∈ creations', after.Unfinished →
      ∃ before ∈ creations, before.id = after.id ∧ before.Unfinished)
    (hentries : entries = [] → entries' = [])
    (hensured : (∀ answer ∈ ensured, answer.superseded) → ∀ answer ∈ ensured', answer.superseded) :
    Closing creations' entries' task ensured' := by
  unfold Closing at h ⊢
  split at h
  · trivial
  · refine ⟨hensured h.1, fun after hafter hun => ?_⟩
    obtain ⟨before, hbefore, hid, hun'⟩ := hcreations after hafter hun
    exact hid ▸ h.2 before hbefore hun'
  all_goals
    refine ⟨hensured h.1, fun after hafter hun => ?_, hentries h.2.2⟩
    obtain ⟨before, hbefore, _, hun'⟩ := hcreations after hafter hun
    exact h.2.1 before hbefore hun'

theorem Closing.map (h : Closing creations entries task ensured)
    (hcarries : ∀ creation ∈ creations, Carries creation (g creation))
    (hun : ∀ creation ∈ creations, (g creation).Unfinished → creation.Unfinished) :
    Closing (creations.map g) entries task ensured := by
  refine h.imp (fun _ hmap hunfinished => ?_) id id
  obtain ⟨creation, hmem, rfl⟩ := mem_map.1 hmap
  exact ⟨creation, hmem, (hcarries creation hmem).id.symm, hun creation hmem hunfinished⟩

end

/-! ## The phase of one creation -/

section

variable {creations : List (Creation TSession)}
  {entries : OrderedMap String (MutableRuntimeEntry TSession)}
  {pending generations : OrderedMap String Nat} {produced : List (Nat × String)}
  {disposals : List (Disposal TSession)} {closing : Bool} {task : Option ShutdownTask}
  {ensured : List Ensured} {creation : Creation TSession} {phase : CreationPhase}

theorem Linked.phased (h : Linked creations pending) (hmem : creation ∈ creations)
    (hun : ({ creation with phase } : Creation TSession).Unfinished ↔ creation.Unfinished) :
    Linked (creations.map (withPhase creation.id phase)) pending :=
  h.map (fun other _ => (carries_withPhase _ _ other).id)
    (fun other _ => (carries_withPhase _ _ other).sessionId)
    (h.forall_withPhase hmem (P := fun before after => after.Unfinished ↔ before.Unfinished)
      (fun _ _ _ => Iff.rfl) hun)

section

variable (hlinked : Linked creations pending)
include hlinked

theorem Linked.absent_phased (h : Placed creations entries produced disposals)
    (hmem : creation ∈ creations)
    (hunplaced : ({ creation with phase } : Creation TSession).Unplaced → creation.Unplaced) :
    ∀ other ∈ creations.map (withPhase creation.id phase),
      other.Unplaced → entries.get other.sessionId = none := by
  intro _ hmap hun
  obtain ⟨other, hother, rfl⟩ := mem_map.1 hmap
  rw [(carries_withPhase creation.id phase other).sessionId]
  apply h.absent other hother
  exact hlinked.forall_withPhase hmem (P := fun before after => after.Unplaced → before.Unplaced)
    (fun _ _ _ h => h) hunplaced other hother hun

theorem Dated.phased (h : Dated creations entries generations closing)
    (hmem : creation ∈ creations) (hlost : ({ creation with phase } : Creation TSession).Lost →
      closing ∨ Older generations creation)
    (hkept : ∀ runtime, phase = .settled (.fulfilled runtime) →
      (entries.get creation.sessionId).map (·.runtime) = some runtime ∨ closing ∨
        Older generations creation) :
    Dated (creations.map (withPhase creation.id phase)) entries generations closing :=
  h.map (fun other _ => carries_withPhase _ _ other) (fun other hother hreason =>
      h.removed other hother (by simpa [withPhase_disposalReason] using hreason))
    (hlinked.forall_withPhase hmem
      (P := fun before after => after.Lost → closing ∨ Older generations before)
      (fun other hother _ => h.lost other hother) hlost)
    (hlinked.forall_withPhase hmem
      (P := fun before after => ∀ runtime, after.phase = .settled (.fulfilled runtime) →
        (entries.get before.sessionId).map (·.runtime) = some runtime ∨ closing ∨
          Older generations before)
      (fun other hother _ => h.kept other hother) hkept)

theorem Owned.phased (h : Owned creations disposals) (hmem : creation ∈ creations)
    (hknows : ∀ disposal ∈ disposals, creation.Knows disposal →
      ({ creation with phase } : Creation TSession).Knows disposal) :
    Owned (creations.map (withPhase creation.id phase)) disposals :=
  h.map (fun other _ => carries_withPhase _ _ other) (hlinked.forall_withPhase hmem
      (P := fun before after => ∀ disposal ∈ disposals, before.Knows disposal →
        after.Knows disposal)
      (fun _ _ _ _ _ h => h) hknows)

theorem Closing.phased (h : Closing creations entries task ensured) (hmem : creation ∈ creations)
    (hun : ({ creation with phase } : Creation TSession).Unfinished → creation.Unfinished) :
    Closing (creations.map (withPhase creation.id phase)) entries task ensured :=
  h.map (fun other _ => carries_withPhase _ _ other)
    (hlinked.forall_withPhase hmem (P := fun before after => after.Unfinished → before.Unfinished)
      (fun _ _ _ h => h) hun)

end

end

/-! ## The events of a creation -/

namespace Books

variable {registry : ApplicationRuntimeRegistry TSession} {creation : Creation TSession}

section

variable (h : Books registry) (hmem : creation ∈ registry.creations)
include h hmem

/-- A phase that changes neither what is pending nor where a runtime is. -/
theorem setPhase {phase : CreationPhase}
    (hun : ({ creation with phase } : Creation TSession).Unfinished ↔ creation.Unfinished)
    (hunplaced : ({ creation with phase } : Creation TSession).Unplaced → creation.Unplaced)
    (hwaiting : ({ creation with phase } : Creation TSession).waiting = creation.waiting)
    (hlost : ({ creation with phase } : Creation TSession).Lost → creation.Lost)
    (hkept : ∀ runtime, phase ≠ .settled (.fulfilled runtime))
    (hknows : ∀ disposal ∈ registry.disposals, creation.Knows disposal →
      ({ creation with phase } : Creation TSession).Knows disposal) :
    Books (registry.setPhase creation.id phase) := by
  have hplaced : Placed (registry.creations.map (withPhase creation.id phase)) registry.entries
      registry.produced registry.disposals := by
    apply h.placed.map fun other _ => carries_withPhase _ _ other
    · exact h.linked.forall_withPhase hmem
        (P := fun before after => after.Unplaced → before.Unplaced) (fun _ _ _ h => h) hunplaced
    · exact h.linked.forall_withPhase hmem
        (P := fun before after => after.waiting = before.waiting) (fun _ _ _ => rfl) hwaiting
  exact ⟨h.linked.phased hmem hun, hplaced,
    h.dated.phased h.linked hmem (fun hnow => h.dated.lost creation hmem (hlost hnow))
      (fun runtime hphase => absurd hphase (hkept runtime)),
    h.owned.phased h.linked hmem hknows, h.closing.phased h.linked hmem hun.1⟩

/-- What the change of one phase does to the places of the runtimes. -/
theorem moved (phase : CreationPhase) (residents calls produced : List (Nat × String))
    (hmoved : ∀ runtime,
      (({ creation with phase } : Creation TSession).waiting.toList ++ residents ++ calls ++
        registry.produced).count runtime =
      (creation.waiting.toList ++ residentsOf registry.entries ++
        registry.disposals.map call ++ produced).count runtime) :
    ((registry.creations.map (withPhase creation.id phase)).filterMap Creation.waiting ++
      residents ++ calls).Perm produced := by
  have hsplit : ∀ (c : Creation TSession) (cs : List (Creation TSession)),
      (c :: cs).filterMap waiting = c.waiting.toList ++ cs.filterMap waiting := by
    intro c cs
    cases hc : c.waiting with
    | none => simp [hc]
    | some runtime => simp [hc]
  have hbefore := (perm_filter_key h.linked.ids hmem).filterMap waiting
  have hbehind := (modifyKey_perm h.linked.ids hmem
    fun c : Creation TSession => { c with phase }).filterMap waiting
  change ((registry.creations.map (withPhase creation.id phase)).filterMap _).Perm _ at hbehind
  have hplaces := h.placed.places
  rw [hsplit] at hbefore hbehind
  rw [perm_iff_count] at hbefore hbehind hplaces ⊢
  intro runtime
  have hb := hbefore runtime
  have ha := hbehind runtime
  have hp := hplaces runtime
  have hm := hmoved runtime
  simp only [count_append] at ha hb hp hm ⊢
  omega

theorem invokeFactory (hphase : creation.phase = .scheduled) :
    Books (registry.setPhase creation.id .creating) := by
  apply h.setPhase hmem
  · simp [Unfinished, hphase]
  · simp [Unplaced, hphase]
  · simp [waiting, hphase]
  · simp [Lost]
  · simp
  · simp [Knows, hphase]

theorem factoryRejects (hphase : creation.phase = .creating) :
    Books (registry.setPhase creation.id (.settled .factoryFailed)) := by
  apply h.setPhase hmem
  · simp [Unfinished, hphase]
  · simp [Unplaced]
  · simp [waiting, hphase]
  · simp [Lost]
  · simp
  · simp [Knows, hphase]

/-- Behind the disposal of a superseded runtime. -/
theorem disposalAnswered {runtime : Nat} (hphase : creation.phase = .disposing runtime)
    {outcome : CreationOutcome} (houtcome : outcome = .disposalFailed ∨ outcome = .superseded ∧
      ∀ disposal ∈ registry.disposals, disposal.runtime = runtime →
        disposal.fulfilled = some true) :
    Books (registry.setPhase creation.id (.settled outcome)) := by
  apply h.setPhase hmem
  · simp [Unfinished, hphase]
  · simp [Unplaced]
  · simp [waiting, hphase]
  · simp [Lost, hphase]
  · rintro runtime hkept
    rcases houtcome with rfl | ⟨rfl, _⟩
    · simp at hkept
    · simp at hkept
  · intro disposal hdisposal hknows
    have hruntime : runtime = disposal.runtime := by simpa [Knows, hphase] using hknows
    rcases houtcome with rfl | ⟨rfl, hdone⟩
    · simp [Knows]
    · simpa [Knows] using hdone disposal hdisposal hruntime.symm

theorem factoryResolves (hphase : creation.phase = .creating) :
    Books { registry.setPhase creation.id (.produced registry.produced.length) with
      produced := registry.produced ++ [(registry.produced.length, creation.sessionId)] } := by
  have hun : ({ creation with phase := .produced registry.produced.length } :
      Creation TSession).Unfinished ↔ creation.Unfinished := by
    simp [Unfinished, hphase]
  refine ⟨h.linked.phased hmem hun, ⟨h.placed.keys, ?_, ?_, ?_, ?_⟩,
    h.dated.phased h.linked hmem ?_ ?_, h.owned.phased h.linked hmem ?_,
    h.closing.phased h.linked hmem hun.1⟩
  · exact h.linked.absent_phased h.placed hmem fun _ => by simp [Unplaced, hphase]
  · intro runtime hruntime
    rw [length_append]
    rcases mem_append.1 hruntime with hruntime | hruntime
    · exact Nat.lt_add_right _ (h.placed.below runtime hruntime)
    · rw [mem_singleton.1 hruntime]
      simp
  · rw [map_append, map_singleton, nodup_append]
    refine ⟨h.placed.distinct, by simp, ?_⟩
    intro runtime hruntime other hother
    obtain ⟨pair, hpair, rfl⟩ := mem_map.1 hruntime
    rw [mem_singleton.1 hother]
    exact (h.placed.below pair hpair).ne
  · refine h.moved hmem _ (residentsOf registry.entries) (registry.disposals.map call) _
      fun runtime => ?_
    simp only [waiting, hphase, toList_some, toList_none, count_append, nil_append]
    omega
  · simp [Lost]
  · simp
  · simp [Knows, hphase]

end

/-- A creation is kept just when the registry is open, no removal has marked it, and its
generation is current. -/
theorem supersession_eq_none : registry.supersession creation = none ↔
    registry.shuttingDown = false ∧ creation.disposalReason = none ∧
      Current registry.generations creation := by
  unfold supersession Current
  cases registry.shuttingDown with
  | true => simp
  | false => cases creation.disposalReason <;> simp

section

variable (h : Books registry) (hmem : creation ∈ registry.creations)
include h hmem

theorem superseded (hsome : registry.supersession creation ≠ none) :
    registry.shuttingDown ∨ Older registry.generations creation := by
  by_contra hnot
  rw [not_or] at hnot
  apply hsome
  rw [supersession_eq_none]
  refine ⟨by simpa using hnot.1, ?_, (h.dated.dated creation hmem).resolve_right hnot.2⟩
  rw [← not_isSome_iff_eq_none]
  exact fun hreason => hnot.2 (h.dated.removed creation hmem hreason)

/-- The continuation makes a runtime resident. -/
theorem kept {runtime : Nat} (hphase : creation.phase = .produced runtime)
    (hnone : registry.supersession creation = none) :
    Books { registry.setPhase creation.id (.settled (.fulfilled runtime)) with
      entries := registry.entries.set creation.sessionId
        { session := creation.session, runtime } } := by
  have hun : creation.Unfinished := by simp [Creation.Unfinished, hphase]
  have hunplaced : creation.Unplaced := by simp [Creation.Unplaced, hphase]
  have hiff : ({ creation with phase := .settled (.fulfilled runtime) } :
      Creation TSession).Unfinished ↔ creation.Unfinished := by
    simp [Creation.Unfinished, hphase]
  have habsent := h.placed.absent creation hmem hunplaced
  have hset := set_of_get_eq_none habsent
    ({ session := creation.session, runtime } : MutableRuntimeEntry TSession)
  have hothers : ∀ other ∈ registry.creations, other.id ≠ creation.id → other.Unfinished →
      other.sessionId ≠ creation.sessionId := fun other hother hid hun' hsession =>
    hid (congrArg Creation.id (h.linked.one hother hmem hun' hun hsession))
  refine ⟨h.linked.phased hmem hiff, ⟨?_, ?_, h.placed.below, h.placed.distinct, ?_⟩, ?_,
    h.owned.phased h.linked hmem ?_, ?_⟩
  · exact (keys_set _ _ _ h.placed.keys).1
  · intro _ hmap hnow
    obtain ⟨other, hother, rfl⟩ := mem_map.1 hmap
    by_cases hid : other.id = creation.id
    · simp [hid, Creation.Unplaced] at hnow
    · have hsame : withPhase creation.id (.settled (.fulfilled runtime)) other = other := if_neg hid
      change Creation.Unplaced (withPhase _ _ other) at hnow
      change OrderedMap.get _ (withPhase _ _ other).sessionId = none
      rw [hsame] at hnow ⊢
      change OrderedMap.get (registry.entries.set creation.sessionId _) other.sessionId = none
      rw [get_set_of_ne _ _ (hothers other hother hid hnow.unfinished)]
      exact h.placed.absent other hother hnow
  · refine h.moved hmem _ (residentsOf (registry.entries.set creation.sessionId
      { session := creation.session, runtime })) (registry.disposals.map call)
      registry.produced fun other => ?_
    rw [hset]
    simp only [residentsOf, map_append, map_singleton, Creation.waiting, hphase,
      toList_some, toList_none, count_append, nil_append]
    omega
  · have hentries : Dated registry.creations
        (registry.entries.set creation.sessionId { session := creation.session, runtime })
        registry.generations registry.shuttingDown := by
      refine ⟨h.dated.dated, h.dated.removed, h.dated.lost, ?_⟩
      intro other hother old hold
      have hid : other.id ≠ creation.id := fun hid => by
        rw [h.linked.eq hother hmem hid, hphase] at hold
        cases hold
      have hun' : other.Unfinished := by simp [Creation.Unfinished, hold]
      rw [get_set_of_ne _ _ (hothers other hother hid hun')]
      exact h.dated.kept other hother old hold
    apply hentries.phased h.linked hmem
    · simp [Creation.Lost]
    · rintro _ ⟨⟩
      left
      rw [get_set_self]
      rfl
  · simp [Creation.Knows, hphase]
  · have htask : registry.shutdownTask = none := by
      simpa [shuttingDown] using (supersession_eq_none.1 hnone).1
    change Closing _ _ registry.shutdownTask _
    rw [htask]
    trivial

/-- The continuation hands a superseded runtime to the disposer. -/
theorem handedOver {runtime : Nat} (hphase : creation.phase = .produced runtime)
    {reason : RuntimeDisposalReason} (hsome : registry.supersession creation = some reason) :
    Books { registry.setPhase creation.id (.disposing runtime) with
      disposals := registry.disposals ++
        [{ runtime, sessionId := creation.sessionId, session := creation.session, reason,
           owner := .creation creation.id }] } := by
  have hiff : ({ creation with phase := .disposing runtime } :
      Creation TSession).Unfinished ↔ creation.Unfinished := by
    simp [Unfinished, hphase]
  refine ⟨h.linked.phased hmem hiff, ⟨h.placed.keys, ?_, h.placed.below, h.placed.distinct, ?_⟩,
    h.dated.phased h.linked hmem ?_ ?_, ?_, h.closing.phased h.linked hmem hiff.1⟩
  · exact h.linked.absent_phased h.placed hmem fun _ => by simp [Unplaced, hphase]
  · refine h.moved hmem _ (residentsOf registry.entries) ((registry.disposals ++ [_]).map
      call) registry.produced fun other => ?_
    simp only [map_append, map_singleton, call, waiting, hphase,
      toList_some, toList_none, count_append, nil_append]
    omega
  · intro _
    exact h.superseded hmem (by simp [hsome])
  · simp
  · intro disposal hdisposal id howner
    rcases mem_append.1 hdisposal with hold | hnew
    · have hphased : Owned (registry.creations.map (withPhase creation.id (.disposing runtime)))
          registry.disposals :=
        h.owned.phased h.linked hmem (by simp [Knows, hphase])
      exact hphased disposal hold id howner
    · obtain rfl := mem_singleton.1 hnew
      cases howner
      refine ⟨_, mem_map_of_mem hmem, (carries_withPhase _ _ _).id, ?_⟩
      simp [Knows]

/-- The `finally` of a creation takes it out of `pending`. -/
theorem finishes {outcome : CreationOutcome} (hphase : creation.phase = .settled outcome) :
    Books { registry.setPhase creation.id (.finished outcome) with
      pending := registry.pending.delete creation.sessionId } := by
  have hun : creation.Unfinished := by simp [Creation.Unfinished, hphase]
  have hfinished : ¬({ creation with phase := .finished outcome } : Creation TSession).Unfinished :=
    fun hnot => hnot outcome rfl
  have hcarries := fun other (_ : other ∈ registry.creations) =>
    carries_withPhase creation.id (.finished outcome) other
  refine ⟨h.linked.ended hmem hun rfl hfinished, h.placed.map hcarries ?_ ?_,
    h.dated.phased h.linked hmem ?_ ?_, h.owned.phased h.linked hmem ?_,
    h.closing.phased h.linked hmem fun _ => hun⟩
  · exact h.linked.forall_withPhase hmem
      (P := fun before after => after.Unplaced → before.Unplaced) (fun _ _ _ h => h)
      (by simp [Creation.Unplaced])
  · exact h.linked.forall_withPhase hmem
      (P := fun before after => after.waiting = before.waiting) (fun _ _ _ => rfl)
      (by simp [waiting, hphase])
  · simp [Creation.Lost]
  · simp
  · intro disposal _ hknows
    revert hknows
    cases outcome <;> simp [Creation.Knows, hphase]

end

/-- The disposer is called once for a runtime. -/
theorem runtimes_nodup (h : Books registry) :
    (registry.disposals.map runtime).Nodup := by
  have hall := (h.placed.places.map Prod.fst).nodup_iff.2 h.placed.distinct
  rw [map_append, nodup_append, List.map_map] at hall
  exact hall.2.1

theorem stepCreation (h : Books registry) (hmem : creation ∈ registry.creations)
    (event : RegistryEvent TSession) : Books (registry.stepCreation creation event) := by
  unfold ApplicationRuntimeRegistry.stepCreation
  split
  · split
    · exact h.invokeFactory hmem ‹_›
    · exact h
  · split
    · exact h.factoryResolves hmem ‹_›
    · exact h
  · split
    · exact h.factoryRejects hmem ‹_›
    · exact h
  · split
    · rename_i runtime hphase
      unfold ApplicationRuntimeRegistry.continueCreation
      cases hsome : registry.supersession creation with
      | none => exact h.kept hmem hphase hsome
      | some reason => exact h.handedOver hmem hphase hsome
    · rename_i runtime hphase
      split
      · rename_i hdone
        refine h.disposalAnswered hmem hphase (.inr ⟨rfl, ?_⟩)
        obtain ⟨found, hfound, hfulfilled⟩ := bind_eq_some_iff.1 hdone
        intro disposal hdisposal hruntime
        have hthis := find_of_mem h.runtimes_nodup hdisposal
        rw [hruntime, hfound] at hthis
        rw [← Option.some.inj hthis]
        exact hfulfilled
      · exact h.disposalAnswered hmem hphase (.inl rfl)
      · exact h
    · exact h
  · split
    · rename_i outcome hphase
      have hun : creation.Unfinished := by simp [Creation.Unfinished, hphase]
      rw [if_pos (h.linked.complete creation hmem hun)]
      exact h.finishes hmem hphase
    · exact h
  · exact h

end Books

end bbcom.runtime_registry
