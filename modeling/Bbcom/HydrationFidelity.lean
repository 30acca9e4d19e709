-- How exact the staging is: for a server that answers from one stored workspace, and for any
-- server.
import Bbcom.HydrationRuns

open bbcom.js bbcom.ordered_map bbcom.page_loop bbcom.session_adapter bbcom.runs
open bbcom.capture (validNonNegativeInteger validateWorkspaceIdentifier)

namespace bbcom.hydration_staging

open List Option SessionsResponse

variable {D F P K C : Type} {stage : Stage} {adapter : SessionAdapter D F P K C}
  {s : State D F P K C}

/-! ## What a session holds once -/

def sampleKey (sample : WaveformSample) : Nat × Nat := (sample.channelIndex, sample.seq)

/-- A session that the adapter has made of its rows. -/
structure Hydrates (adapter : SessionAdapter D F P K C) (snapshot : WorkspaceSessionSnapshot D)
    (parts : WorkspaceSessionHydrationParts P C) (hydrated : HydratedWorkspaceSession F K C) :
    Prop where
  hydrates : hydrateWorkspaceSession adapter snapshot parts = .ok hydrated
  id : validateWorkspaceIdentifier snapshot.id = some hydrated.session.id
  sequences : hydrated.session.frames.map (·.captureSeq) =
    parts.frames.map fun frame => some (storedSeq frame)
  messages_once : (hydrated.session.logAiMessages.map (·.id)).Nodup
  samples_once : (hydrated.samples.map sampleKey).Nodup

theorem cloneSamples_once {known : List Nat} {seen : List (Nat × Nat)}
    {rows : List WorkspaceWaveformSample} {samples : List WaveformSample}
    (h : cloneSamples known seen rows = .ok samples) :
    (samples.map sampleKey).Nodup ∧ ∀ sample ∈ samples, sampleKey sample ∉ seen := by
  induction rows generalizing seen samples with
  | nil =>
    cases h
    simp
  | cons row rest ih =>
    simp only [cloneSamples, bind_eq_ok, validUnless_ok] at h
    obtain ⟨-, -, channelIndex, -, -, -, seq, -, -, hnew, -, -, timestampMs, -, others, hothers,
      hpure⟩ := h
    cases hpure
    obtain ⟨honce, hunseen⟩ := ih hothers
    simp only [map_cons, nodup_cons]
    refine ⟨⟨?_, honce⟩, ?_⟩
    · intro hmem
      obtain ⟨sample, hsample, hkey⟩ := mem_map.1 hmem
      exact hunseen sample hsample (hkey ▸ mem_cons_self)
    · intro sample hsample
      rcases mem_cons.1 hsample with rfl | hrest
      · exact hnew
      · exact fun hold => hunseen sample hrest (mem_cons_of_mem _ hold)

variable {frames : List WorkspaceHydratedFrame}

theorem hydrateFrames_sequences {previous : Int} {hydrated : List serial.DataFrame}
    (h : hydrateFrames previous frames = .ok hydrated) :
    hydrated.map (·.captureSeq) = frames.map fun frame => some (storedSeq frame) := by
  induction frames generalizing previous hydrated with
  | nil =>
    cases h
    rfl
  | cons first rest ih =>
    simp only [hydrateFrames, bind_eq_ok] at h
    obtain ⟨seq, -, -, -, frame, hframe, others, hothers, hpure⟩ := h
    cases hpure
    simp only [hydrateWorkspaceFrame, bind_eq_ok, nonNegativeInteger_ok] at hframe
    obtain ⟨-, -, number, hnumber, _, -, _, -, _, -, _, -, -, -, _, -, _, -, _, -, -, -, -, -,
      hpure⟩ := hframe
    cases hpure
    rw [map_cons, map_cons, ih hothers, storedSeq_valid hnumber]

variable {parts : WorkspaceSessionHydrationParts P C}

theorem hydrates_of_ok {snapshot : WorkspaceSessionSnapshot D}
    {hydrated : HydratedWorkspaceSession F K C}
    (h : hydrateWorkspaceSession adapter snapshot parts = .ok hydrated) :
    Hydrates adapter snapshot parts hydrated := by
  have hok := h
  simp only [hydrateWorkspaceSession, cloneWaveformPayload, hydrateAiMessages, projectAiMessages,
    assertUniqueIds, workspaceIdentifier, bind_eq_ok, orInvalid_ok, validUnless_ok, not_not] at hok
  obtain ⟨-, -, id, hid, ⟨fields, preferences⟩, -, collections, -, messages,
    ⟨-, -, -, -, projected, -, -, hmessages, -, -, hprojected⟩, frames, hframes, -, -, -, -,
    ⟨channels, samples⟩, ⟨_, -, -, -, _, hsamples, hclone⟩, hpure⟩ := hok
  cases hprojected
  cases hclone
  cases hpure
  exact ⟨h, hid, hydrateFrames_sequences hframes, hmessages, (cloneSamples_once hsamples).1⟩

/-! ## What any server gets staged -/

/-- A session of a fulfilled staging: its rows were read, page by page, and the adapter has made
it of them. -/
def SessionStaged (stage : Stage) (adapter : SessionAdapter D F P K C) (item : Item D F P K C)
    (hydrated : HydratedWorkspaceSession F K C) : Prop :=
  ∃ task parts, item.phase = .staged task hydrated ∧
    SessionRead stage adapter item.snapshot.id task parts ∧
    Hydrates adapter item.snapshot parts hydrated

/-- The sequence number that a session gives out next is behind those of its frames, if the
adapter leaves its id as it is. -/
def SequencesBehind (marks : OrderedMap String (WithTop Nat)) (item : Item D F P K C)
    (hydrated : HydratedWorkspaceSession F K C) : Prop :=
  hydrated.session.id = item.snapshot.id → ∀ frame ∈ hydrated.session.frames,
    ∃ seq, frame.captureSeq = some seq ∧
      WithTop.some seq < (accountingEntry marks hydrated).nextSequence

structure Staged (stage : Stage) (adapter : SessionAdapter D F P K C) (s : State D F P K C)
    (staging : WorkspaceHydrationStaging F K C) : Prop where
  about : staging.workspaceId = stage.workspaceId ∧ staging.revision = stage.revision
  list : ListPages stage none envelope (fun page => page.sessions.getD [])
    nextOffset s.sessions.pages (s.items.map (·.snapshot))
  sessions : Forall₂ (SessionStaged stage adapter) s.items staging.sessions
  once : (staging.sessions.map (·.session.id)).Nodup
  behind : Forall₂ (SequencesBehind s.nextSequences) s.items staging.sessions

variable {hydrated : List (HydratedWorkspaceSession F K C)}
  {staging : WorkspaceHydrationStaging F K C}

variable {items : List (Item D F P K C)}

theorem forall₂_hydrated {Q : Item D F P K C → HydratedWorkspaceSession F K C → Prop}
    (hmap : items.mapM Item.hydrated = some hydrated)
    (hitems : ∀ item ∈ items, ∀ task entry, item.phase = .staged task entry → Q item entry) :
    Forall₂ Q items hydrated := by
  induction items generalizing hydrated with
  | nil =>
    cases hmap
    exact .nil
  | cons item items ih =>
    simp only [mapM_cons, bind_eq_bind, bind_eq_some_iff, Option.pure_def, some.injEq] at hmap
    obtain ⟨entry, hentry, others, hothers, rfl⟩ := hmap
    refine .cons ?_ (ih hothers fun item hitem => hitems item (mem_cons_of_mem _ hitem))
    unfold Item.hydrated at hentry
    split at hentry
    · rename_i task found hphase
      cases hentry
      exact hitems item mem_cons_self task entry hphase
    · cases hentry

theorem sessionIdsOf_staged {ids : List String}
    (h : Forall₂ (SessionStaged stage adapter) items hydrated) (hids : (items.map (·.snapshot)).mapM
      (fun snapshot => workspaceIdentifier snapshot.id "snapshot.id") = .ok ids) :
    ids = hydrated.map (·.session.id) := by
  induction h generalizing ids with
  | nil =>
    cases hids
    rfl
  | @cons item entry items entries hstaged _ ih =>
    simp only [map_cons, mapM_cons, bind_eq_ok, workspaceIdentifier, orInvalid_ok] at hids
    obtain ⟨id, hid, others, hothers, hpure⟩ := hids
    cases hpure
    obtain ⟨task, parts, -, -, hhydrates⟩ := hstaged
    have hsame : id = entry.session.id := Option.some.inj (hid.symm.trans hhydrates.id)
    rw [ih hothers, hsame, map_cons]

theorem Ascends.valid {fromSeq : Nat} {previous last : Int}
    (h : Ascends fromSeq previous frames last) :
    ∀ frame ∈ frames, validNonNegativeInteger frame.seq = some (storedSeq frame) := by
  induction h with
  | nil => simp
  | cons valid from_place behind ascends ih =>
    intro frame hframe
    rcases mem_cons.1 hframe with rfl | hrest
    · rw [valid, storedSeq_valid valid]
    · exact ih frame hrest

theorem sequencesBehind_of_marked {marks : OrderedMap String (WithTop Nat)} {item : Item D F P K C}
    {hydrated : HydratedWorkspaceSession F K C} {task : SessionTask P C}
    (hread : SessionRead stage adapter item.snapshot.id task parts)
    (hhydrates : Hydrates adapter item.snapshot parts hydrated)
    (hmarked : Marked marks item.snapshot.id (framesTaken task.frames)) :
    SequencesBehind marks item hydrated := by
  intro hid frame hframe
  have hseq : frame.captureSeq ∈ parts.frames.map fun frame => some (storedSeq frame) :=
    hhydrates.sequences ▸ mem_map_of_mem hframe
  obtain ⟨row, hrow, hsame⟩ := mem_map.1 hseq
  obtain ⟨last, hascends⟩ := hread.frames.ascends
  have htaken : row ∈ framesTaken task.frames := by
    rw [framesTaken, ← hread.frames.collected]
    exact hrow
  obtain ⟨next, hnext, hlt⟩ := hmarked row htaken _ (hascends.valid row hrow)
  refine ⟨storedSeq row, hsame.symm, ?_⟩
  simp only [accountingEntry, hid, hnext, getD_some]
  exact hlt

theorem conclude_ok {snapshots : List (WorkspaceSessionSnapshot D)}
    (h : conclude stage snapshots hydrated = .ok staging) :
    ∃ ids, snapshots.mapM (fun snapshot => workspaceIdentifier snapshot.id "snapshot.id") =
        .ok ids ∧ ids.Nodup ∧
      (staging.workspaceId = stage.workspaceId ∧ staging.revision = stage.revision) ∧
      staging.sessions = hydrated := by
  simp only [conclude, sessionIdsOf, assertUniqueIds, bind_eq_ok, validUnless_ok, not_not] at h
  obtain ⟨ids, ⟨_, hids, -, honce, hsame⟩, -, -, -, -, hrest⟩ := h
  cases hsame
  refine ⟨ids, hids, honce, ?_⟩
  split at hrest
  all_goals
    simp only [bind_eq_ok] at hrest
    obtain ⟨active, -, -, -, hpure⟩ := hrest
    cases hpure
    exact ⟨⟨rfl, rfl⟩, rfl⟩

theorem Coherent.staged (h : Coherent stage adapter s) (hdone : s.outcome = some (.ok staging)) :
    Staged stage adapter s staging := by
  obtain ⟨hlisted, hydrated, hmap, hconclude⟩ := h.concluded staging hdone
  have hstaged : Forall₂ (SessionStaged stage adapter) s.items hydrated := by
    apply forall₂_hydrated hmap
    intro item hmem task entry hphase
    obtain ⟨index, hitem⟩ := mem_iff_getElem?.1 hmem
    obtain ⟨hsound, -, parts, hparts, hhydrates⟩ :=
      (h.items index item hitem).staged task entry hphase
    exact ⟨task, parts, hphase, hsound.read hparts, hydrates_of_ok hhydrates⟩
  have hbehind : Forall₂ (SequencesBehind s.nextSequences) s.items hydrated := by
    apply forall₂_hydrated hmap
    intro item hmem task entry hphase
    obtain ⟨index, hitem⟩ := mem_iff_getElem?.1 hmem
    obtain ⟨hsound, hmarked, parts, hparts, hhydrates⟩ :=
      (h.items index item hitem).staged task entry hphase
    exact sequencesBehind_of_marked (hsound.read hparts) (hydrates_of_ok hhydrates) hmarked
  have hlist : ListPages stage none envelope (fun page => page.sessions.getD [])
      nextOffset s.sessions.pages (s.items.map (·.snapshot)) := by
    apply listPages_of_reads id (h.list.reads hlisted) rfl
    intro request place taken page taken' next accepted
    obtain ⟨hecho, rows, hrows, -, hsessions, -, hgoes⟩ := takeSessions_ok.1 accepted
    rw [hrows]
    exact ⟨hecho, hsessions, hgoes⟩
  obtain ⟨ids, hids, honce, habout, rfl⟩ := conclude_ok hconclude
  rw [sessionIdsOf_staged hstaged hids] at honce
  exact ⟨habout, hlist, hstaged, honce, hbehind⟩

/-! ## Runs -/

theorem coherent_run (stage : Stage) (adapter : SessionAdapter D F P K C)
    (events : List (Event D P C)) :
    Coherent stage adapter (run (step stage adapter) (start stage) events) :=
  run_invariant (fun _ e h => h.step e) (coherent_start stage adapter) events

theorem lively_run (stage : Stage) (adapter : SessionAdapter D F P K C)
    (events : List (Event D P C)) :
    Lively (run (step stage adapter) (start stage : State D F P K C) events) := by
  have hboth : ∀ s : State D F P K C, ∀ e, Coherent stage adapter s ∧ Lively s →
      Coherent stage adapter (step stage adapter s e) ∧ Lively (step stage adapter s e) :=
    fun s e h => ⟨h.1.step e, h.2.step h.1.ordered e⟩
  exact (run_invariant hboth ⟨coherent_start stage adapter, lively_start stage⟩ events).2

variable {stored : List (StoredSession D P C)}

theorem exact_run {lost : Prop} (haccepted : ¬lost → Accepted stage adapter stored)
    {events : List (Event D P C)}
    (hconsistent : Along (step stage adapter) (Consistent stage stored)
      (start stage : State D F P K C) events) :
    Exact lost adapter stored (run (step stage adapter) (start stage) events) := by
  have hboth : ∀ s : State D F P K C, ∀ e, Consistent stage stored s e →
      Coherent stage adapter s ∧ Exact lost adapter stored s →
        Coherent stage adapter (step stage adapter s e) ∧
          Exact lost adapter stored (step stage adapter s e) :=
    fun s e hanswers h => ⟨h.1.step e, h.2.step h.1 haccepted hanswers⟩
  exact (run_invariant_along hboth
    ⟨coherent_start stage adapter, exact_start haccepted⟩ hconsistent).2

/-- Until the promise has settled, some event is waited for. -/
theorem enabled_of_open (h : Coherent stage adapter s) (hlively : Lively s)
    (hopen : s.outcome = none) : ∃ e : Event D P C, Enabled s e := by
  rcases never_stuck h hlively hopen with hwaiting | ⟨index, item, task, hitem, hphase, hloops⟩
  · exact ⟨.sessions (.error .port), hwaiting⟩
  · rcases hloops with hwaiting | hwaiting | hwaiting | hwaiting | hparts
    · exact ⟨.collections index (.error .port), item, task, hitem, hphase, hwaiting⟩
    · exact ⟨.frames index (.error .port), item, task, hitem, hphase, hwaiting⟩
    · exact ⟨.aiMessages index (.error .port), item, task, hitem, hphase, hwaiting⟩
    · exact ⟨.waveform index (.error .port), item, task, hitem, hphase, hwaiting⟩
    · exact ⟨.settle index, item, task, hitem, hphase, hparts⟩

/-- The sessions of a staged workspace are behind all that is stored of them. -/
theorem stored_behind (hstaged : Staged stage adapter s staging)
    (hstored : stageStored stage adapter stored = .ok staging)
    (hlist : s.items.map (·.snapshot) = stored.map (·.snapshot)) :
    ∀ (index : Nat) session hydrated, stored[index]? = some session →
      staging.sessions[index]? = some hydrated →
        validateWorkspaceIdentifier session.snapshot.id = some session.snapshot.id →
          ∀ frame ∈ session.frames, WithTop.some (storedSeq frame) <
            (accountingEntry s.nextSequences hydrated).nextSequence := by
  intro index session hydrated hsession hhydrated hid frame hframe
  have hsnapshot : (s.items.map (·.snapshot))[index]? = some session.snapshot := by
    rw [hlist, getElem?_map, hsession, map_some]
  rw [getElem?_map] at hsnapshot
  obtain ⟨item, hitem, hsame⟩ := map_eq_some_iff.1 hsnapshot
  simp only [stageStored, bind_eq_ok] at hstored
  obtain ⟨-, -, results, hmap, hconclude⟩ := hstored
  obtain ⟨-, -, -, -, rfl⟩ := conclude_ok hconclude
  have hsession' := forall₂_get (mapM_forall₂ hmap) hsession hhydrated
  simp only [hydrateStored, bind_eq_ok] at hsession'
  obtain ⟨-, -, hok⟩ := hsession'
  have hhydrates := hydrates_of_ok hok
  have hunchanged : hydrated.session.id = item.snapshot.id := by
    rw [hsame]
    exact Option.some.inj (hhydrates.id.symm.trans hid)
  have hmem : some (storedSeq frame) ∈ hydrated.session.frames.map (·.captureSeq) := by
    rw [hhydrates.sequences]
    exact mem_map_of_mem (f := fun frame => some (storedSeq frame)) hframe
  obtain ⟨data, hdata, hseq⟩ := mem_map.1 hmem
  obtain ⟨seq, hseq', hlt⟩ := forall₂_get hstaged.behind hitem hhydrated hunchanged data hdata
  rw [hseq] at hseq'
  cases hseq'
  exact hlt

/-- Every run of answers that are waited for comes to an end, and until the promise has settled
one is waited for. Where the answers come from one stored workspace, what is staged is what is
stored, and a workspace that the adapter takes is staged. What any answers get staged was read
page by page, each behind the one before it. -/
theorem staging_exact (stage : Stage) (adapter : SessionAdapter D F P K C) :
    (∀ events, Along (step stage adapter) Enabled (start stage : State D F P K C) events →
      events.length ≤ (start stage : State D F P K C).weight) ∧
    (∀ events, (run (step stage adapter) (start stage) events).outcome = none →
      ∃ e, Enabled (run (step stage adapter) (start stage) events) e) ∧
    (∀ (stored : List (StoredSession D P C)) events,
      Along (step stage adapter) (Consistent stage stored) (start stage) events →
        (∀ staging, (run (step stage adapter) (start stage) events).outcome = some (.ok staging) →
          stageStored stage adapter stored = .ok staging ∧
          ∀ (index : Nat) session hydrated, stored[index]? = some session →
            staging.sessions[index]? = some hydrated →
              validateWorkspaceIdentifier session.snapshot.id = some session.snapshot.id →
                ∀ frame ∈ session.frames, WithTop.some (storedSeq frame) <
                  (accountingEntry (run (step stage adapter) (start stage) events).nextSequences
                    hydrated).nextSequence) ∧
        (Accepted stage adapter stored →
          ∀ error, (run (step stage adapter) (start stage) events).outcome ≠
            some (.error error))) ∧
    ∀ events staging, (run (step stage adapter) (start stage) events).outcome = some (.ok staging) →
      Staged stage adapter (run (step stage adapter) (start stage) events) staging := by
  refine ⟨fun events hwaited => ?_, fun events hopen => ?_, fun stored events hconsistent => ?_,
    fun events staging hdone => ?_⟩
  · exact hwaited.length_le (fun s e h => h.step e) (fun s e h he => step_weight_lt h he)
      (coherent_start stage adapter)
  · exact enabled_of_open (coherent_run stage adapter events) (lively_run stage adapter events)
      hopen
  · have hcoherent := coherent_run stage adapter events
    constructor
    · intro staging hdone
      have hexact : Exact True adapter stored _ :=
        exact_run (fun hnot => absurd trivial hnot) hconsistent
      have hstored := hexact.fulfilled hcoherent hdone
      refine ⟨hstored, stored_behind (hcoherent.staged hdone) hstored ?_⟩
      exact hexact.list.of_result (hcoherent.concluded staging hdone).listed
    · intro haccepted
      have hexact : Exact False adapter stored _ := exact_run (fun _ => haccepted) hconsistent
      exact hexact.kept not_false
  · exact (coherent_run stage adapter events).staged hdone

/-! ## Rows that a server leaves out -/

def plainStage : Stage where
  workspaceId := "workspace"
  revision := 3
  activeSessionId := none
  requestId call := ["r0", "r1", "r2", "r3", "r4"].getD call "r5"
  sessionPageSize := 64
  framePageSize := 1
  aiPageSize := 256
  waveformPageSize := 4096
  concurrency := 3
  workers := by decide

def plainAdapter : SessionAdapter Unit Unit Unit Unit Unit where
  hydrateSnapshot _ :=
    .ok ((), { sourceMode := .text, frameCursor := none, channelVisibility := [] })
  hydrateCollections _ := .ok ()
  assertSafeWorkspaceValue _ _ := .ok ()
  withVisible _ _ := ()
  stringify _ := ""

def plainFrame (seq : Nat) (id : String) : WorkspaceHydratedFrame :=
  { seq := natNumber seq, id, direction := "RX", timestampMs := .finite 0 }

def plainSession (id : String) (frames : List WorkspaceHydratedFrame)
    (ordered : (frames.map storedSeq).Pairwise (· < ·)) : StoredSession Unit Unit Unit where
  snapshot := { id, fields := () }
  frames
  collections := ()
  aiMessages := []
  channels := []
  samples := []
  ordered
  channels_once := .nil
  samples_fit := Nat.zero_le _

def plainEnvelope (requestId : String) (sessionId : Option String) : Envelope where
  requestId
  workspaceId := "workspace"
  sessionId
  revision := .finite 3

/-- The answers for one session with two pages of frames, the second of them without a frame. -/
def plainAnswers (id : String) (frame : WorkspaceHydratedFrame) (nextSeq : Nat) :
    List (Event Unit Unit Unit) :=
  [.sessions (.ok ⟨plainEnvelope "r0" none, some [{ id, fields := () }], none⟩),
    .collections 0 (.ok ⟨plainEnvelope "r1" (some id), ()⟩),
    .frames 0 (.ok ⟨plainEnvelope "r2" (some id), some [frame], some (natNumber nextSeq)⟩),
    .aiMessages 0 (.ok ⟨plainEnvelope "r3" (some id), some [], none⟩),
    .waveform 0 (.ok ⟨plainEnvelope "r4" (some id), some [], some [], none⟩),
    .frames 0 (.ok ⟨plainEnvelope "r5" (some id), some [], none⟩),
    .settle 0]

/-- A server that has two frames and leaves the second out: what it gets staged is not what it
has, and nothing is rejected. A session whose id is stored with a blank in front of it is to give
out again the sequence number of its frame. -/
theorem staging_not_exact :
    (run (step plainStage plainAdapter) (start plainStage)
        (plainAnswers "s" (plainFrame 0 "a") 2)).outcome =
      some (stageStored plainStage plainAdapter
        [plainSession "s" [plainFrame 0 "a"] (by decide)]) ∧
    (stageStored plainStage plainAdapter
        [plainSession "s" [plainFrame 0 "a", plainFrame 1 "b"] (by decide)]).isOk = true ∧
    stageStored plainStage plainAdapter [plainSession "s" [plainFrame 0 "a"] (by decide)] ≠
      stageStored plainStage plainAdapter
        [plainSession "s" [plainFrame 0 "a", plainFrame 1 "b"] (by decide)] ∧
    ((run (step plainStage plainAdapter) (start plainStage)
        (plainAnswers " s" (plainFrame 7 "a") 8)).outcome.map fun outcome =>
      outcome.map fun staging => (accountingEntries staging
        (run (step plainStage plainAdapter) (start plainStage)
          (plainAnswers " s" (plainFrame 7 "a") 8)).nextSequences).map (·.nextSequence)) =
      some (.ok [0]) := by
  decide +kernel

end bbcom.hydration_staging
