-- What is staged, whatever the server answers: each list comes from pages that follow each
-- other, all of them about one workspace at one revision, and the high-water marks are behind
-- each frame.
import Bbcom.HydrationSteps

open bbcom.ordered_map bbcom.page_loop bbcom.session_adapter
open bbcom.capture (validNonNegativeInteger)
open bbcom.contracts (MAX_WORKSPACE_SESSIONS)

namespace bbcom.hydration_staging

open List Option State OrderedMap

variable {D F P K C : Type} {stage : Stage} {adapter : SessionAdapter D F P K C}
  {s : State D F P K C}

/-- A list that is there holds no more sessions than a workspace may. -/
theorem few_sessions {loop : SessionsLoop D} {snapshots : List (WorkspaceSessionSnapshot D)}
    (h : Sound (takeSessions stage) 0 [] loop) (hdone : loop.result = some snapshots) :
    snapshots.length ≤ MAX_WORKSPACE_SESSIONS := by
  apply (h.reads hdone).taken_of (P := fun snapshots => snapshots.length ≤ MAX_WORKSPACE_SESSIONS)
  · exact Nat.zero_le _
  · intro request place taken page taken' next accepted
    obtain ⟨-, _, -, -, -, hfew, -⟩ := takeSessions_ok.1 accepted
    exact hfew

/-! ## The loops of a session -/

/-- Each loop stands where its pages lead to. -/
structure TaskSound (stage : Stage) (adapter : SessionAdapter D F P K C) (sessionId : String)
    (task : SessionTask P C) : Prop where
  collections : Sound (takeCollections stage sessionId) () none task.collections
  frames : Sound (takeFrames stage sessionId) 0 {} task.frames
  aiMessages : Sound (takeAiMessages stage sessionId) 0 [] task.aiMessages
  waveform : Sound (takeWaveform stage adapter.stringify sessionId) 0 {} task.waveform

variable {calls index : Nat} {task : SessionTask P C} {sessionId : String} {e : Event D P C}
  {marks : OrderedMap String (WithTop Nat)} {item item' : Item D F P K C} {s' : State D F P K C}
  {staging : WorkspaceHydrationStaging F K C}

theorem startSession_ok (h : (startSession stage calls).1 = .ok task) :
    ∃ request a b c, task =
      { collections := ⟨.waiting request () none, []⟩
        frames := (ask (nextRequestId stage) a 0 {} []).1
        aiMessages := (ask (nextRequestId stage) b 0 [] []).1
        waveform := (ask (nextRequestId stage) c 0 {} []).1 } := by
  unfold startSession at h
  split at h
  · cases h
  · rename_i request hrequest
    simp only [Except.ok.injEq] at h
    exact ⟨request, _, _, _, h.symm⟩

theorem taskSound_start (h : (startSession stage calls).1 = .ok task) :
    TaskSound stage adapter sessionId task := by
  obtain ⟨request, a, b, c, rfl⟩ := startSession_ok h
  constructor
  · exact Reads.start
  all_goals
    apply sound_ask
    exact Reads.start

theorem TaskSound.moves {task' : SessionTask P C} (h : TaskSound stage adapter sessionId task)
    (hmoves : TaskMoves stage adapter calls index sessionId task e task') :
    TaskSound stage adapter sessionId task' := by
  cases hmoves with
  | @collections response =>
    refine ⟨?_, h.frames, h.aiMessages, h.waveform⟩
    exact h.collections.answer response
  | @frames response waiting =>
    refine ⟨h.collections, ?_, h.aiMessages, h.waveform⟩
    exact h.frames.answer (observedAnswer response)
  | @aiMessages response =>
    refine ⟨h.collections, h.frames, ?_, h.waveform⟩
    exact h.aiMessages.answer response
  | @waveform response =>
    refine ⟨h.collections, h.frames, h.aiMessages, ?_⟩
    exact h.waveform.answer response

/-! ## High-water marks -/

/-- The mark of a session is behind each of its frames. -/
def Marked (marks : OrderedMap String (WithTop Nat)) (sessionId : String)
    (frames : List WorkspaceHydratedFrame) : Prop :=
  ∀ frame ∈ frames, ∀ seq, validNonNegativeInteger frame.seq = some seq →
    ∃ next, marks.get sessionId = some next ∧ WithTop.some seq < next

/-- No mark is taken back. -/
def Grows (marks marks' : OrderedMap String (WithTop Nat)) : Prop :=
  ∀ sessionId next, marks.get sessionId = some next →
    ∃ next', marks'.get sessionId = some next' ∧ next ≤ next'

theorem Grows.refl (marks : OrderedMap String (WithTop Nat)) : Grows marks marks :=
  fun _ next hnext => ⟨next, hnext, le_rfl⟩

theorem Marked.grows {marks' : OrderedMap String (WithTop Nat)}
    {frames : List WorkspaceHydratedFrame} (h : Marked marks sessionId frames)
    (hgrows : Grows marks marks') : Marked marks' sessionId frames := by
  intro frame hframe seq hseq
  obtain ⟨next, hnext, hlt⟩ := h frame hframe seq hseq
  obtain ⟨next', hnext', hle⟩ := hgrows sessionId next hnext
  exact ⟨next', hnext', lt_of_lt_of_le hlt hle⟩

theorem grows_set (marks : OrderedMap String (WithTop Nat)) (sessionId : String)
    (next : WithTop Nat) :
    Grows marks (marks.set sessionId (max ((marks.get sessionId).getD (WithTop.some 0)) next)) := by
  intro other old hold
  by_cases heq : other = sessionId
  · subst heq
    refine ⟨_, get_set_self .., ?_⟩
    rw [hold]
    exact le_max_left ..
  · exact ⟨old, (get_set_of_ne _ _ heq).trans hold, le_rfl⟩

open Grows

theorem observe_grows (marks : OrderedMap String (WithTop Nat)) (sessionId : String)
    (frames : List WorkspaceHydratedFrame) : Grows marks (observe marks sessionId frames) := by
  induction frames generalizing marks with
  | nil => exact refl marks
  | cons frame rest ih =>
    unfold observe
    split
    · exact ih marks
    · rename_i next hnext
      intro other old hold
      obtain ⟨between, hbetween, hle⟩ := grows_set marks sessionId next other old hold
      obtain ⟨last, hlast, hle'⟩ := ih _ other between hbetween
      exact ⟨last, hlast, hle.trans hle'⟩

theorem lt_orInfinity {seq : Nat} {value : Option Nat}
    (h : ∀ next, value = some next → seq < next) : WithTop.some seq < orInfinity value := by
  cases value with
  | none => exact WithTop.coe_lt_top seq
  | some next => exact WithTop.coe_lt_coe.2 (h next rfl)

theorem sequenceBehind_lt {frame : WorkspaceHydratedFrame} {seq : Nat}
    (h : validNonNegativeInteger frame.seq = some seq) :
    ∃ next, sequenceBehind frame = some next ∧ WithTop.some seq < next := by
  refine ⟨_, by rw [sequenceBehind, h, map_some], lt_orInfinity ?_⟩
  intro next hnext
  rw [(validNonNegativeInteger_nat.1 hnext).2]
  exact Nat.lt_succ_self seq

theorem observe_marks (marks : OrderedMap String (WithTop Nat)) (sessionId : String)
    (frames : List WorkspaceHydratedFrame) :
    Marked (observe marks sessionId frames) sessionId frames := by
  induction frames generalizing marks with
  | nil =>
    intro frame hframe
    cases hframe
  | cons first rest ih =>
    intro frame hframe seq hseq
    unfold observe
    rcases mem_cons.1 hframe with rfl | hrest
    · obtain ⟨next, hnext, hlt⟩ := sequenceBehind_lt hseq
      simp only [hnext]
      obtain ⟨last, hlast, hle⟩ := observe_grows
        (marks.set sessionId (max ((marks.get sessionId).getD (WithTop.some 0)) next)) sessionId
        rest sessionId _ (get_set_self ..)
      exact ⟨last, hlast, lt_of_lt_of_le hlt ((le_max_right _ _).trans hle)⟩
    · split
      · exact ih marks frame hrest seq hseq
      · exact ih _ frame hrest seq hseq

/-- The frames of the pages that a loop has taken in. -/
def framesTaken (loop : FramesLoop) : List WorkspaceHydratedFrame :=
  loop.pages.flatMap fun page => page.answer.frames.getD []

theorem marked_answer {loop : FramesLoop} {response : Adapted FramesResponse}
    (h : Marked marks sessionId (framesTaken loop)) :
    Marked (observe marks sessionId (framesOfAnswer response)) sessionId
      (framesTaken (answer (takeFrames stage sessionId) (nextRequestId stage) calls loop
        (observedAnswer response)).1) := by
  unfold framesTaken at *
  rcases answer_pages (takeFrames stage sessionId) (nextRequestId stage) calls loop
      (observedAnswer response) with hpages | ⟨request, place, page, hresponse, hpages⟩
  · rw [hpages]
    exact h.grows (observe_grows _ _ _)
  · rw [hpages, flatMap_append, flatMap_singleton]
    have hsame : response = .ok page := by
      unfold observedAnswer at hresponse
      split at hresponse
      · split at hresponse
        · exact hresponse
        · cases hresponse
      · cases hresponse
    subst hsame
    intro frame hframe
    rcases mem_append.1 hframe with hold | hnew
    · exact h.grows (observe_grows _ _ _) frame hold
    · exact observe_marks marks sessionId _ frame hnew

/-! ## The list -/

/-- What is staged of a session comes from its loops, and its marks are behind its frames. -/
structure ItemSound (stage : Stage) (adapter : SessionAdapter D F P K C)
    (marks : OrderedMap String (WithTop Nat)) (item : Item D F P K C) : Prop where
  staging : ∀ task, item.phase = .staging task →
    TaskSound stage adapter item.snapshot.id task ∧
      Marked marks item.snapshot.id (framesTaken task.frames)
  staged : ∀ task hydrated, item.phase = .staged task hydrated →
    TaskSound stage adapter item.snapshot.id task ∧
      Marked marks item.snapshot.id (framesTaken task.frames) ∧
      ∃ parts, task.parts = some parts ∧
        hydrateWorkspaceSession adapter item.snapshot parts = .ok hydrated

theorem ItemSound.grows {marks' : OrderedMap String (WithTop Nat)}
    (h : ItemSound stage adapter marks item) (hgrows : Grows marks marks') :
    ItemSound stage adapter marks' item := by
  constructor
  · intro task hphase
    obtain ⟨hsound, hmarked⟩ := h.staging task hphase
    exact ⟨hsound, hmarked.grows hgrows⟩
  · intro task hydrated hphase
    obtain ⟨hsound, hmarked, hparts⟩ := h.staged task hydrated hphase
    exact ⟨hsound, hmarked.grows hgrows, hparts⟩

theorem itemSound_starts (h : Starts stage item item') : ItemSound stage adapter marks item' := by
  cases h with
  | refused hstart => exact ⟨by simp, by simp⟩
  | started hstart =>
    constructor
    · intro task hphase
      cases hphase
      refine ⟨taskSound_start hstart, ?_⟩
      obtain ⟨request, a, b, c, rfl⟩ := startSession_ok hstart
      intro frame hframe
      simp [framesTaken] at hframe
    · intro task hydrated hphase
      cases hphase

theorem marksBehind_grows (s : State D F P K C) (sessionId : String) (e : Event D P C) :
    Grows s.nextSequences (marksBehind s sessionId e) := by
  cases e with
  | frames index response => exact observe_grows _ _ _
  | _ => exact refl _

theorem marked_moves {task' : SessionTask P C}
    (h : Marked s.nextSequences sessionId (framesTaken task.frames))
    (hmoves : TaskMoves stage adapter calls index sessionId task e task') :
    Marked (marksBehind s sessionId e) sessionId (framesTaken task'.frames) := by
  cases hmoves with
  | frames waiting => exact marked_answer h
  | collections => exact h
  | aiMessages => exact h
  | waveform => exact h

/-- No event takes a mark back. -/
theorem Steps.grows (h : Steps stage adapter s e s') : Grows s.nextSequences s'.nextSequences := by
  cases h with
  | idle => exact refl _
  | answered hitem hphase moves sessions next items marks outcome =>
    rw [marks]
    exact marksBehind_grows s _ e
  | settled hitem hphase hparts hydrates =>
    rw [finish_nextSequences, takeNext_nextSequences]
    exact refl _
  | refused hitem hphase hparts hrefuses =>
    rw [settleWith_nextSequences]
    exact refl _
  | @listed response waiting =>
    obtain ⟨_, -, -, hmarks, -⟩ := answerSessions_cases stage s response
    rw [hmarks]
    exact refl _

theorem map_set_same {α β : Type} {f : α → β} {items : List α} {item item' : α}
    (hitem : items[index]? = some item) (hsame : f item' = f item) :
    (items.set index item').map f = items.map f := by
  apply ext_getElem?
  intro other
  rw [map_set, hsame, List.getElem?_set]
  split
  · rename_i heq
    subst heq
    rw [List.getElem?_map, hitem]
    simp [List.getElem?_eq_some_iff.1 hitem |>.1]
  · rfl

theorem Starts.snapshot (h : Starts stage item item') : item'.snapshot = item.snapshot := by
  cases h <;> rfl

@[simp] theorem takeNext_snapshots (stage : Stage) (s : State D F P K C) :
    (s.takeNext stage).items.map (·.snapshot) = s.items.map (·.snapshot) := by
  rcases takeNext_cases stage s with ⟨-, hsame⟩ | ⟨item, item', hitem, hstarts, hitems, -⟩
  · rw [hsame]
  · rw [hitems]
    exact map_set_same hitem hstarts.snapshot

@[simp] theorem startWorkers_snapshots (stage : Stage) (s : State D F P K C) (workers : Nat) :
    (s.startWorkers stage workers).items.map (·.snapshot) = s.items.map (·.snapshot) := by
  induction workers generalizing s with
  | zero => rfl
  | succ workers ih => rw [startWorkers, ih, takeNext_snapshots]

/-- A session that is put back keeps the list from being empty. -/
theorem takeNext_ne_nil (stage : Stage) (hitem : s.items[index]? = some item) :
    ((s.setItem index item').takeNext stage).items ≠ [] := by
  intro hnone
  have hlength := congrArg List.length (takeNext_snapshots stage (s.setItem index item'))
  have hlt := (List.getElem?_eq_some_iff.1 hitem).1
  rw [hnone, length_map, length_map, setItem, List.length_set] at hlength
  simp only [length_nil] at hlength
  omega

/-- What a fulfilled staging says of the state: the list is there, and each of its sessions is
staged. -/
structure Concluded (stage : Stage) (s : State D F P K C)
    (staging : WorkspaceHydrationStaging F K C) : Prop where
  listed : s.sessions.result = some (s.items.map (·.snapshot))
  concluded : ∃ hydrated, s.items.mapM Item.hydrated = some hydrated ∧
    conclude stage (s.items.map (·.snapshot)) hydrated = .ok staging

structure Coherent (stage : Stage) (adapter : SessionAdapter D F P K C) (s : State D F P K C) :
    Prop where
  ordered : Ordered s
  list : Sound (takeSessions stage) 0 [] s.sessions
  items : ∀ (index : Nat) item, s.items[index]? = some item →
    ItemSound stage adapter s.nextSequences item
  listed : s.items ≠ [] → s.sessions.result = some (s.items.map (·.snapshot))
  concluded : ∀ staging, s.outcome = some (.ok staging) → Concluded stage s staging

theorem mapM_hydrated_staged {items : List (Item D F P K C)}
    {hydrated : List (HydratedWorkspaceSession F K C)}
    (h : items.mapM Item.hydrated = some hydrated) {index : Nat}
    (hitem : items[index]? = some item) :
    ∃ task entry, item.phase = .staged task entry ∧ hydrated[index]? = some entry := by
  induction items generalizing hydrated index with
  | nil => cases hitem
  | cons first rest ih =>
    simp only [mapM_cons, bind_eq_bind, bind_eq_some_iff, Option.pure_def, some.injEq] at h
    obtain ⟨entry, hentry, others, hothers, rfl⟩ := h
    cases index with
    | zero =>
      cases hitem
      unfold Item.hydrated at hentry
      split at hentry
      · rename_i task found hphase
        cases hentry
        exact ⟨task, _, hphase, rfl⟩
      · cases hentry
    | succ index => exact ih hothers hitem

/-- A fulfilled staging has no session left that an event might move. -/
theorem Coherent.not_staging (h : Coherent stage adapter s)
    (hdone : s.outcome = some (.ok staging)) (hitem : s.items[index]? = some item) :
    item.phase ≠ .staging task := by
  obtain ⟨hydrated, hmap, -⟩ := (h.concluded staging hdone).concluded
  obtain ⟨task', entry, hphase, -⟩ := mapM_hydrated_staged hmap hitem
  rw [hphase]
  simp

/-- What `finish` fulfils is concluded. -/
theorem finish_concluded (hlisted : s.sessions.result = some (s.items.map (·.snapshot)))
    (hopen : ∀ staging, s.outcome ≠ some (.ok staging))
    (h : (s.finish stage).outcome = some (.ok staging)) :
    Concluded stage (s.finish stage) staging := by
  have houtcome := h
  unfold finish at houtcome
  split at houtcome
  · exact absurd houtcome (hopen staging)
  · rename_i hydrated hmap
    rw [settleWith_outcome] at houtcome
    constructor
    · rw [finish_sessions, finish_items]
      exact hlisted
    · rw [finish_items]
      refine ⟨hydrated, hmap, ?_⟩
      cases hsettled : s.outcome with
      | none =>
        rw [hsettled] at houtcome
        exact Option.some.inj houtcome
      | some outcome =>
        rw [hsettled, getD_some] at houtcome
        rw [houtcome] at hsettled
        exact absurd hsettled (hopen staging)

section

variable (h : Coherent stage adapter s) (hsteps : Steps stage adapter s e s')
include h hsteps

theorem Coherent.items_step :
    ∀ (index : Nat) item, s'.items[index]? = some item →
      ItemSound stage adapter s'.nextSequences item := by
  apply items_behind (fun _ => ItemSound stage adapter s.nextSequences)
    (fun _ => ItemSound stage adapter s'.nextSequences) h.ordered hsteps h.items
  · intro index item hitem
    exact hitem.grows hsteps.grows
  · intro response snapshots index snapshot _ _ _
    exact ⟨by simp, by simp⟩
  · intro index item item' _ _ hstarts
    exact itemSound_starts hstarts
  · intro index item task task' _ hphase hitem hmoves hmarks
    constructor
    · intro task'' hphase'
      cases hphase'
      obtain ⟨hsound, hmarked⟩ := hitem.staging task hphase
      rw [hmarks]
      exact ⟨hsound.moves hmoves, marked_moves hmarked hmoves⟩
    · intro task'' hydrated hphase'
      cases hphase'
  · intro index item task parts hydrated hphase hitem hparts hhydrates
    constructor
    · intro task' hphase'
      cases hphase'
    · intro task' hydrated' hphase'
      cases hphase'
      obtain ⟨hsound, hmarked⟩ := hitem.staging task hphase
      exact ⟨hsound, hmarked.grows hsteps.grows, parts, hparts, hhydrates⟩
  · intro index item task _ _
    exact ⟨by simp, by simp⟩

theorem Coherent.list_step : Sound (takeSessions stage) 0 [] s'.sessions := by
  cases hsteps with
  | idle => exact h.list
  | answered hitem hphase moves sessions next items marks outcome => exact sessions ▸ h.list
  | settled hitem hphase hparts hydrates =>
    rw [finish_sessions, takeNext_sessions]
    exact h.list
  | refused hitem hphase hparts hrefuses =>
    rw [settleWith_sessions]
    exact h.list
  | @listed response waiting =>
    obtain ⟨loop, hloop, hsessions, -⟩ := answerSessions_cases stage s response
    rw [hsessions, hloop]
    exact h.list.answer response

/-- The list stays, once sessions are staged. -/
theorem Coherent.listed_step (hsome : s'.items ≠ []) :
    s'.sessions.result = some (s'.items.map (·.snapshot)) := by
  have hsome_of : ∀ {index : Nat} {item : Item D F P K C}, s.items[index]? = some item →
      s.items ≠ [] := by
    intro index item hitem hnone
    rw [hnone] at hitem
    cases hitem
  cases hsteps with
  | idle => exact h.listed hsome
  | answered hitem hphase moves sessions next items marks outcome =>
    rw [sessions, items, map_set_same hitem]
    · exact h.listed (hsome_of hitem)
    · rfl
  | settled hitem hphase hparts hydrates =>
    rw [finish_sessions, takeNext_sessions, finish_items, takeNext_snapshots, setItem,
      map_set_same hitem]
    · exact h.listed (hsome_of hitem)
    · rfl
  | refused hitem hphase hparts hrefuses =>
    rw [settleWith_sessions, settleWith_items, setItem, map_set_same hitem]
    · exact h.listed (hsome_of hitem)
    · rfl
  | @listed response waiting =>
    obtain ⟨loop, -, hsessions, -, hcases⟩ := answerSessions_cases stage s response
    have hnone := (h.ordered.early waiting).1
    rcases hcases with ⟨-, hitems, -⟩ | ⟨snapshots, hresult, ⟨hitems, -⟩ | ⟨calls, ids, -, hbegun⟩⟩
    · exact absurd (hitems.trans hnone) hsome
    · exact absurd (hitems.trans hnone) hsome
    · rw [hsessions, hresult, hbegun, finish_items, startWorkers_snapshots,
        hydration_staging.listed, List.map_map]
      simp [Function.comp_def]

end

theorem not_fulfilled_or {outcome : Option (Adapted (WorkspaceHydrationStaging F K C))}
    {failure : Option WorkspaceAdapterError}
    (h : outcome.or (failure.map fun error => .error error) = some (.ok staging)) :
    outcome = some (.ok staging) := by
  cases outcome with
  | some outcome => exact h
  | none =>
    cases failure with
    | none => cases h
    | some error => cases h

theorem not_fulfilled_getD {outcome : Option (Adapted (WorkspaceHydrationStaging F K C))}
    {error : WorkspaceAdapterError} (h : some (outcome.getD (.error error)) = some (.ok staging)) :
    outcome = some (.ok staging) := by
  cases outcome with
  | some outcome => exact h
  | none => cases h

/-- A worker that takes the next session fulfils nothing. -/
theorem takeNext_open (hopen : ∀ staging, s.outcome ≠ some (.ok staging))
    (staging : WorkspaceHydrationStaging F K C) :
    (s.takeNext stage).outcome ≠ some (.ok staging) := by
  intro h
  rcases takeNext_cases stage s with
    ⟨-, hsame⟩ | ⟨_, _, -, -, -, -, -, -, ⟨-, error, houtcome⟩ | ⟨task, -, houtcome⟩⟩
  · rw [hsame] at h
    exact hopen staging h
  · rw [houtcome] at h
    exact hopen staging (not_fulfilled_getD h)
  · rw [houtcome] at h
    exact hopen staging (not_fulfilled_or h)

theorem startWorkers_open {workers : Nat} (hopen : ∀ staging, s.outcome ≠ some (.ok staging))
    (staging : WorkspaceHydrationStaging F K C) :
    (s.startWorkers stage workers).outcome ≠ some (.ok staging) := by
  induction workers generalizing s with
  | zero => exact hopen staging
  | succ workers ih => exact ih (takeNext_open hopen)

theorem Coherent.concluded_step (h : Coherent stage adapter s) (hsteps : Steps stage adapter s e s')
    (hlisted : s'.items ≠ [] → s'.sessions.result = some (s'.items.map (·.snapshot)))
    (hdone : s'.outcome = some (.ok staging)) : Concluded stage s' staging := by
  have hopen : ∀ {index : Nat} {item : Item D F P K C} {task : SessionTask P C},
      s.items[index]? = some item → item.phase = .staging task →
        ∀ staging, s.outcome ≠ some (.ok staging) :=
    fun hitem hphase staging hok => h.not_staging hok hitem hphase
  cases hsteps with
  | idle => exact h.concluded staging hdone
  | answered hitem hphase moves sessions next items marks outcome =>
    rw [outcome] at hdone
    exact absurd (not_fulfilled_or hdone) (hopen hitem hphase staging)
  | refused hitem hphase hparts hrefuses =>
    rw [settleWith_outcome] at hdone
    exact absurd (not_fulfilled_getD hdone) (hopen hitem hphase staging)
  | settled hitem hphase hparts hydrates =>
    rename_i index item task parts hydrated
    rw [finish_sessions, finish_items] at hlisted
    exact finish_concluded (hlisted (takeNext_ne_nil stage hitem))
      (takeNext_open (hopen hitem hphase)) hdone
  | @listed response waiting =>
    have hnone : ∀ staging, s.outcome ≠ some (.ok staging) := by
      intro staging hok
      exact Loop.not_waiting_of_result (h.concluded staging hok).listed waiting
    obtain ⟨loop, -, hsessions, -, hcases⟩ := answerSessions_cases stage s response
    rcases hcases with ⟨-, -, -, houtcome⟩ |
      ⟨snapshots, hresult, ⟨-, -, error, houtcome, -⟩ | ⟨calls, ids, -, hbegun⟩⟩
    · rw [houtcome] at hdone
      exact absurd (not_fulfilled_or hdone) (hnone staging)
    · rw [houtcome] at hdone
      exact absurd (not_fulfilled_getD hdone) (hnone staging)
    · rw [hbegun] at hdone ⊢
      have hfresh : ∀ staging, (hydration_staging.listed { s with sessions := loop, calls }
          snapshots).outcome ≠ some (.ok staging) := hnone
      apply finish_concluded _ (startWorkers_open hfresh) hdone
      rw [startWorkers_sessions, startWorkers_snapshots, hydration_staging.listed, List.map_map]
      simpa [Function.comp_def] using hresult

theorem Coherent.step (h : Coherent stage adapter s) (e : Event D P C) :
    Coherent stage adapter (step stage adapter s e) := by
  have hsteps := steps stage adapter s e
  have hlisted := fun hsome => h.listed_step hsteps hsome
  exact
    { ordered := h.ordered.step e
      list := h.list_step hsteps
      items := h.items_step hsteps
      listed := hlisted
      concluded _ hdone := h.concluded_step hsteps hlisted hdone }

theorem coherent_start (stage : Stage) (adapter : SessionAdapter D F P K C) :
    Coherent stage adapter (start stage : State D F P K C) := by
  constructor
  · exact ordered_start stage
  · simp only [start, rejectWith_sessions]
    exact sound_ask .start
  · intro index item hitem
    simp [start] at hitem
  · intro hsome
    simp [start] at hsome
  · intro staging hdone
    simp only [start, rejectWith_outcome] at hdone
    cases not_fulfilled_or hdone

end bbcom.hydration_staging
