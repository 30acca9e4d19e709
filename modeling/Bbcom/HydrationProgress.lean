-- The staging comes to an end: each answer that is waited for lowers what is left to do, and as
-- long as the promise has not settled, an answer is waited for or a session is ready.
import Bbcom.HydrationCoherence

open bbcom.js bbcom.page_loop bbcom.session_adapter
open bbcom.write_epoch (MAX_SAFE_INTEGER)
open bbcom.capture (validNonNegativeInteger)
open bbcom.contracts (MAX_WORKSPACE_SESSIONS)

namespace bbcom.hydration_staging

open List Nat Loop

variable {D F P K C : Type} {stage : Stage} {adapter : SessionAdapter D F P K C}
  {s : State D F P K C}

/-- An event for which the staging waits: an answer to a request that is out, or the continuation
of a session that has all its rows. -/
def Enabled (s : State D F P K C) : Event D P C → Prop
  | .sessions _ => s.sessions.isWaiting
  | .collections index _ => ∃ item task, s.items[index]? = some item ∧
      item.phase = .staging task ∧ task.collections.isWaiting
  | .frames index _ => ∃ item task, s.items[index]? = some item ∧
      item.phase = .staging task ∧ task.frames.isWaiting
  | .aiMessages index _ => ∃ item task, s.items[index]? = some item ∧
      item.phase = .staging task ∧ task.aiMessages.isWaiting
  | .waveform index _ => ∃ item task, s.items[index]? = some item ∧
      item.phase = .staging task ∧ task.waveform.isWaiting
  | .settle index => ∃ item task, s.items[index]? = some item ∧
      item.phase = .staging task ∧ task.parts.isSome

/-! ## What is left to do -/

/-- The places that a list may still be asked for at. -/
def rank (place : Nat) : Nat := MAX_SAFE_INTEGER + 1 - place + 1

theorem rank_pos (place : Nat) : 0 < rank place := succ_pos _

theorem rank_lt {place next : Nat} {number : JsNumber}
    (hvalid : validNonNegativeInteger number = some next) (hforward : place < next) :
    rank next < rank place := by
  have hle : next ≤ MAX_SAFE_INTEGER := (integerBetween_bounds hvalid).2
  unfold rank
  omega

theorem GoesOn.rank_lt {offset count next : Nat} {nextOffset : Option JsNumber}
    (h : GoesOn offset count nextOffset (some next)) : rank next < rank offset := by
  cases h with
  | more valid forward whole => exact hydration_staging.rank_lt valid forward

variable {frames : List WorkspaceHydratedFrame}

theorem Ascends.le_last {fromSeq : Nat} {previous last : Int}
    (h : Ascends fromSeq previous frames last) :
    previous ≤ last := by
  induction h with
  | nil => exact le_rfl
  | cons valid from_place behind ascends ih => omega

theorem Ascends.from_le {fromSeq : Nat} {previous last : Int}
    (h : Ascends fromSeq previous frames last) (hsome : frames.length ≠ 0) :
    (fromSeq : Int) ≤ last := by
  cases h with
  | nil => exact absurd rfl hsome
  | cons valid from_place behind ascends =>
    have hle := ascends.le_last
    omega

/-- A session in the queue has four lists to come, one of them with a single answer. -/
def queuedWeight : Nat := 3 * rank 0 + 2

def taskWeight (task : SessionTask P C) : Nat :=
  weight (fun _ => 1) task.collections + weight rank task.frames + weight rank task.aiMessages +
    weight rank task.waveform + 1

def itemWeight (item : Item D F P K C) : Nat :=
  match item.phase with
  | .queued => queuedWeight
  | .staging task => taskWeight task
  | _ => 0

/-- While the list is not there, all the sessions that it may hold are to come. -/
def listRank (place : Nat) : Nat := rank place + MAX_WORKSPACE_SESSIONS * queuedWeight

def itemsWeight (items : List (Item D F P K C)) : Nat := (items.map itemWeight).sum

def State.weight (s : State D F P K C) : Nat :=
  page_loop.weight listRank s.sessions + itemsWeight s.items

theorem takeSessions_descends (stage : Stage) :
    Descends (takeSessions (D := D) stage) listRank := by
  intro request place taken page taken' place' haccept
  obtain ⟨-, _, -, -, -, -, hgoes⟩ := takeSessions_ok.1 haccept
  exact Nat.add_lt_add_right hgoes.rank_lt _

theorem takeCollections_descends (stage : Stage) (sessionId : String) :
    Descends (takeCollections (P := P) stage sessionId) fun _ => 1 := by
  intro request place taken page taken' place' haccept
  obtain ⟨-, -, hnone⟩ := takeCollections_ok.1 haccept
  cases hnone

theorem takeFrames_descends (stage : Stage) (sessionId : String) :
    Descends (takeFrames stage sessionId) rank := by
  intro request place taken page taken' place' haccept
  obtain ⟨envelope, rows, nextSeq⟩ := page
  obtain ⟨-, rows, -, -, hascends, -, -, hgoes⟩ := takeFrames_ok.1 haccept
  cases hgoes with
  | more valid some_frame behind =>
    have hle := hascends.from_le some_frame
    exact rank_lt valid (by omega)

theorem takeAiMessages_descends (stage : Stage) (sessionId : String) :
    Descends (takeAiMessages stage sessionId) rank := by
  intro request place taken page taken' place' haccept
  obtain ⟨-, _, -, -, -, -, hgoes⟩ := takeAiMessages_ok.1 haccept
  exact hgoes.rank_lt

theorem takeWaveform_descends (stage : Stage) (stringify : WorkspaceWaveformChannel C → String)
    (sessionId : String) : Descends (takeWaveform stage stringify sessionId) rank := by
  intro request place taken page taken' place' haccept
  obtain ⟨-, _, _, -, -, -, -, -, hgoes⟩ := takeWaveform_ok.1 haccept
  exact hgoes.rank_lt

variable {index workers : Nat} {item : Item D F P K C} {task : SessionTask P C}

variable {items : List (Item D F P K C)}

theorem itemsWeight_set (hitem : items[index]? = some item) (item' : Item D F P K C) :
    itemsWeight (items.set index item') + itemWeight item =
      itemsWeight items + itemWeight item' := by
  unfold itemsWeight
  induction items generalizing index with
  | nil => cases hitem
  | cons first rest ih =>
    cases index with
    | zero =>
      cases hitem
      simp only [set_cons_zero, map_cons, sum_cons]
      omega
    | succ index =>
      have hrest := ih hitem
      simp only [set_cons_succ, map_cons, sum_cons]
      omega

variable {item' : Item D F P K C}

theorem Starts.weight_le (h : Starts stage item item') :
    itemWeight item' ≤ queuedWeight := by
  cases h with
  | refused hstart => exact zero_le _
  | started hstart =>
    obtain ⟨request, a, b, c, rfl⟩ := startSession_ok hstart
    have hframes : weight rank (_ : FramesLoop) ≤ _ :=
      weight_ask_le rank (nextRequestId stage) a 0 {} []
    have hmessages : weight rank (_ : AiMessagesLoop) ≤ _ :=
      weight_ask_le rank (nextRequestId stage) b 0 [] []
    have hwaveform : weight rank (_ : WaveformLoop C) ≤ _ :=
      weight_ask_le rank (nextRequestId stage) c 0 {} []
    simp only [itemWeight, taskWeight, queuedWeight]
    simp only [weight] at hframes hmessages hwaveform ⊢
    omega

theorem takeNext_weight_le (hqueue : Queue s) :
    itemsWeight (s.takeNext stage).items ≤ itemsWeight s.items := by
  rcases takeNext_cases stage s with ⟨-, hsame⟩ | ⟨item, item', hitem, hstarts, hitems, -⟩
  · rw [hsame]
  · have hset := itemsWeight_set hitem item'
    have hqueued : itemWeight item = queuedWeight := by
      rw [itemWeight, (hqueue _ _ hitem).2 le_rfl]
    have hle := hstarts.weight_le
    rw [hitems]
    omega

theorem startWorkers_weight_le (hqueue : Queue s) :
    itemsWeight (s.startWorkers stage workers).items ≤ itemsWeight s.items := by
  induction workers generalizing s with
  | zero => exact le_rfl
  | succ workers ih => exact (ih hqueue.takeNext).trans (takeNext_weight_le hqueue)

/-- A move of one session lowers what is left, by the move. -/
theorem setTask_weight_lt {calls : Nat} {task' : SessionTask P C}
    (hitem : s.items[index]? = some item) (hphase : item.phase = .staging task)
    (hlt : taskWeight task' < taskWeight task) :
    (s.setTask index item task' calls).weight < s.weight := by
  have hset := itemsWeight_set hitem { item with phase := .staging task' }
  have hold : itemWeight item = taskWeight task := by rw [itemWeight, hphase]
  have hnew : itemWeight ({ item with phase := .staging task' } : Item D F P K C) =
      taskWeight task' := rfl
  simp only [State.weight, State.setTask, State.setItem, rejectWith_sessions, rejectWith_items]
  omega

theorem settleSession_weight_lt (hqueue : Queue s) (hitem : s.items[index]? = some item)
    (hphase : item.phase = .staging task) (hparts : task.parts.isSome) :
    (s.settleSession stage adapter index item task).weight < s.weight := by
  obtain ⟨parts, hparts⟩ := Option.isSome_iff_exists.1 hparts
  have hold : itemWeight item = taskWeight task := by rw [itemWeight, hphase]
  have hpos : 0 < taskWeight task := succ_pos _
  unfold State.settleSession
  simp only [hparts]
  cases hydrateWorkspaceSession adapter item.snapshot parts with
  | error error =>
    have hset := itemsWeight_set hitem { item with phase := .rejected }
    have hnew : itemWeight ({ item with phase := .rejected } : Item D F P K C) = 0 := rfl
    simp only [State.weight, State.setItem, settleWith_sessions, settleWith_items]
    omega
  | ok hydrated =>
    have hset := itemsWeight_set hitem { item with phase := .staged task hydrated }
    have hnew : itemWeight ({ item with phase := .staged task hydrated } : Item D F P K C) = 0 :=
      rfl
    have hbusy : Queue (s.setItem index { item with phase := .staged task hydrated }) :=
      hqueue.replace hitem (by simp [hphase]) (by simp)
    have hnext := @takeNext_weight_le _ _ _ _ _ stage _ hbusy
    simp only [State.weight, finish_sessions, finish_items, takeNext_sessions]
    simp only [State.setItem] at hnext ⊢
    omega

theorem itemsWeight_listed (snapshots : List (WorkspaceSessionSnapshot D)) :
    itemsWeight (snapshots.map fun snapshot => ({ snapshot } : Item D F P K C)) =
      snapshots.length * queuedWeight := by
  unfold itemsWeight
  rw [map_map]
  induction snapshots with
  | nil => simp
  | cons first rest ih =>
    simp only [map_cons, sum_cons, length_cons, ih, Function.comp_apply, itemWeight]
    ring

theorem answerSessions_weight_lt (hordered : Ordered s) (hlist : Sound (takeSessions stage) 0 []
    s.sessions) (hwaiting : s.sessions.isWaiting) (response : Adapted (SessionsResponse D)) :
    (s.answerSessions stage response).weight < s.weight := by
  obtain ⟨loop, hloop, hsessions, -, hcases⟩ := answerSessions_cases stage s response
  have hlt : page_loop.weight listRank loop < page_loop.weight listRank s.sessions := by
    rw [hloop]
    exact weight_answer_lt (takeSessions_descends stage)
      (fun place => lt_of_lt_of_le (rank_pos place) (Nat.le_add_right _ _)) _ _ hwaiting response
  rcases hcases with ⟨-, hitems, -⟩ | ⟨snapshots, hresult, ⟨hitems, -⟩ | ⟨calls, ids, -, hbegun⟩⟩
  · rw [State.weight, State.weight, hsessions, hitems]
    omega
  · rw [State.weight, State.weight, hsessions, hitems]
    omega
  · have hsound : Sound (takeSessions stage) 0 [] loop := hloop ▸ hlist.answer response
    have hfew : snapshots.length ≤ MAX_WORKSPACE_SESSIONS := few_sessions hsound hresult
    have hqueue : Queue (listed { s with sessions := loop, calls } snapshots) :=
      listed_queue (hordered.early hwaiting).2 snapshots
    have hstarted := @startWorkers_weight_le _ _ _ _ _ stage _ stage.concurrency hqueue
    have hfresh : itemsWeight (listed { s with sessions := loop, calls } snapshots).items =
        snapshots.length * queuedWeight := itemsWeight_listed snapshots
    have hdone : page_loop.weight listRank loop = 0 := weight_done hresult
    have hbound : MAX_WORKSPACE_SESSIONS * queuedWeight < page_loop.weight listRank s.sessions :=
      lt_weight (fun place => Nat.lt_add_of_pos_left (rank_pos place)) hwaiting
    have hproduct := Nat.mul_le_mul_right queuedWeight hfew
    rw [State.weight, hsessions, hdone, hbegun, finish_items]
    unfold State.weight
    omega

/-- Each event that the staging waits for lowers what is left to do. -/
theorem step_weight_lt (h : Coherent stage adapter s) {e : Event D P C} (henabled : Enabled s e) :
    (step stage adapter s e).weight < s.weight := by
  cases e with
  | sessions response =>
    simp only [Enabled] at henabled
    simp only [step, henabled, if_true]
    exact answerSessions_weight_lt h.ordered h.list henabled response
  | collections index response =>
    obtain ⟨item, task, hitem, hphase, hwaiting⟩ := henabled
    simp only [step, State.onTask, hitem, hphase]
    apply setTask_weight_lt hitem hphase
    have hlt := weight_answer_lt (takeCollections_descends stage item.snapshot.id)
      (fun _ => one_pos) (nextRequestId stage) s.calls hwaiting response
    simp only [taskWeight]
    omega
  | frames index response =>
    obtain ⟨item, task, hitem, hphase, hwaiting⟩ := henabled
    simp only [step, State.onTask, hitem, hphase, hwaiting, if_true]
    have hlt := weight_answer_lt (takeFrames_descends stage item.snapshot.id) rank_pos
      (nextRequestId stage) s.calls hwaiting (observedAnswer response)
    refine setTask_weight_lt (s := { s with nextSequences := _ }) hitem hphase ?_
    simp only [taskWeight]
    omega
  | aiMessages index response =>
    obtain ⟨item, task, hitem, hphase, hwaiting⟩ := henabled
    simp only [step, State.onTask, hitem, hphase]
    apply setTask_weight_lt hitem hphase
    have hlt := weight_answer_lt (takeAiMessages_descends stage item.snapshot.id) rank_pos
      (nextRequestId stage) s.calls hwaiting response
    simp only [taskWeight]
    omega
  | waveform index response =>
    obtain ⟨item, task, hitem, hphase, hwaiting⟩ := henabled
    simp only [step, State.onTask, hitem, hphase]
    apply setTask_weight_lt hitem hphase
    have hlt := weight_answer_lt (takeWaveform_descends stage adapter.stringify item.snapshot.id)
      rank_pos (nextRequestId stage) s.calls hwaiting response
    simp only [taskWeight]
    omega
  | settle index =>
    obtain ⟨item, task, hitem, hphase, hparts⟩ := henabled
    simp only [step, State.onTask, hitem, hphase]
    exact settleSession_weight_lt h.ordered.queue hitem hphase hparts

/-! ## The staging is never stuck -/

/-- Some session has its loops out, or has all its rows. -/
def Working (s : State D F P K C) : Prop :=
  ∃ (index : Nat) (item : Item D F P K C) (task : SessionTask P C), s.items[index]? = some item ∧
    item.phase = .staging task

/-- A session that has failed has settled the promise. -/
structure ItemLively (settled : Prop) (item : Item D F P K C) : Prop where
  rejected : item.phase = .rejected → settled
  failed : ∀ task, item.phase = .staging task → task.failure ≠ none → settled

theorem ItemLively.quiet {settled : Prop} (hrejected : item.phase ≠ .rejected)
    (hstaging : ∀ task, item.phase ≠ .staging task) : ItemLively settled item :=
  ⟨fun hphase => absurd hphase hrejected, fun task hphase => absurd hphase (hstaging task)⟩

theorem ItemLively.mono {settled settled' : Prop} (h : ItemLively settled item)
    (himp : settled → settled') : ItemLively settled' item :=
  ⟨fun hphase => himp (h.rejected hphase), fun task hphase hne => himp (h.failed task hphase hne)⟩

def ItemsLively (s : State D F P K C) : Prop :=
  ∀ (index : Nat) (item : Item D F P K C), s.items[index]? = some item →
    ItemLively (s.outcome ≠ none) item

structure Lively (s : State D F P K C) : Prop where
  list_failed : s.sessions.failure ≠ none → s.outcome ≠ none
  items : ItemsLively s
  goes_on : s.sessions.result ≠ none → s.outcome ≠ none ∨ Working s

theorem or_ne_none {outcome : Option (Adapted (WorkspaceHydrationStaging F K C))}
    {failure : Option WorkspaceAdapterError} (h : failure ≠ none) :
    outcome.or (failure.map fun error => (.error error :
      Adapted (WorkspaceHydrationStaging F K C))) ≠ none := by
  cases outcome <;> cases failure <;> simp_all

theorem takeNext_outcome (stage : Stage) (h : s.outcome ≠ none) :
    (s.takeNext stage).outcome ≠ none := by
  rcases takeNext_cases stage s with
    ⟨-, hsame⟩ | ⟨_, _, -, -, -, -, -, -, ⟨-, error, houtcome⟩ | ⟨task, -, houtcome⟩⟩
  · rw [hsame]
    exact h
  · rw [houtcome]
    simp
  · rw [houtcome]
    simp [h]

theorem startWorkers_outcome (h : s.outcome ≠ none) :
    (s.startWorkers stage workers).outcome ≠ none := by
  induction workers generalizing s with
  | zero => exact h
  | succ workers ih => exact ih (takeNext_outcome stage h)

theorem ItemsLively.takeNext (h : ItemsLively s) : ItemsLively (s.takeNext stage) := by
  intro index found hfound
  rcases takeNext_cases stage s with
    ⟨-, hsame⟩ | ⟨item, item', -, -, hitems, -, -, -, hphases⟩
  · rw [hsame] at hfound ⊢
    exact h index found hfound
  · rw [hitems] at hfound
    rcases getElem?_set_cases hfound with ⟨-, rfl, -⟩ | ⟨-, hold⟩
    · rcases hphases with ⟨-, error, houtcome⟩ | ⟨task, hphase, houtcome⟩
      · have hsettled : (s.takeNext stage).outcome ≠ none := by simp [houtcome]
        exact ⟨fun _ => hsettled, fun _ _ _ => hsettled⟩
      · rw [houtcome]
        refine ⟨fun hrejected => ?_, fun task' hstaging hfailure => ?_⟩
        · rw [hphase] at hrejected
          cases hrejected
        · rw [hphase] at hstaging
          cases hstaging
          exact or_ne_none hfailure
    · exact (h index found hold).mono (takeNext_outcome stage)

theorem ItemsLively.startWorkers (h : ItemsLively s) :
    ItemsLively (s.startWorkers stage workers) := by
  induction workers generalizing s with
  | zero => exact h
  | succ workers ih => exact ih h.takeNext

theorem Working.takeNext (h : Working s) (hqueue : Queue s) : Working (s.takeNext stage) := by
  obtain ⟨index, item, task, hitem, hphase⟩ := h
  rcases takeNext_cases stage s with ⟨-, hsame⟩ | ⟨next, item', hnext, -, hitems, -⟩
  · rw [hsame]
    exact ⟨index, item, task, hitem, hphase⟩
  · refine ⟨index, item, task, ?_, hphase⟩
    have hqueued := (hqueue _ _ hnext).2 le_rfl
    rw [hitems, getElem?_set_ne, hitem]
    rintro rfl
    rw [hitem] at hnext
    cases hnext
    rw [hphase] at hqueued
    cases hqueued

theorem Working.startWorkers (h : Working s) (hqueue : Queue s) :
    Working (s.startWorkers stage workers) := by
  induction workers generalizing s with
  | zero => exact h
  | succ workers ih => exact ih (h.takeNext hqueue) hqueue.takeNext

/-- A free worker takes a session, fails, or finds the queue empty. -/
theorem takeNext_goes_on (stage : Stage) (s : State D F P K C) :
    (s.takeNext stage).outcome ≠ none ∨ Working (s.takeNext stage) ∨
      (s.takeNext stage = s ∧ s.items.length ≤ s.next) := by
  rcases takeNext_cases stage s with
    ⟨hnone, hsame⟩ |
      ⟨item, item', hitem, -, hitems, -, -, -, ⟨-, error, houtcome⟩ | ⟨task, hphase, -⟩⟩
  · exact .inr (.inr ⟨hsame, List.getElem?_eq_none_iff.1 hnone⟩)
  · exact .inl (by simp [houtcome])
  · refine .inr (.inl ⟨s.next, item', task, ?_, hphase⟩)
    rw [hitems, List.getElem?_set_self (List.getElem?_eq_some_iff.1 hitem).1]

theorem mapM_hydrated_some (h : ∀ item ∈ items, ∃ task hydrated, item.phase = .staged task hydrated)
    :
    ∃ hydrated, items.mapM Item.hydrated = some hydrated := by
  induction items with
  | nil => exact ⟨[], rfl⟩
  | cons first rest ih =>
    obtain ⟨task, entry, hphase⟩ := h first mem_cons_self
    obtain ⟨others, hothers⟩ := ih fun item hitem => h item (mem_cons_of_mem _ hitem)
    refine ⟨entry :: others, ?_⟩
    simp [mapM_cons, Item.hydrated, hphase, hothers]

theorem finish_outcome (stage : Stage) (h : s.outcome ≠ none) :
    (s.finish stage).outcome ≠ none := by
  unfold State.finish
  split
  · exact h
  · simp

/-- Where the queue is empty and no session is worked at, `finish` settles the promise. -/
theorem finish_goes_on (hqueue : Queue s) (hlively : ItemsLively s)
    (h : s.outcome ≠ none ∨ Working s ∨ s.items.length ≤ s.next) :
    (s.finish stage).outcome ≠ none ∨ Working (s.finish stage) := by
  by_cases hworking : Working s
  · right
    obtain ⟨index, item, task, hitem, hphase⟩ := hworking
    exact ⟨index, item, task, by rw [finish_items, hitem], hphase⟩
  left
  by_cases hsettled : s.outcome = none
  · have hempty : s.items.length ≤ s.next :=
      (h.resolve_left (not_not.2 hsettled)).resolve_left hworking
    have hstaged : ∀ item ∈ s.items, ∃ task hydrated, item.phase = .staged task hydrated := by
      intro item hmem
      obtain ⟨index, hitem⟩ := List.mem_iff_getElem?.1 hmem
      cases hphase : item.phase with
      | queued =>
        have hle := (hqueue index item hitem).1 hphase
        have hlt := (List.getElem?_eq_some_iff.1 hitem).1
        omega
      | staging task => exact absurd ⟨index, item, task, hitem, hphase⟩ hworking
      | staged task hydrated => exact ⟨task, hydrated, rfl⟩
      | rejected => exact absurd hsettled ((hlively index item hitem).rejected hphase)
    obtain ⟨hydrated, hmap⟩ := mapM_hydrated_some hstaged
    unfold State.finish
    simp [hmap]
  · exact finish_outcome stage hsettled

theorem startWorkers_goes_on (hworkers : 0 < workers) (hqueue : Queue s) (hlively : ItemsLively s) :
    ((s.startWorkers stage workers).finish stage).outcome ≠ none ∨
      Working ((s.startWorkers stage workers).finish stage) := by
  apply finish_goes_on hqueue.startWorkers hlively.startWorkers
  obtain ⟨workers, rfl⟩ := exists_eq_succ_of_ne_zero hworkers.ne'
  rw [succ_eq_add_one, State.startWorkers]
  rcases takeNext_goes_on stage s with hsettled | hworking | ⟨hsame, hempty⟩
  · exact .inl (startWorkers_outcome hsettled)
  · exact .inr (.inl (hworking.startWorkers hqueue.takeNext))
  · refine .inr (.inr ?_)
    have hstays : ∀ n, (s.startWorkers stage n) = s := by
      intro n
      induction n with
      | zero => rfl
      | succ n ih => rw [State.startWorkers, hsame, ih]
    rw [hsame, hstays]
    exact hempty

theorem replaced_lively (h : ItemsLively s) (hitem : ItemLively (s.outcome ≠ none) item') :
    ItemsLively (s.setItem index item') := by
  intro other found hfound
  rcases getElem?_set_cases hfound with ⟨-, rfl, -⟩ | ⟨-, hold⟩
  · exact hitem
  · exact h other found hold

theorem Lively.step (h : Lively s) (hordered : Ordered s) (e : Event D P C) :
    Lively (step stage adapter s e) := by
  have hsteps := steps stage adapter s e
  generalize hydration_staging.step stage adapter s e = s' at hsteps ⊢
  cases hsteps with
  | idle => exact h
  | answered hitem hphase moves sessions next items marks outcome =>
    rename_i index item task task'
    have hkeeps : s.outcome ≠ none → s'.outcome ≠ none := by
      intro hsome
      rw [outcome]
      simp [hsome]
    constructor
    · rw [sessions]
      exact fun hfailed => hkeeps (h.list_failed hfailed)
    · intro other found hfound
      rw [items] at hfound
      rcases getElem?_set_cases hfound with ⟨-, rfl, -⟩ | ⟨-, hold⟩
      · refine ⟨fun hrejected => (by cases hrejected), fun task'' hstaging hfailure => ?_⟩
        cases hstaging
        rw [outcome]
        exact or_ne_none hfailure
      · exact (h.items other found hold).mono hkeeps
    · intro _
      refine .inr ⟨index, { item with phase := .staging task' }, task', ?_, rfl⟩
      rw [items, List.getElem?_set_self (List.getElem?_eq_some_iff.1 hitem).1]
  | settled hitem hphase hparts hydrates =>
    rename_i index item task parts hydrated
    have hqueue : Queue (s.setItem index { item with phase := .staged task hydrated }) :=
      hordered.queue.replace hitem (by simp [hphase]) (by simp)
    have hlively : ItemsLively (s.setItem index { item with phase := .staged task hydrated }) :=
      replaced_lively h.items (.quiet (by simp) (by simp))
    have hnext : ItemsLively (State.takeNext stage
        (s.setItem index { item with phase := .staged task hydrated })) := hlively.takeNext
    constructor
    · rw [finish_sessions, takeNext_sessions]
      exact fun hfailed => finish_outcome stage (takeNext_outcome stage (h.list_failed hfailed))
    · intro other found hfound
      rw [finish_items] at hfound
      exact (hnext other found hfound).mono (finish_outcome stage)
    · intro _
      exact @startWorkers_goes_on _ _ _ _ _ stage _ 1 one_pos hqueue hlively
  | refused hitem hphase hparts hrefuses =>
    rename_i index item task parts error
    have hsettled : ((s.setItem index { item with phase := .rejected }).settleWith
        (.error error)).outcome ≠ none := by simp
    exact ⟨fun _ => hsettled, fun _ _ _ => ⟨fun _ => hsettled, fun _ _ _ => hsettled⟩,
      fun _ => .inl hsettled⟩
  | @listed response waiting =>
    obtain ⟨hnone, hzero⟩ := hordered.early waiting
    obtain ⟨loop, -, hsessions, -, hcases⟩ := answerSessions_cases stage s response
    rcases hcases with ⟨hmore, hitems, -, houtcome⟩ |
      ⟨snapshots, hresult, ⟨-, -, error, houtcome, -⟩ | ⟨calls, ids, -, hbegun⟩⟩
    · constructor
      · intro hfailed
        rw [hsessions] at hfailed
        rw [houtcome]
        exact or_ne_none hfailed
      · intro index item hitem
        rw [hitems, hnone] at hitem
        cases hitem
      · rw [hsessions]
        exact fun hdone => absurd hmore hdone
    · have hsettled : (s.answerSessions stage response).outcome ≠ none := by simp [houtcome]
      exact ⟨fun _ => hsettled, fun _ _ _ => ⟨fun _ => hsettled, fun _ _ _ => hsettled⟩,
        fun _ => .inl hsettled⟩
    · have hfailure : loop.failure = none := by
        obtain ⟨phase, pages⟩ := loop
        cases phase <;> simp_all [Loop.result, Loop.failure]
      have hqueue : Queue (listed { s with sessions := loop, calls } snapshots) :=
        listed_queue hzero snapshots
      have hlively : ItemsLively (listed { s with sessions := loop, calls } snapshots) := by
        intro index item hitem
        obtain ⟨snapshot, -, rfl⟩ := listed_item hitem
        exact .quiet (by simp) (by simp)
      have hgoes := @startWorkers_goes_on _ _ _ _ _ stage _ _ stage.workers hqueue hlively
      constructor
      · rw [hsessions, hfailure]
        exact fun hne => absurd rfl hne
      · rw [hbegun]
        intro index item hitem
        rw [finish_items] at hitem
        exact (hlively.startWorkers index item hitem).mono (finish_outcome stage)
      · rw [hbegun]
        exact fun _ => hgoes

theorem lively_start (stage : Stage) : Lively (start stage : State D F P K C) := by
  constructor
  · intro hfailed
    simp only [start, rejectWith_outcome, rejectWith_sessions] at hfailed ⊢
    exact or_ne_none hfailed
  · intro index item hitem
    simp [start] at hitem
  · intro hdone
    simp only [start, rejectWith_sessions, ask] at hdone
    split at hdone
    · exact absurd rfl hdone
    · exact absurd rfl hdone

/-- The collections of a session that has ended them are there. -/
theorem TaskSound.collected {sessionId : String} (h : TaskSound stage adapter sessionId task)
    {taken : Option P} (hdone : task.collections.result = some taken) :
    ∃ collections, taken = some collections := by
  have hreads := h.collections.reads hdone
  generalize hpages : task.collections.pages = pages at hreads
  generalize hnext : (none : Option Unit) = next at hreads
  cases hreads with
  | start => cases hnext
  | page before accepted => exact ⟨_, (takeCollections_ok.1 accepted).2.1⟩

/-- As long as the promise has not settled, an event is waited for. -/
theorem never_stuck (h : Coherent stage adapter s) (hlively : Lively s) (hopen : s.outcome = none) :
    s.sessions.isWaiting ∨ ∃ (index : Nat) (item : Item D F P K C) (task : SessionTask P C),
      s.items[index]? = some item ∧ item.phase = .staging task ∧
        (task.collections.isWaiting ∨ task.frames.isWaiting ∨ task.aiMessages.isWaiting ∨
          task.waveform.isWaiting ∨ task.parts.isSome) := by
  by_cases hwaiting : s.sessions.isWaiting
  · exact .inl hwaiting
  right
  have hfailure : s.sessions.failure = none := by
    by_contra hfailed
    exact hlively.list_failed hfailed hopen
  obtain ⟨snapshots, hresult⟩ := result_of_ended hwaiting hfailure
  obtain ⟨index, item, task, hitem, hphase⟩ :=
    (hlively.goes_on (by simp [hresult])).resolve_left (not_not.2 hopen)
  refine ⟨index, item, task, hitem, hphase, ?_⟩
  have hfailed : task.failure = none := by
    by_contra hne
    exact (hlively.items index item hitem).failed task hphase hne hopen
  simp only [SessionTask.failure, Option.or_eq_none_iff] at hfailed
  obtain ⟨hcollections, hframes, hmessages, hwaveform⟩ := hfailed
  by_contra hidle
  simp only [not_or] at hidle
  obtain ⟨hidle₁, hidle₂, hidle₃, hidle₄, hparts⟩ := hidle
  obtain ⟨taken, hcollected⟩ := result_of_ended hidle₁ hcollections
  obtain ⟨collections, rfl⟩ := ((h.items index item hitem).staging task hphase).1.collected
    hcollected
  obtain ⟨frames, hframes⟩ := result_of_ended hidle₂ hframes
  obtain ⟨messages, hmessages⟩ := result_of_ended hidle₃ hmessages
  obtain ⟨waveform, hwaveform⟩ := result_of_ended hidle₄ hwaveform
  apply hparts
  simp [SessionTask.parts, hcollected, hframes, hmessages, hwaveform]

end bbcom.hydration_staging
