-- What one event does to the staging: the sessions keep their places, each of them moves from
-- the queue to its loops and from there to its result, and every failure settles the promise.
import Bbcom.HydrationLoops
import Bbcom.Lib.Runs

open bbcom.ordered_map bbcom.page_loop bbcom.session_adapter

namespace bbcom.hydration_staging

open State

variable {D F P K C : Type} {stage : Stage} {adapter : SessionAdapter D F P K C}
  {s : State D F P K C}

/-! ## How the promise settles -/

section

variable (s) (outcome : Adapted (WorkspaceHydrationStaging F K C))
  (failure : Option WorkspaceAdapterError)

@[simp] theorem settleWith_sessions : (s.settleWith outcome).sessions = s.sessions := by
  unfold settleWith
  split <;> rfl

@[simp] theorem settleWith_items : (s.settleWith outcome).items = s.items := by
  unfold settleWith
  split <;> rfl

@[simp] theorem settleWith_next : (s.settleWith outcome).next = s.next := by
  unfold settleWith
  split <;> rfl

@[simp] theorem settleWith_nextSequences :
    (s.settleWith outcome).nextSequences = s.nextSequences := by
  unfold settleWith
  split <;> rfl

@[simp] theorem settleWith_outcome :
    (s.settleWith outcome).outcome = some (s.outcome.getD outcome) := by
  unfold settleWith
  split <;> simp_all

@[simp] theorem rejectWith_sessions : (s.rejectWith failure).sessions = s.sessions := by
  cases failure <;> simp [rejectWith]

@[simp] theorem rejectWith_items : (s.rejectWith failure).items = s.items := by
  cases failure <;> simp [rejectWith]

@[simp] theorem rejectWith_next : (s.rejectWith failure).next = s.next := by
  cases failure <;> simp [rejectWith]

@[simp] theorem rejectWith_nextSequences :
    (s.rejectWith failure).nextSequences = s.nextSequences := by
  cases failure <;> simp [rejectWith]

theorem rejectWith_outcome :
    (s.rejectWith failure).outcome = s.outcome.or (failure.map fun error => .error error) := by
  cases failure with
  | none => simp [rejectWith]
  | some error =>
    rw [rejectWith, settleWith_outcome]
    cases s.outcome <;> rfl

end

/-! ## Workers -/

/-- A session leaves the queue. -/
inductive Starts (stage : Stage) (item : Item D F P K C) : Item D F P K C → Prop
  | started {calls : Nat} {task : SessionTask P C}
      (hstart : (startSession (P := P) (C := C) stage calls).1 = .ok task) :
      Starts stage item { item with phase := .staging task }
  | refused {calls : Nat} {error : WorkspaceAdapterError}
      (hstart : (startSession (P := P) (C := C) stage calls).1 = .error error) :
      Starts stage item { item with phase := .rejected }

/-- What `takeNext` leaves as it is, and what it does to the next session. -/
theorem takeNext_cases (stage : Stage) (s : State D F P K C) :
    (s.items[s.next]? = none ∧ s.takeNext stage = s) ∨
    ∃ item item', s.items[s.next]? = some item ∧ Starts stage item item' ∧
      (s.takeNext stage).items = s.items.set s.next item' ∧
      (s.takeNext stage).next = s.next + 1 ∧
      (s.takeNext stage).sessions = s.sessions ∧
      (s.takeNext stage).nextSequences = s.nextSequences ∧
      ((item'.phase = .rejected ∧ ∃ error,
          (s.takeNext stage).outcome = some (s.outcome.getD (.error error))) ∨
        ∃ task, item'.phase = .staging task ∧ (s.takeNext stage).outcome =
          s.outcome.or (task.failure.map fun error => .error error)) := by
  unfold takeNext
  cases hitem : s.items[s.next]? with
  | none => exact .inl ⟨rfl, rfl⟩
  | some item =>
    refine .inr ?_
    simp only
    generalize hstart : startSession (P := P) (C := C) stage s.calls = started
    obtain ⟨started, calls⟩ := started
    cases started with
    | error error =>
      have herror : (startSession (P := P) (C := C) stage s.calls).1 = .error error := by
        rw [hstart]
      refine ⟨item, { item with phase := .rejected }, rfl, .refused herror, ?_⟩
      simp only [setItem, settleWith_items, settleWith_next, settleWith_sessions,
        settleWith_nextSequences, settleWith_outcome, true_and]
      exact .inl ⟨error, rfl⟩
    | ok task =>
      have hok : (startSession (P := P) (C := C) stage s.calls).1 = .ok task := by rw [hstart]
      refine ⟨item, { item with phase := .staging task }, rfl, .started hok, ?_⟩
      simp [setItem, rejectWith_outcome]

/-- The sessions from `next` on are in the queue. -/
def Queue (s : State D F P K C) : Prop :=
  ∀ index item, s.items[index]? = some item → (item.phase = .queued ↔ s.next ≤ index)

variable {item : Item D F P K C} {index : Nat}

variable {item' : Item D F P K C}

theorem Starts.phase (h : Starts stage item item') :
    item'.phase ≠ .queued := by
  cases h with
  | started hstart => simp
  | refused hstart => simp

theorem getElem?_set_cases {α : Type} {items : List α} {other : Nat} {item found : α}
    (h : (items.set index item)[other]? = some found) :
    (other = index ∧ found = item ∧ index < items.length) ∨
      (other ≠ index ∧ items[other]? = some found) := by
  rw [List.getElem?_set] at h
  split at h
  · rename_i heq
    split at h
    · rename_i hlt
      cases h
      exact .inl ⟨heq.symm, rfl, hlt⟩
    · cases h
  · rename_i hne
    exact .inr ⟨fun heq => hne heq.symm, h⟩

theorem Queue.takeNext (h : Queue s) : Queue (s.takeNext stage) := by
  rcases takeNext_cases stage s with ⟨-, hsame⟩ | ⟨item, item', hitem, hstarts, hitems, hnext, -⟩
  · rw [hsame]
    exact h
  · intro index found hfound
    rw [hitems] at hfound
    rw [hnext]
    rcases getElem?_set_cases hfound with ⟨rfl, rfl, -⟩ | ⟨hne, hold⟩
    · exact ⟨fun hqueued => absurd hqueued hstarts.phase, fun hle => by omega⟩
    · rw [h index found hold]
      omega

theorem Queue.startWorkers {workers : Nat} (h : Queue s) :
    Queue (s.startWorkers stage workers) := by
  induction workers generalizing s with
  | zero => exact h
  | succ workers ih => exact ih h.takeNext

/-- A session of the list behind the start of some workers. -/
theorem startWorkers_item {workers index : Nat} {item' : Item D F P K C} (hqueue : Queue s)
    (h : (s.startWorkers stage workers).items[index]? = some item') :
    ∃ item, s.items[index]? = some item ∧
      (item' = item ∨ (item.phase = .queued ∧ Starts stage item item')) := by
  induction workers generalizing s with
  | zero => exact ⟨item', h, .inl rfl⟩
  | succ workers ih =>
    obtain ⟨between, hbetween, hlater⟩ := ih hqueue.takeNext h
    rcases takeNext_cases stage s with ⟨-, hsame⟩ | ⟨item, first, hitem, hstarts, hitems, -⟩
    · rw [hsame] at hbetween
      exact ⟨between, hbetween, hlater⟩
    · rw [hitems] at hbetween
      rcases getElem?_set_cases hbetween with ⟨rfl, rfl, -⟩ | ⟨-, hold⟩
      · refine ⟨item, hitem, ?_⟩
        rcases hlater with rfl | ⟨hqueued, -⟩
        · exact .inr ⟨(hqueue _ _ hitem).2 le_rfl, hstarts⟩
        · exact absurd hqueued hstarts.phase
      · exact ⟨between, hold, hlater⟩

/-! ## One event -/

/-- What an answer does to the loops of its session. -/
inductive TaskMoves (stage : Stage) (adapter : SessionAdapter D F P K C) (calls index : Nat)
    (sessionId : String) (task : SessionTask P C) : Event D P C → SessionTask P C → Prop
  | collections {response : Adapted (CollectionsResponse P)} :
      TaskMoves stage adapter calls index sessionId task (.collections index response)
        { task with
          collections := (answer (takeCollections stage sessionId) (nextRequestId stage) calls
            task.collections response).1 }
  | frames {response : Adapted FramesResponse} (waiting : task.frames.isWaiting) :
      TaskMoves stage adapter calls index sessionId task (.frames index response)
        { task with
          frames := (answer (takeFrames stage sessionId) (nextRequestId stage) calls task.frames
            (observedAnswer response)).1 }
  | aiMessages {response : Adapted AiMessagesResponse} :
      TaskMoves stage adapter calls index sessionId task (.aiMessages index response)
        { task with
          aiMessages := (answer (takeAiMessages stage sessionId) (nextRequestId stage) calls
            task.aiMessages response).1 }
  | waveform {response : Adapted (WaveformResponse C)} :
      TaskMoves stage adapter calls index sessionId task (.waveform index response)
        { task with
          waveform := (answer (takeWaveform stage adapter.stringify sessionId)
            (nextRequestId stage) calls task.waveform response).1 }

/-- The high-water marks behind an event for a session. -/
def marksBehind (s : State D F P K C) (sessionId : String) :
    Event D P C → OrderedMap String (WithTop Nat)
  | .frames _ response => observe s.nextSequences sessionId (framesOfAnswer response)
  | _ => s.nextSequences

inductive Steps (stage : Stage) (adapter : SessionAdapter D F P K C) (s : State D F P K C) :
    Event D P C → State D F P K C → Prop
  | idle {e : Event D P C} : Steps stage adapter s e s
  | answered {e : Event D P C} {s' : State D F P K C} {index : Nat} {item : Item D F P K C}
      {task task' : SessionTask P C} (hitem : s.items[index]? = some item)
      (hphase : item.phase = .staging task)
      (moves : TaskMoves stage adapter s.calls index item.snapshot.id task e task')
      (sessions : s'.sessions = s.sessions) (next : s'.next = s.next)
      (items : s'.items = s.items.set index { item with phase := .staging task' })
      (marks : s'.nextSequences = marksBehind s item.snapshot.id e)
      (outcome : s'.outcome = s.outcome.or (task'.failure.map fun error => .error error)) :
      Steps stage adapter s e s'
  | settled {index : Nat} {item : Item D F P K C} {task : SessionTask P C}
      {parts : WorkspaceSessionHydrationParts P C} {hydrated : HydratedWorkspaceSession F K C}
      (hitem : s.items[index]? = some item) (hphase : item.phase = .staging task)
      (hparts : task.parts = some parts)
      (hydrates : hydrateWorkspaceSession adapter item.snapshot parts = .ok hydrated) :
      Steps stage adapter s (.settle index)
        (((s.setItem index { item with phase := .staged task hydrated }).takeNext stage).finish
          stage)
  | refused {index : Nat} {item : Item D F P K C} {task : SessionTask P C}
      {parts : WorkspaceSessionHydrationParts P C} {error : WorkspaceAdapterError}
      (hitem : s.items[index]? = some item) (hphase : item.phase = .staging task)
      (hparts : task.parts = some parts)
      (hrefuses : hydrateWorkspaceSession adapter item.snapshot parts = .error error) :
      Steps stage adapter s (.settle index)
        ((s.setItem index { item with phase := .rejected }).settleWith (.error error))
  | listed {response : Adapted (SessionsResponse D)} (waiting : s.sessions.isWaiting) :
      Steps stage adapter s (.sessions response) (s.answerSessions stage response)

theorem onTask_cases {P' : State D F P K C → Prop}
    {go : Item D F P K C → SessionTask P C → State D F P K C} (hidle : P' s)
    (hgo : ∀ item task, s.items[index]? = some item → item.phase = .staging task →
      P' (go item task)) : P' (s.onTask index go) := by
  unfold onTask
  split
  · exact hidle
  · rename_i item hitem
    split
    · rename_i task hphase
      exact hgo item task hitem hphase
    · exact hidle

theorem Steps.setTask {e : Event D P C} {calls : Nat} {task task' : SessionTask P C}
    (hitem : s.items[index]? = some item) (hphase : item.phase = .staging task)
    (moves : TaskMoves stage adapter s.calls index item.snapshot.id task e task') :
    Steps stage adapter s e
      ({ s with nextSequences := marksBehind s item.snapshot.id e }.setTask index item task'
        calls) := by
  apply Steps.answered hitem hphase moves
  · simp [State.setTask, State.setItem]
  · simp [State.setTask, State.setItem]
  · simp [State.setTask, State.setItem]
  · simp [State.setTask, State.setItem]
  · simp [State.setTask, State.setItem, rejectWith_outcome]

theorem steps (stage : Stage) (adapter : SessionAdapter D F P K C) (s : State D F P K C)
    (e : Event D P C) : Steps stage adapter s e (step stage adapter s e) := by
  cases e with
  | sessions response =>
    simp only [step]
    split
    · rename_i hwaiting
      exact .listed hwaiting
    · exact .idle
  | collections index response =>
    apply onTask_cases .idle
    intro item task hitem hphase
    exact .setTask hitem hphase .collections
  | frames index response =>
    apply onTask_cases .idle
    intro item task hitem hphase
    simp only
    split
    · rename_i hwaiting
      exact .setTask hitem hphase (.frames hwaiting)
    · exact .idle
  | aiMessages index response =>
    apply onTask_cases .idle
    intro item task hitem hphase
    exact .setTask hitem hphase .aiMessages
  | waveform index response =>
    apply onTask_cases .idle
    intro item task hitem hphase
    exact .setTask hitem hphase .waveform
  | settle index =>
    apply onTask_cases .idle
    intro item task hitem hphase
    unfold settleSession
    split
    · exact .idle
    · rename_i parts hparts
      split
      · rename_i error herror
        exact .refused hitem hphase hparts herror
      · rename_i hydrated hhydrated
        exact .settled hitem hphase hparts hhydrated

/-! ## The end of the workers -/

section

variable (stage s)

@[simp] theorem finish_items : (s.finish stage).items = s.items := by
  unfold finish
  split <;> simp

@[simp] theorem finish_sessions : (s.finish stage).sessions = s.sessions := by
  unfold finish
  split <;> simp

@[simp] theorem finish_next : (s.finish stage).next = s.next := by
  unfold finish
  split <;> simp

@[simp] theorem finish_nextSequences : (s.finish stage).nextSequences = s.nextSequences := by
  unfold finish
  split <;> simp

@[simp] theorem takeNext_sessions : (s.takeNext stage).sessions = s.sessions := by
  rcases takeNext_cases stage s with ⟨-, hsame⟩ | ⟨_, _, -, -, -, -, hsessions, -⟩
  · rw [hsame]
  · exact hsessions

@[simp] theorem takeNext_nextSequences :
    (s.takeNext stage).nextSequences = s.nextSequences := by
  rcases takeNext_cases stage s with ⟨-, hsame⟩ | ⟨_, _, -, -, -, -, -, hmarks, -⟩
  · rw [hsame]
  · exact hmarks

@[simp] theorem startWorkers_sessions (workers : Nat) :
    (s.startWorkers stage workers).sessions = s.sessions := by
  induction workers generalizing s with
  | zero => rfl
  | succ workers ih => rw [startWorkers, ih, takeNext_sessions]

@[simp] theorem startWorkers_nextSequences (workers : Nat) :
    (s.startWorkers stage workers).nextSequences = s.nextSequences := by
  induction workers generalizing s with
  | zero => rfl
  | succ workers ih => rw [startWorkers, ih, takeNext_nextSequences]

end

/-- The list of sessions, as a worker finds it. -/
def listed (s : State D F P K C) (snapshots : List (WorkspaceSessionSnapshot D)) :
    State D F P K C :=
  { s with items := snapshots.map fun snapshot => { snapshot } }

theorem listed_item {snapshots : List (WorkspaceSessionSnapshot D)}
    (h : (listed s snapshots).items[index]? = some item) :
    ∃ snapshot, snapshots[index]? = some snapshot ∧ item = { snapshot } := by
  obtain ⟨snapshot, hsnapshot, rfl⟩ := Option.map_eq_some_iff.1 (List.getElem?_map ▸ h)
  exact ⟨snapshot, hsnapshot, rfl⟩

/-- A list that is just there is all queue. -/
theorem listed_queue (h : s.next = 0) (snapshots : List (WorkspaceSessionSnapshot D)) :
    Queue (listed s snapshots) := by
  intro index item hitem
  obtain ⟨snapshot, -, rfl⟩ := listed_item hitem
  exact ⟨fun _ => h.le.trans (Nat.zero_le _), fun _ => rfl⟩

/-- What an answer to the list does: the list has more pages, or it is not taken, or the workers
start. -/
theorem answerSessions_cases (stage : Stage) (s : State D F P K C)
    (response : Adapted (SessionsResponse D)) :
    ∃ loop, loop = (answer (takeSessions stage) (nextRequestId stage) s.calls s.sessions
        response).1 ∧ (s.answerSessions stage response).sessions = loop ∧
      (s.answerSessions stage response).nextSequences = s.nextSequences ∧
      ((loop.result = none ∧ (s.answerSessions stage response).items = s.items ∧
          (s.answerSessions stage response).next = s.next ∧
          (s.answerSessions stage response).outcome =
            s.outcome.or (loop.failure.map fun error => .error error)) ∨
        ∃ snapshots, loop.result = some snapshots ∧
          (((s.answerSessions stage response).items = s.items ∧
              (s.answerSessions stage response).next = s.next ∧
              ∃ error, (s.answerSessions stage response).outcome =
                some (s.outcome.getD (.error error)) ∧ sessionIdsOf snapshots = .error error) ∨
            ∃ calls sessionIds, sessionIdsOf snapshots = .ok sessionIds ∧
              s.answerSessions stage response =
                ((listed { s with sessions := loop, calls } snapshots).startWorkers stage
                  stage.concurrency).finish stage)) := by
  unfold answerSessions
  generalize hanswer : answer (takeSessions stage) (nextRequestId stage) s.calls s.sessions
    response = answered
  obtain ⟨loop, calls⟩ := answered
  refine ⟨loop, rfl, ?_⟩
  simp only
  cases hresult : loop.result with
  | none =>
    simp only
    refine ⟨by simp, by simp, .inl ⟨trivial, by simp, by simp, ?_⟩⟩
    rw [rejectWith_outcome]
  | some snapshots =>
    have hfailure : loop.failure = none := by
      obtain ⟨phase, pages⟩ := loop
      cases phase <;> simp_all [Loop.result, Loop.failure]
    simp only [hfailure, rejectWith, begin]
    cases hids : sessionIdsOf snapshots with
    | error error =>
      simp only
      refine ⟨by simp, by simp, .inr ⟨snapshots, rfl, .inl ?_⟩⟩
      exact ⟨by simp, by simp, error, by simp, hids⟩
    | ok sessionIds =>
      simp only
      refine ⟨by simp, by simp, .inr ⟨snapshots, rfl, .inr ⟨calls, sessionIds, hids, rfl⟩⟩⟩

/-! ## The order of the sessions -/

structure Ordered (s : State D F P K C) : Prop where
  queue : Queue s
  early : s.sessions.isWaiting → s.items = [] ∧ s.next = 0

theorem Queue.replace (h : Queue s) (hitem : s.items[index]? = some item)
    (hphase : item.phase ≠ .queued) (hphase' : item'.phase ≠ .queued) :
    Queue (s.setItem index item') := by
  intro other found hfound
  rcases getElem?_set_cases hfound with ⟨rfl, rfl, -⟩ | ⟨-, hold⟩
  · exact ⟨fun hqueued => absurd hqueued hphase', fun hle => absurd ((h _ _ hitem).2 hle) hphase⟩
  · exact h other found hold

variable {s' : State D F P K C}

theorem Queue.congr (h : Queue s) (hitems : s'.items = s.items) (hnext : s'.next = s.next) :
    Queue s' := by
  intro index item hitem
  rw [hitems] at hitem
  rw [hnext]
  exact h index item hitem

theorem Ordered.not_waiting (h : Ordered s) (hitem : s.items[index]? = some item) :
    ¬s.sessions.isWaiting := by
  intro hwaiting
  rw [(h.early hwaiting).1] at hitem
  cases hitem

theorem Ordered.step (h : Ordered s) (e : Event D P C) : Ordered (step stage adapter s e) := by
  have hsteps := steps stage adapter s e
  generalize hydration_staging.step stage adapter s e = s' at hsteps ⊢
  cases hsteps with
  | idle => exact h
  | answered hitem hphase moves sessions next items marks outcome =>
    rename_i index item task task'
    constructor
    · have hqueue : Queue (s.setItem index { item with phase := .staging task' }) :=
        h.queue.replace hitem (by simp [hphase]) (by simp)
      exact hqueue.congr items next
    · intro hwaiting
      rw [sessions] at hwaiting
      exact absurd hwaiting (h.not_waiting hitem)
  | settled hitem hphase hparts hydrates =>
    rename_i index item task parts hydrated
    constructor
    · have hqueue : Queue (s.setItem index { item with phase := .staged task hydrated }) :=
        h.queue.replace hitem (by simp [hphase]) (by simp)
      exact hqueue.takeNext.congr (finish_items ..) (finish_next ..)
    · intro hwaiting
      rw [finish_sessions, takeNext_sessions] at hwaiting
      exact absurd hwaiting (h.not_waiting hitem)
  | refused hitem hphase hparts hrefuses =>
    rename_i index item task parts error
    constructor
    · have hqueue : Queue (s.setItem index { item with phase := .rejected }) :=
        h.queue.replace hitem (by simp [hphase]) (by simp)
      exact hqueue.congr (settleWith_items ..) (settleWith_next ..)
    · intro hwaiting
      rw [settleWith_sessions] at hwaiting
      exact absurd hwaiting (h.not_waiting hitem)
  | @listed response waiting =>
    obtain ⟨hnone, hzero⟩ := h.early waiting
    obtain ⟨loop, -, hsessions, -, hcases⟩ := answerSessions_cases stage s response
    rcases hcases with ⟨-, hitems, hnext, -⟩ | ⟨snapshots, hresult, hcases⟩
    · exact ⟨h.queue.congr hitems hnext, fun _ => ⟨hitems.trans hnone, hnext.trans hzero⟩⟩
    · have hdone := Loop.not_waiting_of_result hresult
      refine ⟨?_, fun hwaiting => absurd (hsessions ▸ hwaiting) hdone⟩
      rcases hcases with ⟨hitems, hnext, -⟩ | ⟨calls, sessionIds, -, hbegun⟩
      · exact h.queue.congr hitems hnext
      · rw [hbegun]
        have hfresh : Queue (listed { s with sessions := loop, calls } snapshots) :=
          listed_queue hzero snapshots
        exact hfresh.startWorkers.congr (finish_items ..) (finish_next ..)

theorem ordered_start (stage : Stage) : Ordered (start stage : State D F P K C) := by
  constructor
  · intro index item hitem
    simp [start] at hitem
  · intro _
    simp [start]

/-- What holds of each session of the list holds of each of them behind an event, if every move
that one of them may make leads to it. `P` is what holds in front of the event. -/
theorem items_behind (Before After : Nat → Item D F P K C → Prop) {e : Event D P C}
    (hordered : Ordered s) (h : Steps stage adapter s e s')
    (hbefore : ∀ index item, s.items[index]? = some item → Before index item)
    (hkeeps : ∀ index item, Before index item → After index item)
    (hlisted : ∀ response snapshots index snapshot, e = .sessions response →
      s'.sessions.result = some snapshots → snapshots[index]? = some snapshot →
        Before index { snapshot })
    (hstarts : ∀ index item item', Before index item → item.phase = .queued →
      Starts stage item item' → After index item')
    (hmoves : ∀ index item task task', s.items[index]? = some item →
      item.phase = .staging task → Before index item →
        TaskMoves stage adapter s.calls index item.snapshot.id task e task' →
          s'.nextSequences = marksBehind s item.snapshot.id e →
            After index { item with phase := .staging task' })
    (hsettles : ∀ index item task parts hydrated, item.phase = .staging task →
      Before index item → task.parts = some parts →
        hydrateWorkspaceSession adapter item.snapshot parts = .ok hydrated →
          After index { item with phase := .staged task hydrated })
    (hrefuses : ∀ index item task, item.phase = .staging task → Before index item →
      After index { item with phase := .rejected }) :
    ∀ index item, s'.items[index]? = some item → After index item := by
  have hsame : ∀ index item, s.items[index]? = some item → After index item :=
    fun index item hitem => hkeeps index item (hbefore index item hitem)
  intro index found hfound
  cases h with
  | idle => exact hsame index found hfound
  | answered hitem hphase moves sessions next items marks outcome =>
    rw [items] at hfound
    rcases getElem?_set_cases hfound with ⟨rfl, rfl, -⟩ | ⟨-, hold⟩
    · exact hmoves _ _ _ _ hitem hphase (hbefore _ _ hitem) moves marks
    · exact hsame index found hold
  | settled hitem hphase hparts hydrates =>
    rename_i place item task parts hydrated
    rw [finish_items] at hfound
    have hqueue : Queue (s.setItem place { item with phase := .staged task hydrated }) :=
      hordered.queue.replace hitem (by simp [hphase]) (by simp)
    obtain ⟨between, hbetween, hlater⟩ := @startWorkers_item _ _ _ _ _ stage _ 1 _ _ hqueue hfound
    rcases getElem?_set_cases hbetween with ⟨rfl, rfl, -⟩ | ⟨-, hold⟩
    · rcases hlater with rfl | ⟨hqueued, -⟩
      · exact hsettles _ _ _ _ _ hphase (hbefore _ _ hitem) hparts hydrates
      · cases hqueued
    · rcases hlater with rfl | ⟨hqueued, hstart⟩
      · exact hsame _ _ hold
      · exact hstarts _ _ _ (hbefore _ _ hold) hqueued hstart
  | refused hitem hphase hparts hrefused =>
    rw [settleWith_items] at hfound
    rcases getElem?_set_cases hfound with ⟨rfl, rfl, -⟩ | ⟨-, hold⟩
    · exact hrefuses _ _ _ hphase (hbefore _ _ hitem)
    · exact hsame index found hold
  | @listed response waiting =>
    obtain ⟨loop, -, hsessions, -, hcases⟩ := answerSessions_cases stage s response
    rcases hcases with ⟨-, hitems, -⟩ | ⟨snapshots, hresult, ⟨hitems, -⟩ | ⟨calls, ids, -, hbegun⟩⟩
    · exact hsame index found (hitems ▸ hfound)
    · exact hsame index found (hitems ▸ hfound)
    · rw [hbegun, finish_items] at hfound
      have hfresh : Queue (listed { s with sessions := loop, calls } snapshots) :=
        listed_queue (hordered.early waiting).2 snapshots
      obtain ⟨fresh, hitem, hlater⟩ := startWorkers_item hfresh hfound
      obtain ⟨snapshot, hsnapshot, rfl⟩ := listed_item hitem
      have hlist := hlisted response snapshots index snapshot rfl (hsessions ▸ hresult) hsnapshot
      rcases hlater with rfl | ⟨hqueued, hstart⟩
      · exact hkeeps _ _ hlist
      · exact hstarts _ _ _ hlist hqueued hstart

end bbcom.hydration_staging
