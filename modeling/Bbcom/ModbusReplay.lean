-- The coordinator of a replay (`modbus-replay-coordinator.ts`): recorded items in the order of
-- their timestamps, one timer at a time, each item awaited before the next is timed. A start or
-- a stop begins a new generation while items of an earlier one may still be awaited.
import Bbcom.Lib.Runs

open bbcom.runs

namespace bbcom.modbus_replay

open List Nat

/-! ## The coordinator -/

/-- An item of a replay: its timestamp, and whatever else it carries. -/
structure ModbusReplayItem (β : Type) where
  ts : ℚ
  item : β
  deriving DecidableEq

/-- A timer of the host that is set and has not fired, with the generation that its callback
captured. -/
structure ReplayTimer where
  id : Nat
  generation : Nat
  delay : ℚ
  deriving DecidableEq

/-- What the coordinator tells its owner, with the generation that it happens in. -/
inductive Notice (β : Type)
  | begun (generation : Nat) (items : List (ModbusReplayItem β))
  | item (generation : Nat) (item : ModbusReplayItem β)
  | progress (remaining : Nat)
  | error
  | idle (generation : Nat)
  deriving DecidableEq

/-- The fields of the coordinator, the timers of the host, the generations of the items that are
awaited, and all notices in order. -/
structure ModbusReplayCoordinator (β : Type) where
  queue : List (ModbusReplayItem β)
  timer : Option Nat
  baseTs : ℚ
  startWall : ℚ
  running : Bool
  generation : Nat
  liveTimers : List ReplayTimer
  nextTimer : Nat
  awaited : List Nat
  notices : List (Notice β)

/-- `[...items].sort((a, b) => a.ts - b.ts)`: a stable sort. -/
def sortByTs {β : Type} (items : List (ModbusReplayItem β)) : List (ModbusReplayItem β) :=
  items.mergeSort (fun a b => decide (a.ts - b.ts ≤ 0))

variable {β : Type}

namespace ModbusReplayCoordinator

def new : ModbusReplayCoordinator β := ⟨[], none, 0, 0, false, 0, [], 0, [], []⟩

variable (s : ModbusReplayCoordinator β)

def clearTimer : ModbusReplayCoordinator β :=
  match s.timer with
  | some id => { s with liveTimers := s.liveTimers.filter (·.id ≠ id), timer := none }
  | none => s

def notify (notice : Notice β) : ModbusReplayCoordinator β :=
  { s with notices := s.notices ++ [notice] }

def stop : ModbusReplayCoordinator β :=
  let wasRunning := s.running
  let stopped := { s with generation := s.generation + 1, running := false }.clearTimer
  let stopped := { stopped with queue := [] }
  if wasRunning then stopped.notify (.idle s.generation) else stopped

def finish (generation : Nat) : ModbusReplayCoordinator β :=
  if generation ≠ s.generation then s
  else
    let wasRunning := s.running
    let finished := { s with running := false }.clearTimer
    let finished := { finished with queue := [] }
    if wasRunning then finished.notify (.idle generation) else finished

def scheduleNext (generation : Nat) (now : ℚ) : ModbusReplayCoordinator β :=
  match s.queue with
  | next :: _ =>
    if !s.running ∨ generation ≠ s.generation then s.finish generation
    else
      let dueAt := s.startWall + max 0 (next.ts - s.baseTs)
      let delay := max 0 (dueAt - now)
      { s with
          timer := some s.nextTimer
          liveTimers := s.liveTimers ++ [⟨s.nextTimer, generation, delay⟩]
          nextTimer := s.nextTimer + 1 }
  | [] => s.finish generation

/-- The fields that `start` sets, once the items are sorted. -/
def startWith (items : List (ModbusReplayItem β)) (first : ModbusReplayItem β)
    (rest : List (ModbusReplayItem β)) (now : ℚ) : ModbusReplayCoordinator β :=
  { s with
      queue := first :: rest
      baseTs := first.ts
      startWall := now
      running := true
      generation := s.generation + 1
      notices := s.notices ++ [.begun (s.generation + 1) items, .progress (rest.length + 1)] }

/-- `start`, which reads the clock twice. -/
def start (items : List (ModbusReplayItem β)) (now now' : ℚ) : ModbusReplayCoordinator β :=
  match sortByTs items with
  | [] => s.stop
  | first :: rest =>
    let s := s.stop.startWith items first rest now
    s.scheduleNext s.generation now'

/-- `runOne` up to its `await`. -/
def runOne (generation : Nat) : ModbusReplayCoordinator β :=
  if !s.running ∨ generation ≠ s.generation then s
  else
    match s.queue with
    | [] => s.finish generation
    | item :: queue =>
      { s with queue, awaited := s.awaited ++ [generation] }.notify (.item generation item)

/-- `runOne` from its `await` on: the item of `generation` is done, well or not. -/
def resume (generation : Nat) (failed : Bool) (now : ℚ) : ModbusReplayCoordinator β :=
  let s := if failed ∧ s.running ∧ generation = s.generation then s.notify .error else s
  if !s.running ∨ generation ≠ s.generation then s
  else (s.notify (.progress s.queue.length)).scheduleNext generation now

end ModbusReplayCoordinator

inductive Event (β : Type)
  | start (items : List (ModbusReplayItem β)) (now now' : ℚ)
  | stop
  | fire (id : Nat)
  | complete (index : Nat) (failed : Bool) (now : ℚ)

/-- One thing that happens. A timer fires, or an awaited item is done, only if there is such a
timer or item. -/
def step (s : ModbusReplayCoordinator β) : Event β → ModbusReplayCoordinator β
  | .start items now now' => s.start items now now'
  | .stop => s.stop
  | .fire id =>
    match s.liveTimers.find? (·.id = id) with
    | some timer =>
      { s with
          liveTimers := s.liveTimers.filter (·.id ≠ id)
          timer := none }.runOne timer.generation
    | none => s
  | .complete index failed now =>
    match s.awaited[index]? with
    | some generation =>
      { s with awaited := s.awaited.eraseIdx index }.resume generation failed now
    | none => s

/-! ## What the notices say of one generation -/

def begunOf (generation : Nat) (notices : List (Notice β)) : List (List (ModbusReplayItem β)) :=
  notices.filterMap fun
    | .begun g items => if g = generation then some items else none
    | _ => none

def itemsOf (generation : Nat) (notices : List (Notice β)) : List (ModbusReplayItem β) :=
  notices.filterMap fun
    | .item g item => if g = generation then some item else none
    | _ => none

def idleOf (generation : Nat) (notices : List (Notice β)) : Nat :=
  notices.countP fun
    | .idle g => g = generation
    | _ => false

section projections

variable (generation : Nat) (notices more : List (Notice β))

@[simp] theorem begunOf_append :
    begunOf generation (notices ++ more) =
      begunOf generation notices ++ begunOf generation more := by
  simp [begunOf]

@[simp] theorem itemsOf_append :
    itemsOf generation (notices ++ more) =
      itemsOf generation notices ++ itemsOf generation more := by
  simp [itemsOf]

@[simp] theorem idleOf_append :
    idleOf generation (notices ++ more) = idleOf generation notices + idleOf generation more := by
  simp [idleOf]

end projections

/-! ## The order of a replay -/

theorem sortByTs_perm (items : List (ModbusReplayItem β)) : (sortByTs items).Perm items :=
  mergeSort_perm _ _

theorem sortByTs_sorted (items : List (ModbusReplayItem β)) :
    (sortByTs items).Pairwise (fun a b => a.ts ≤ b.ts) := by
  have hsorted : (sortByTs items).Pairwise (fun a b => decide (a.ts - b.ts ≤ 0) = true) := by
    apply pairwise_mergeSort
    · intro a b c hab hbc
      simp only [decide_eq_true_eq] at *
      linarith
    · intro a b
      simpa using le_total a.ts b.ts
  exact hsorted.imp (fun h => by simpa using h)

/-! ## The invariant -/

variable {s : ModbusReplayCoordinator β} {g : Nat}

/-- The generation is the one that runs. -/
def Current (s : ModbusReplayCoordinator β) (g : Nat) : Prop :=
  s.running = true ∧ s.generation = g

instance (s : ModbusReplayCoordinator β) (g : Nat) : Decidable (Current s g) :=
  inferInstanceAs (Decidable (_ ∧ _))

/-- What was told of one generation: nothing, if it is none that was started; the items so far, in
front of the queue, while it runs; then the items that it came to, and that it is idle. -/
inductive Book (s : ModbusReplayCoordinator β) (g : Nat) : Prop
  | unused (not_begun : begunOf g s.notices = []) (no_item : itemsOf g s.notices = [])
      (not_idle : idleOf g s.notices = 0) (not_current : ¬ Current s g)
  | runs (items : List (ModbusReplayItem β)) (begun : begunOf g s.notices = [items])
      (so_far : itemsOf g s.notices ++ s.queue = sortByTs items)
      (not_idle : idleOf g s.notices = 0) (current : Current s g)
  | completed (items : List (ModbusReplayItem β)) (begun : begunOf g s.notices = [items])
      (came_to : itemsOf g s.notices <+: sortByTs items)
      (idle_once : idleOf g s.notices = 1) (not_current : ¬ Current s g)

/-- What the current generation waits for: nothing, its timer, or its item. -/
inductive Waits (s : ModbusReplayCoordinator β) : Prop
  | nothing (stopped : s.running = false) (no_timer : s.timer = none)
      (none_live : s.liveTimers = []) (no_queue : s.queue = [])
      (not_awaited : s.generation ∉ s.awaited)
  | timer (t : ReplayTimer) (runs : s.running = true) (known : s.timer = some t.id)
      (live : s.liveTimers = [t]) (own : t.generation = s.generation) (more : s.queue ≠ [])
      (not_awaited : s.generation ∉ s.awaited)
  | item (runs : s.running = true) (no_timer : s.timer = none) (none_live : s.liveTimers = [])
      (awaited_once : s.awaited.count s.generation = 1)

structure Sound (s : ModbusReplayCoordinator β) : Prop where
  book : ∀ g, Book s g
  waits : Waits s
  unused_later : ∀ g, s.generation < g → begunOf g s.notices = []
  awaited_le : ∀ g ∈ s.awaited, g ≤ s.generation

theorem sound_new : Sound (.new : ModbusReplayCoordinator β) where
  book g := .unused rfl rfl rfl (fun h => by cases h.1)
  waits := .nothing rfl rfl rfl rfl (by rintro ⟨⟩)
  unused_later g _ := rfl
  awaited_le g hg := by cases hg

variable {t : ModbusReplayCoordinator β}

/-- A generation that does not run, before or after, is left alone by notices of others. -/
theorem Book.frame (h : Book s g) (hbefore : ¬ Current s g) (hafter : ¬ Current t g)
    (hbegun : begunOf g t.notices = begunOf g s.notices)
    (hitems : itemsOf g t.notices = itemsOf g s.notices)
    (hidle : idleOf g t.notices = idleOf g s.notices) : Book t g := by
  cases h with
  | unused not_begun no_item not_idle _ =>
    exact .unused (hbegun.trans not_begun) (hitems.trans no_item) (hidle.trans not_idle) hafter
  | runs _ _ _ _ current => exact absurd current hbefore
  | completed items begun came_to idle_once _ =>
    exact .completed items (hbegun.trans begun) (hitems ▸ came_to) (hidle.trans idle_once) hafter

/-- The book does not look at timers or at what is awaited. -/
theorem Book.congr (h : Book s g) (hqueue : t.queue = s.queue)
    (hcurrent : Current t g ↔ Current s g) (hbegun : begunOf g t.notices = begunOf g s.notices)
    (hitems : itemsOf g t.notices = itemsOf g s.notices)
    (hidle : idleOf g t.notices = idleOf g s.notices) : Book t g := by
  by_cases hruns : Current s g
  · cases h with
    | unused _ _ _ not_current => exact absurd hruns not_current
    | runs items begun so_far not_idle _ =>
      refine .runs items (hbegun.trans begun) ?_ (hidle.trans not_idle) (hcurrent.mpr hruns)
      rwa [hitems, hqueue]
    | completed _ _ _ _ not_current => exact absurd hruns not_current
  · exact h.frame hruns (fun hafter => hruns (hcurrent.mp hafter)) hbegun hitems hidle

/-- The current generation is told to be idle. -/
theorem Book.over (h : Book s g) (hcurrent : Current s g) (hafter : ¬ Current t g)
    (hnotices : t.notices = s.notices ++ [.idle g]) : Book t g := by
  cases h with
  | unused _ _ _ not_current => exact absurd hcurrent not_current
  | runs items begun so_far not_idle _ =>
    refine .completed items ?_ ?_ ?_ hafter
    · simpa [hnotices, begunOf] using begun
    · rw [← so_far, hnotices]
      simp [itemsOf]
    · rw [hnotices, idleOf_append, not_idle]
      simp [idleOf]
  | completed _ _ _ _ not_current => exact absurd hcurrent not_current

/-! ## What the calls do -/

/-- The timer that is known is the only one that lives. -/
def OneTimer (s : ModbusReplayCoordinator β) : Prop :=
  s.timer = none ∧ s.liveTimers = [] ∨ ∃ t : ReplayTimer, s.timer = some t.id ∧ s.liveTimers = [t]

theorem Waits.oneTimer (h : Waits s) : OneTimer s := by
  cases h with
  | nothing _ no_timer none_live _ _ => exact .inl ⟨no_timer, none_live⟩
  | timer t _ known live _ _ _ => exact .inr ⟨t, known, live⟩
  | item _ no_timer none_live _ => exact .inl ⟨no_timer, none_live⟩

open ModbusReplayCoordinator

theorem clearTimer_eq (h : OneTimer s) :
    s.clearTimer = { s with timer := none, liveTimers := [] } := by
  obtain ⟨queue, timer, baseTs, startWall, running, generation, liveTimers, nextTimer, awaited,
    notices⟩ := s
  rcases h with ⟨hnone, hlive⟩ | ⟨t, hknown, hlive⟩
  · cases hnone
    cases hlive
    rfl
  · cases hknown
    cases hlive
    simp [clearTimer]

/-- What is left once a generation is over. -/
def idle (s : ModbusReplayCoordinator β) (generation : Nat) (told : List (Notice β)) :
    ModbusReplayCoordinator β :=
  { s with
    queue := [], timer := none, running := false, liveTimers := [], generation
    notices := s.notices ++ told }

theorem stop_eq (h : Waits s) :
    s.stop = idle s (s.generation + 1) (if s.running then [.idle s.generation] else []) := by
  unfold stop
  rw [clearTimer_eq (s := { s with generation := s.generation + 1, running := false }) h.oneTimer]
  split <;> simp [idle, notify, *]

theorem finish_eq (h : OneTimer s) (hrunning : s.running = true) :
    s.finish s.generation = idle s s.generation [.idle s.generation] := by
  unfold finish
  rw [clearTimer_eq (s := { s with running := false }) h]
  simp [idle, notify, hrunning]

/-- The next item is timed, or there is none and the generation is over. -/
theorem scheduleNext_eq (hrunning : s.running = true) (htimer : s.timer = none)
    (hlive : s.liveTimers = []) (now : ℚ) :
    (s.queue = [] ∧ s.scheduleNext s.generation now = idle s s.generation [.idle s.generation]) ∨
    (s.queue ≠ [] ∧ ∃ delay, s.scheduleNext s.generation now =
      { s with
        timer := some s.nextTimer, liveTimers := [⟨s.nextTimer, s.generation, delay⟩],
        nextTimer := s.nextTimer + 1 }) := by
  unfold scheduleNext
  rcases hqueue : s.queue with _ | ⟨next, queue⟩
  · exact .inl ⟨rfl, finish_eq (.inl ⟨htimer, hlive⟩) hrunning⟩
  · exact .inr ⟨by simp, _, by simp [hrunning, hlive, ← hqueue]; rfl⟩

theorem Sound.stop (h : Sound s) : Sound s.stop := by
  rw [stop_eq h.waits]
  have hnot : ∀ g told, ¬ Current (idle s (s.generation + 1) told) g := fun g told h => by cases h.1
  refine ⟨fun g => ?_, .nothing rfl rfl rfl rfl ?_, ?_, ?_⟩
  · by_cases hcurrent : Current s g
    · obtain ⟨hrunning, rfl⟩ := hcurrent
      exact (h.book _).over ⟨hrunning, rfl⟩ (hnot _ _) (by simp [idle, hrunning])
    · apply (h.book g).frame hcurrent (hnot _ _)
      · split <;> simp [idle, begunOf]
      · split <;> simp [idle, itemsOf]
      · split
        · rename_i hrunning
          have hother : s.generation ≠ g := fun heq => hcurrent ⟨hrunning, heq⟩
          simp [idle, idleOf, hother]
        · simp [idle, idleOf]
  · intro hawaited
    have hle := h.awaited_le _ hawaited
    simp only [idle] at hle
    omega
  · intro g hg
    have hbegun := h.unused_later g (by simp only [idle] at hg; omega)
    simp only [idle, begunOf_append, hbegun]
    split <;> simp [begunOf]
  · intro g hg
    exact le_succ_of_le (h.awaited_le g hg)

/-- The timer or the end that `scheduleNext` comes to keeps the invariant, where nothing else is
waited for. -/
theorem Sound.scheduleNext (hbook : ∀ g, Book s g) (hrunning : s.running = true)
    (htimer : s.timer = none) (hlive : s.liveTimers = []) (hawaited : s.generation ∉ s.awaited)
    (hlater : ∀ g, s.generation < g → begunOf g s.notices = [])
    (hle : ∀ g ∈ s.awaited, g ≤ s.generation) (now : ℚ) :
    Sound (s.scheduleNext s.generation now) := by
  rcases scheduleNext_eq hrunning htimer hlive now with ⟨hqueue, heq⟩ | ⟨hqueue, delay, heq⟩
  · rw [heq]
    have hnot : ∀ g told, ¬ Current (idle s s.generation told) g := fun g told h => by cases h.1
    refine ⟨fun g => ?_, .nothing rfl rfl rfl rfl hawaited, ?_, hle⟩
    · by_cases hcurrent : Current s g
      · obtain ⟨-, rfl⟩ := hcurrent
        exact (hbook _).over ⟨hrunning, rfl⟩ (hnot _ _) rfl
      · have hother : s.generation ≠ g := fun heq => hcurrent ⟨hrunning, heq⟩
        apply (hbook g).frame hcurrent (hnot _ _)
        · simp [idle, begunOf]
        · simp [idle, itemsOf]
        · simp [idle, idleOf, hother]
    · intro g hg
      simp [idle, begunOf, ← hlater g hg]
  · rw [heq]
    refine ⟨fun g => ?_, .timer _ hrunning rfl rfl rfl hqueue hawaited, hlater, hle⟩
    exact (hbook g).congr rfl Iff.rfl rfl rfl rfl

/-- A new generation begins, where none runs. -/
theorem Sound.startWith (h : Sound s) (hstill : s.running = false)
    {items rest : List (ModbusReplayItem β)} {first : ModbusReplayItem β}
    (hsorted : sortByTs items = first :: rest) (now : ℚ) (g : Nat) :
    Book (s.startWith items first rest now) g := by
  have hbefore : ¬ Current s g := fun hcurrent => by
    rw [hcurrent.1] at hstill
    cases hstill
  by_cases hnew : s.generation + 1 = g
  · subst hnew
    have hunused := h.unused_later (s.generation + 1) (lt_succ_self _)
    cases h.book (s.generation + 1) with
    | unused not_begun no_item not_idle _ =>
      refine .runs items ?_ ?_ ?_ ⟨rfl, rfl⟩
      · simp only [ModbusReplayCoordinator.startWith, begunOf_append, not_begun]
        simp [begunOf]
      · simp only [ModbusReplayCoordinator.startWith, itemsOf_append, no_item, hsorted]
        rfl
      · simp only [ModbusReplayCoordinator.startWith, idleOf_append, not_idle]
        simp [idleOf]
    | runs _ _ _ _ current => exact absurd current hbefore
    | completed _ begun _ _ _ => simp [hunused] at begun
  · refine (h.book g).frame hbefore ?_ ?_ ?_ ?_
    · exact fun hcurrent => hnew hcurrent.2
    · simp [ModbusReplayCoordinator.startWith, begunOf, hnew]
    · simp [ModbusReplayCoordinator.startWith, itemsOf]
    · simp [ModbusReplayCoordinator.startWith, idleOf]

theorem stop_still (h : Waits s) :
    s.stop.running = false ∧ s.stop.timer = none ∧ s.stop.liveTimers = [] := by
  rw [stop_eq h]
  exact ⟨rfl, rfl, rfl⟩

theorem Sound.start (h : Sound s) (items : List (ModbusReplayItem β)) (now now' : ℚ) :
    Sound (s.start items now now') := by
  have hstopped := h.stop
  obtain ⟨hstill, htimer, hlive⟩ := stop_still h.waits
  unfold ModbusReplayCoordinator.start
  split
  · exact hstopped
  · rename_i first rest hsorted
    apply Sound.scheduleNext
    · exact hstopped.startWith hstill hsorted now
    · rfl
    · exact htimer
    · exact hlive
    · intro hawaited
      have hle := hstopped.awaited_le _ hawaited
      simp only [ModbusReplayCoordinator.startWith] at hle
      omega
    · intro g hg
      simp only [ModbusReplayCoordinator.startWith] at hg
      have hother : s.stop.generation + 1 ≠ g := by omega
      have hbegun := hstopped.unused_later g (by omega)
      simp only [ModbusReplayCoordinator.startWith, begunOf_append, hbegun]
      simp [begunOf, hother]
    · intro g hg
      exact le_succ_of_le (hstopped.awaited_le g hg)

/-- A timer that lives is the one that the current generation waits for. -/
theorem fire_eq (h : Waits s) (id : Nat) :
    step s (.fire id) = s ∨
    ∃ item queue, s.running = true ∧ s.queue = item :: queue ∧ s.generation ∉ s.awaited ∧
      step s (.fire id) =
        { s with
          queue, timer := none, liveTimers := [], awaited := s.awaited ++ [s.generation]
          notices := s.notices ++ [.item s.generation item] } := by
  cases h with
  | nothing _ _ none_live _ _ => exact .inl (by simp [step, none_live])
  | item _ _ none_live _ => exact .inl (by simp [step, none_live])
  | timer t runs known live own more not_awaited =>
    by_cases hid : t.id = id
    · obtain ⟨item, queue, hqueue⟩ := exists_cons_of_ne_nil more
      refine .inr ⟨item, queue, runs, hqueue, not_awaited, ?_⟩
      simp [step, live, hid, runOne, runs, own, hqueue, notify]
    · exact .inl (by simp [step, live, hid])

theorem Sound.fire (h : Sound s) (id : Nat) : Sound (step s (.fire id)) := by
  rcases fire_eq h.waits id with heq | ⟨item, queue, hrunning, hqueue, hawaited, heq⟩
  · rwa [heq]
  · rw [heq]
    refine ⟨fun g => ?_, .item hrunning rfl rfl ?_, ?_, ?_⟩
    · by_cases hown : s.generation = g
      · subst hown
        cases h.book s.generation with
        | unused _ _ _ not_current => exact absurd ⟨hrunning, rfl⟩ not_current
        | runs items begun so_far not_idle current =>
          refine .runs items ?_ ?_ ?_ current
          · simpa [begunOf] using begun
          · rw [← so_far, hqueue]
            simp [itemsOf]
          · rw [idleOf_append, not_idle]
            simp [idleOf]
        | completed _ _ _ _ not_current => exact absurd ⟨hrunning, rfl⟩ not_current
      · have hnot : ¬ Current s g := fun hcurrent => hown hcurrent.2
        refine (h.book g).frame hnot ?_ ?_ ?_ ?_
        · exact fun hcurrent => hown hcurrent.2
        · simp [begunOf]
        · simp [itemsOf, hown]
        · simp [idleOf]
    · simp [count_append, count_eq_zero.mpr hawaited]
    · intro g hg
      simpa [begunOf] using h.unused_later g hg
    · intro g hg
      rcases mem_append.mp hg with hg | hg
      · exact h.awaited_le g hg
      · exact le_of_eq (mem_singleton.mp hg)

/-- An awaited item is done: one of an earlier generation is no more than forgotten, and after
one of the current generation the next is timed. -/
theorem complete_eq (h : Waits s) (index : Nat) (failed : Bool) (now : ℚ) :
    step s (.complete index failed now) = s ∨
    (∃ g, s.awaited[index]? = some g ∧ (g = s.generation → s.running = false) ∧
      step s (.complete index failed now) = { s with awaited := s.awaited.eraseIdx index }) ∨
    (s.awaited[index]? = some s.generation ∧ s.running = true ∧ s.timer = none ∧
      s.liveTimers = [] ∧ s.awaited.count s.generation = 1 ∧
      ∃ told : List (Notice β), (∀ notice ∈ told, notice = .error ∨ ∃ n, notice = .progress n) ∧
      step s (.complete index failed now) =
        ({ s with
            awaited := s.awaited.eraseIdx index
            notices := s.notices ++ told } : ModbusReplayCoordinator β).scheduleNext
          s.generation now) := by
  rcases hindex : s.awaited[index]? with _ | g
  · exact .inl (by simp [step, hindex])
  · by_cases hlive : s.running = true ∧ g = s.generation
    · obtain ⟨hrunning, rfl⟩ := hlive
      have hmember : s.generation ∈ s.awaited := mem_of_getElem? hindex
      cases h with
      | nothing stopped _ _ _ _ => simp [hrunning] at stopped
      | timer _ _ _ _ _ _ not_awaited => exact absurd hmember not_awaited
      | item _ no_timer none_live awaited_once =>
        refine .inr (.inr ⟨rfl, hrunning, no_timer, none_live, awaited_once, ?_⟩)
        cases failed with
        | false =>
          refine ⟨[.progress s.queue.length], by simp, ?_⟩
          simp [step, hindex, resume, hrunning, notify]
        | true =>
          refine ⟨[.error, .progress s.queue.length], by simp, ?_⟩
          simp [step, hindex, resume, hrunning, notify]
    · have hold : g = s.generation → s.running = false := fun hg => by
        simpa using fun hrunning => hlive ⟨hrunning, hg⟩
      refine .inr (.inl ⟨g, rfl, hold, ?_⟩)
      have hskip : s.running = false ∨ ¬ g = s.generation := by
        by_cases hg : g = s.generation
        · exact .inl (hold hg)
        · exact .inr hg
      rcases hskip with hskip | hskip <;>
        simp [step, hindex, resume, hskip]

/-- A notice of progress or of an error is no notice of a generation. -/
theorem quiet_notices (g : Nat) {told : List (Notice β)}
    (htold : ∀ notice ∈ told, notice = .error ∨ ∃ n, notice = .progress n) :
    begunOf g told = [] ∧ itemsOf g told = [] ∧ idleOf g told = 0 := by
  refine ⟨?_, ?_, ?_⟩
  · rw [begunOf, filterMap_eq_nil_iff]
    intro notice hin
    rcases htold notice hin with rfl | ⟨n, rfl⟩ <;> rfl
  · rw [itemsOf, filterMap_eq_nil_iff]
    intro notice hin
    rcases htold notice hin with rfl | ⟨n, rfl⟩ <;> rfl
  · rw [idleOf, countP_eq_zero]
    intro notice hin
    rcases htold notice hin with rfl | ⟨n, rfl⟩ <;> simp

theorem count_eraseIdx {awaited : List Nat} {index : Nat} (hindex : awaited[index]? = some g)
    (other : Nat) :
    awaited.count other = (awaited.eraseIdx index).count other + if g = other then 1 else 0 := by
  obtain ⟨hlt, hget⟩ := List.getElem?_eq_some_iff.mp hindex
  rw [← (getElem_cons_eraseIdx_perm hlt).count_eq, hget, count_cons]
  simp

theorem Sound.complete (h : Sound s) (index : Nat) (failed : Bool) (now : ℚ) :
    Sound (step s (.complete index failed now)) := by
  have hle : ∀ g ∈ s.awaited.eraseIdx index, g ≤ s.generation :=
    fun g hg => h.awaited_le g (mem_of_mem_eraseIdx hg)
  rcases complete_eq h.waits index failed now with
    heq | ⟨g, hindex, hold, heq⟩ | ⟨hindex, hrunning, htimer, hlive, honce, told, htold, heq⟩
  · rwa [heq]
  · rw [heq]
    refine ⟨fun g' => (h.book g').congr rfl Iff.rfl rfl rfl rfl, ?_, h.unused_later, hle⟩
    have hmore : s.generation ∉ s.awaited → s.generation ∉ s.awaited.eraseIdx index :=
      fun hnot hin => hnot (mem_of_mem_eraseIdx hin)
    cases h.waits with
    | nothing stopped no_timer none_live no_queue not_awaited =>
      exact .nothing stopped no_timer none_live no_queue (hmore not_awaited)
    | timer t runs known live own more not_awaited =>
      exact .timer t runs known live own more (hmore not_awaited)
    | item runs no_timer none_live awaited_once =>
      have hother : g ≠ s.generation := fun hg => by
        rw [hold hg] at runs
        cases runs
      refine .item runs no_timer none_live ?_
      rw [count_eraseIdx hindex] at awaited_once
      simpa [hother] using awaited_once
  · have hquiet : ∀ g, begunOf g told = [] ∧ itemsOf g told = [] ∧ idleOf g told = 0 :=
      fun g => quiet_notices g htold
    rw [heq]
    apply Sound.scheduleNext
    · intro g
      obtain ⟨hbegun, hitems, hidle⟩ := hquiet g
      refine (h.book g).congr rfl Iff.rfl ?_ ?_ ?_
      · simp [hbegun]
      · simp [hitems]
      · simp [hidle]
    · exact hrunning
    · exact htimer
    · exact hlive
    · rw [count_eraseIdx hindex] at honce
      apply count_eq_zero.mp
      simpa using honce
    · intro g hg
      simpa [(hquiet g).1] using h.unused_later g hg
    · exact hle

/-! ## Every run -/

theorem Sound.step (h : Sound s) (e : Event β) : Sound (modbus_replay.step s e) := by
  cases e with
  | start items now now' => exact h.start items now now'
  | stop => exact h.stop
  | fire id => exact h.fire id
  | complete index failed now => exact h.complete index failed now

theorem sound_run (events : List (Event β)) :
    Sound (run step (.new : ModbusReplayCoordinator β) events) :=
  run_invariant (fun _ e h => h.step e) sound_new events

theorem scheduleNext_keeps (hrunning : s.running = true) (htimer : s.timer = none)
    (hlive : s.liveTimers = []) (now : ℚ) :
    (s.scheduleNext s.generation now).generation = s.generation ∧
      ∀ g, itemsOf g (s.scheduleNext s.generation now).notices = itemsOf g s.notices := by
  rcases scheduleNext_eq hrunning htimer hlive now with ⟨-, heq⟩ | ⟨-, delay, heq⟩
  · rw [heq]
    exact ⟨rfl, fun g => by simp [idle, itemsOf]⟩
  · rw [heq]
    exact ⟨rfl, fun g => rfl⟩

/-- The generation goes on, and no item is begun. -/
structure Supersedes (t s : ModbusReplayCoordinator β) : Prop where
  beyond : s.generation < t.generation
  items : ∀ g, itemsOf g t.notices = itemsOf g s.notices

theorem stop_supersedes (h : Waits s) : Supersedes s.stop s := by
  rw [stop_eq h]
  refine ⟨lt_succ_self _, fun g => ?_⟩
  simp only [idle, itemsOf_append]
  split <;> simp [itemsOf]

theorem start_supersedes (h : Waits s) (items : List (ModbusReplayItem β)) (now now' : ℚ) :
    Supersedes (s.start items now now') s := by
  have hstop := stop_supersedes h
  obtain ⟨-, htimer, hlive⟩ := stop_still h
  unfold start
  split
  · exact hstop
  · rename_i first rest hsorted
    obtain ⟨hgeneration, hitems⟩ := scheduleNext_keeps
      (s := s.stop.startWith items first rest now) rfl htimer hlive now'
    refine ⟨?_, fun g => ?_⟩
    · exact (hstop.beyond.trans (lt_succ_self _)).trans_eq hgeneration.symm
    · rw [hitems g, ← hstop.items g]
      simp [startWith, itemsOf]

/-- The generation never goes back, and only items of the current one are begun. -/
structure Onward (t s : ModbusReplayCoordinator β) : Prop where
  onward : s.generation ≤ t.generation
  items : ∀ g, g ≠ s.generation → itemsOf g t.notices = itemsOf g s.notices

theorem Supersedes.onward (h : Supersedes t s) : Onward t s :=
  ⟨le_of_lt h.beyond, fun g _ => h.items g⟩

theorem Sound.onward (h : Sound s) (e : Event β) : Onward (modbus_replay.step s e) s := by
  cases e with
  | start items now now' => exact (start_supersedes h.waits items now now').onward
  | stop => exact (stop_supersedes h.waits).onward
  | fire id =>
    rcases fire_eq h.waits id with heq | ⟨item, queue, -, -, -, heq⟩
    · rw [heq]
      exact ⟨le_refl _, fun g _ => rfl⟩
    · rw [heq]
      refine ⟨le_refl _, fun g hg => ?_⟩
      simp [itemsOf, Ne.symm hg]
  | complete index failed now =>
    rcases complete_eq h.waits index failed now with
      heq | ⟨g, -, -, heq⟩ | ⟨-, hrunning, htimer, hlive, -, told, htold, heq⟩
    · rw [heq]
      exact ⟨le_refl _, fun g _ => rfl⟩
    · rw [heq]
      exact ⟨le_refl _, fun g _ => rfl⟩
    · rw [heq]
      obtain ⟨hgeneration, hitems⟩ := scheduleNext_keeps
        (s := { s with awaited := s.awaited.eraseIdx index, notices := s.notices ++ told })
        hrunning htimer hlive now
      refine ⟨le_of_eq hgeneration.symm, fun g _ => ?_⟩
      rw [hitems g]
      simp [(quiet_notices g htold).2.1]

/-- The coordinator is past a generation: its items and those before it are as they were. -/
structure Past (n : Nat) (before : Nat → List (ModbusReplayItem β))
    (s : ModbusReplayCoordinator β) : Prop where
  sound : Sound s
  beyond : n < s.generation
  items : ∀ g ≤ n, itemsOf g s.notices = before g

theorem Past.step {n : Nat} {before : Nat → List (ModbusReplayItem β)} (h : Past n before s)
    (e : Event β) : Past n before (modbus_replay.step s e) where
  sound := h.sound.step e
  beyond := h.beyond.trans_le (h.sound.onward e).onward
  items g hg := by
    have hbeyond := h.beyond
    rw [(h.sound.onward e).items g (by omega), h.items g hg]

/-- After a stop or a new start no item of an earlier generation begins. -/
theorem Sound.superseded (h : Sound s) {e : Event β}
    (he : e = .stop ∨ ∃ items now now', e = .start items now now') (more : List (Event β)) :
    ∀ g ≤ s.generation,
      itemsOf g (run modbus_replay.step s (e :: more)).notices = itemsOf g s.notices := by
  have hnext : Supersedes (modbus_replay.step s e) s := by
    rcases he with rfl | ⟨items, now, now', rfl⟩
    · exact stop_supersedes h.waits
    · exact start_supersedes h.waits items now now'
  have hpast : Past s.generation (fun g => itemsOf g s.notices) (modbus_replay.step s e) :=
    ⟨h.step e, hnext.beyond, fun g _ => hnext.items g⟩
  rw [run_cons]
  exact (run_invariant (fun _ e h => h.step e) hpast more).items

/-- What a book says of its generation's items: they are begun in the order of the timestamps, each
once, and it is told to be idle once when it is over. -/
structure Replayed (s : ModbusReplayCoordinator β) (g : Nat) : Prop where
  begun_once : (begunOf g s.notices).length ≤ 1
  in_order : (itemsOf g s.notices).Pairwise (fun a b => a.ts ≤ b.ts)
  each_once : ∃ left, (itemsOf g s.notices ++ left).Perm (begunOf g s.notices).flatten
  idle_once : idleOf g s.notices =
    if (begunOf g s.notices).length = 1 ∧ ¬ Current s g then 1 else 0

theorem Book.replayed (h : Book s g) : Replayed s g := by
  cases h with
  | unused not_begun no_item not_idle _ =>
    refine ⟨by simp [not_begun], by simp [no_item], ⟨[], by simp [not_begun, no_item]⟩, ?_⟩
    simp [not_begun, not_idle]
  | runs items begun so_far not_idle current =>
    have hsorted := sortByTs_sorted items
    rw [← so_far] at hsorted
    refine ⟨by simp [begun], (pairwise_append.mp hsorted).1, ⟨s.queue, ?_⟩, ?_⟩
    · rw [so_far, begun, flatten_singleton]
      exact sortByTs_perm items
    · simp [not_idle, current]
  | completed items begun came_to idle_once not_current =>
    obtain ⟨left, hleft⟩ := came_to
    refine ⟨by simp [begun], (sortByTs_sorted items).sublist ?_, ⟨left, ?_⟩, ?_⟩
    · rw [← hleft]
      exact sublist_append_left _ _
    · rw [hleft, begun, flatten_singleton]
      exact sortByTs_perm items
    · simp [begun, idle_once, not_current]

/-- Whatever the items are and however starts, stops, timers and completions come: each generation
begins its items in the order of their timestamps, each at most once; none of it begins after a
stop or a new start; it is told to be idle exactly once when it is over; and while it runs it
has its timer set or its item awaited. -/
theorem replay_in_order (events : List (Event β)) :
    (∀ g, Replayed (run step (.new : ModbusReplayCoordinator β) events) g) ∧
    Waits (run step (.new : ModbusReplayCoordinator β) events) ∧
    ∀ e more, (e = .stop ∨ ∃ items now now', e = .start items now now') →
      ∀ g ≤ (run step (.new : ModbusReplayCoordinator β) events).generation,
        itemsOf g (run step (.new : ModbusReplayCoordinator β) (events ++ e :: more)).notices =
          itemsOf g (run step (.new : ModbusReplayCoordinator β) events).notices := by
  have hsound := sound_run events
  refine ⟨fun g => (hsound.book g).replayed, hsound.waits, ?_⟩
  intro e more he
  rw [run_append]
  exact hsound.superseded he more

end bbcom.modbus_replay
