-- One asynchronous send at a time (`async-send-loop.ts`), with the promises and timers around it.
-- Each event runs up to the next await or callback.
import Bbcom.Lib.Runs

open bbcom.runs

namespace bbcom.async_send_loop

open List List

/-! ## The loop -/

/-- A tick that awaits its task. -/
structure Invocation where
  generation : Nat
  settled : Bool
  deriving DecidableEq

/-- A scheduled callback. One that was cancelled can still come. -/
structure Timer where
  handle : Nat
  generation : Nat
  cancelled : Bool
  deriving DecidableEq

/-- `AsyncSendLoop`, with what it has set going. `begun` is for the record: whether the loop ran
when a task began, the last one first. -/
structure AsyncSendLoop where
  generation : Nat
  timer : Option Nat
  running : Bool
  inFlight : Bool
  invocations : List Invocation
  timers : List Timer
  nextHandle : Nat
  begun : List Bool
  deriving DecidableEq

namespace AsyncSendLoop

def new : AsyncSendLoop := ⟨0, none, false, false, [], [], 0, []⟩

variable (s : AsyncSendLoop)

def schedule (generation : Nat) : AsyncSendLoop :=
  { s with
    timer := some s.nextHandle
    timers := s.timers ++ [⟨s.nextHandle, generation, false⟩]
    nextHandle := s.nextHandle + 1 }

/-- `tick` up to its await. A task that throws before it has a promise lets the tick go on. -/
def tick (generation : Nat) (throws : Bool) : AsyncSendLoop :=
  if !s.running ∨ generation ≠ s.generation ∨ s.inFlight then s
  else if throws then { s with begun := s.running :: s.begun }.schedule generation
  else
    { s with
      inFlight := true
      invocations := s.invocations ++ [⟨generation, false⟩]
      begun := s.running :: s.begun }

/-- `tick` behind its await. -/
def goOn (generation : Nat) (throws : Bool) : AsyncSendLoop :=
  let s := { s with inFlight := false }
  if !s.running then s
  else if generation ≠ s.generation then s.tick s.generation throws
  else s.schedule generation

def start (throws : Bool) : AsyncSendLoop :=
  if s.running then s
  else
    let s := { s with running := true, generation := s.generation + 1 }
    if s.inFlight then s else s.tick s.generation throws

/-- `scheduler.cancel`. -/
def cancel (handle : Nat) : AsyncSendLoop :=
  { s with
    timers := s.timers.map fun timer =>
      if timer.handle = handle then { timer with cancelled := true } else timer }

def stop : AsyncSendLoop :=
  let s := { s with running := false, generation := s.generation + 1 }
  match s.timer with
  | some handle => { s.cancel handle with timer := none }
  | none => s

/-- The callback of a timer comes, once. -/
def fire (timer : Timer) (throws : Bool) : AsyncSendLoop :=
  if timer ∉ s.timers then s
  else
    let s := { s with timers := s.timers.filter (· ≠ timer) }
    if !s.running ∨ timer.generation ≠ s.generation then s
    else { s with timer := none }.tick timer.generation throws

/-- The promise of a task is fulfilled or rejected. -/
def settle (n : Nat) : AsyncSendLoop :=
  { s with
    invocations := s.invocations.modify n fun invocation => { invocation with settled := true } }

/-- Its tick comes to its turn. -/
def resume (n : Nat) (throws : Bool) : AsyncSendLoop :=
  match s.invocations[n]? with
  | some ⟨generation, true⟩ =>
    { s with invocations := s.invocations.eraseIdx n }.goOn generation throws
  | _ => s

end AsyncSendLoop

inductive Event
  | started (throws : Bool)
  | stopped
  | settled (n : Nat)
  | resumed (n : Nat) (throws : Bool)
  | fired (timer : Timer) (throws : Bool)

def step (s : AsyncSendLoop) : Event → AsyncSendLoop
  | .started throws => s.start throws
  | .stopped => s.stop
  | .settled n => s.settle n
  | .resumed n throws => s.resume n throws
  | .fired timer throws => s.fire timer throws

/-! ## What holds between the events -/

def AsyncSendLoop.liveTimers (s : AsyncSendLoop) : List Timer := s.timers.filter (!·.cancelled)

/-- Each tick that awaits is in flight, and the live timer is the one that the loop knows. -/
structure Inv (s : AsyncSendLoop) : Prop where
  invocations : s.invocations.length = s.inFlight.toNat
  live : s.liveTimers.map Timer.handle = s.timer.toList
  current : ∀ timer ∈ s.liveTimers, timer.generation = s.generation
  stale : ∀ timer ∈ s.timers, timer.cancelled → timer.generation < s.generation
  handles : ∀ timer ∈ s.timers, timer.handle < s.nextHandle
  idle : s.timer.isSome → s.running ∧ s.inFlight = false
  busy : s.running → s.inFlight ∨ s.timer.isSome
  begun : ∀ running ∈ s.begun, running = true

variable {s : AsyncSendLoop}

theorem inv_new : Inv .new := ⟨rfl, rfl, nofun, nofun, nofun, nofun, nofun, nofun⟩

/-- A loop that runs with nothing in flight and no timer. -/
structure Ready (s : AsyncSendLoop) : Prop where
  running : s.running = true
  timer : s.timer = none
  inFlight : s.inFlight = false
  invocations : s.invocations = []
  live : s.liveTimers = []
  stale : ∀ timer ∈ s.timers, timer.cancelled → timer.generation < s.generation
  handles : ∀ timer ∈ s.timers, timer.handle < s.nextHandle
  begun : ∀ running ∈ s.begun, running = true

theorem Ready.note (h : Ready s) : Ready { s with begun := s.running :: s.begun } :=
  { h with begun := forall_mem_cons.2 ⟨h.running, h.begun⟩ }

theorem Ready.schedule (h : Ready s) : Inv (s.schedule s.generation) where
  invocations := by simp [AsyncSendLoop.schedule, h.invocations, h.inFlight]
  live := by
    have hlive := h.live
    unfold AsyncSendLoop.liveTimers at hlive
    simp [AsyncSendLoop.schedule, AsyncSendLoop.liveTimers, hlive]
  current := by
    have hlive := h.live
    unfold AsyncSendLoop.liveTimers at hlive
    simp [AsyncSendLoop.schedule, AsyncSendLoop.liveTimers, hlive]
  stale timer hin hcancelled := by
    rcases mem_append.1 hin with hin | hnew
    · exact h.stale timer hin hcancelled
    · rw [mem_singleton.1 hnew] at hcancelled
      cases hcancelled
  handles timer hin := by
    rcases mem_append.1 hin with hin | hnew
    · exact (h.handles timer hin).trans (Nat.lt_succ_self _)
    · rw [mem_singleton.1 hnew]
      exact Nat.lt_succ_self _
  idle _ := ⟨h.running, h.inFlight⟩
  busy _ := .inr rfl
  begun := h.begun

/-- A tick of a ready loop begins a task, or has scheduled the next tick already. -/
theorem Ready.tick (h : Ready s) (throws : Bool) : Inv (s.tick s.generation throws) := by
  unfold AsyncSendLoop.tick
  rw [if_neg (by simp [h.running, h.inFlight])]
  split
  · exact h.note.schedule
  · refine ⟨by simp [h.invocations], ?_, ?_, h.stale, h.handles, ?_, fun _ => .inl rfl,
      h.note.begun⟩
    · rw [h.timer]
      exact congrArg (map Timer.handle) h.live
    · intro timer hin
      have hin : timer ∈ s.liveTimers := hin
      rw [h.live] at hin
      cases hin
    · simp [h.timer]

open AsyncSendLoop

theorem inv_started (h : Inv s) (throws : Bool) : Inv (s.start throws) := by
  unfold start
  split
  · exact h
  rename_i hstopped
  have htimer : s.timer = none := by
    by_contra hsome
    exact hstopped (h.idle (Option.isSome_iff_ne_none.2 hsome)).1
  have hlive : s.liveTimers = [] := by simpa [htimer] using h.live
  have hstale : ∀ timer ∈ s.timers, timer.cancelled → timer.generation < s.generation + 1 :=
    fun timer hin hcancelled => (h.stale timer hin hcancelled).trans (Nat.lt_succ_self _)
  dsimp only
  split
  · rename_i hflight
    refine ⟨h.invocations, h.live, fun timer hin => ?_, hstale, h.handles, ?_,
      fun _ => .inl hflight,
      h.begun⟩
    · have hin : timer ∈ s.liveTimers := hin
      rw [hlive] at hin
      cases hin
    · simp [htimer]
  · rename_i hflight
    have hidle : s.inFlight = false := by simpa using hflight
    have hnone : s.invocations = [] := by simpa [hidle] using h.invocations
    have hready : Ready { s with running := true, generation := s.generation + 1 } :=
      ⟨rfl, htimer, hidle, hnone, hlive, hstale, h.handles, h.begun⟩
    exact hready.tick throws

theorem inv_stopped (h : Inv s) : Inv s.stop := by
  have hstale : ∀ timer ∈ s.timers, timer.generation < s.generation + 1 := by
    intro timer hin
    by_cases hcancelled : timer.cancelled
    · exact (h.stale timer hin hcancelled).trans (Nat.lt_succ_self _)
    · rw [h.current timer (mem_filter.2 ⟨hin, by simpa using hcancelled⟩)]
      exact Nat.lt_succ_self _
  unfold stop
  dsimp only
  split
  · rename_i handle hhandle
    have hnone : ((s.timers.map fun timer => if timer.handle = handle then
        { timer with cancelled := true } else timer).filter (!·.cancelled)) = [] := by
      apply filter_eq_nil_iff.2
      intro timer hin
      obtain ⟨old, hold, rfl⟩ := mem_map.1 hin
      by_cases hcancelled : old.cancelled
      · split <;> simp [hcancelled]
      · -- the live timer is the one that is cancelled
        have hlive : old ∈ s.liveTimers := mem_filter.2 ⟨hold, by simpa using hcancelled⟩
        have hknown := mem_map_of_mem (f := Timer.handle) hlive
        rw [h.live, hhandle] at hknown
        rw [if_pos (by simpa using hknown)]
        simp
    have hkept : ∀ timer ∈ s.timers.map fun timer => if timer.handle = handle then
        { timer with cancelled := true } else timer,
        timer.generation < s.generation + 1 ∧ timer.handle < s.nextHandle := by
      intro timer hin
      obtain ⟨old, hold, rfl⟩ := mem_map.1 hin
      split <;> exact ⟨hstale old hold, h.handles old hold⟩
    refine ⟨h.invocations, congrArg (map Timer.handle) hnone, fun timer hin => ?_,
      fun timer hin _ => (hkept timer hin).1, fun timer hin => (hkept timer hin).2, nofun, nofun,
      h.begun⟩
    have hin : timer ∈ _ := hin
    rw [liveTimers, cancel] at hin
    rw [hnone] at hin
    cases hin
  · rename_i hnone
    have hlive : s.liveTimers = [] := by simpa [hnone] using h.live
    refine ⟨h.invocations, h.live, fun timer hin => ?_, fun timer hin _ => hstale timer hin,
      h.handles, ?_, nofun, h.begun⟩
    · have hin : timer ∈ s.liveTimers := hin
      rw [hlive] at hin
      cases hin
    · simp [hnone]

theorem inv_settled (h : Inv s) (n : Nat) : Inv (s.settle n) :=
  { h with invocations := by simpa [settle] using h.invocations }

theorem inv_resumed (h : Inv s) (n : Nat) (throws : Bool) : Inv (s.resume n throws) := by
  unfold resume
  split
  · rename_i generation hthis
    have hin := mem_of_getElem? hthis
    obtain ⟨hlt, -⟩ := List.getElem?_eq_some_iff.1 hthis
    have hlength := h.invocations
    have hflight : s.inFlight = true := by
      by_contra hidle
      rw [Bool.eq_false_of_not_eq_true hidle] at hlength
      rw [length_eq_zero_iff.1 hlength] at hin
      cases hin
    have hnone : s.invocations.eraseIdx n = [] := by
      apply length_eq_zero_iff.1
      rw [length_eraseIdx_of_lt hlt, hlength, hflight]
      rfl
    have htimer : s.timer = none := by
      by_contra hsome
      rw [(h.idle (Option.isSome_iff_ne_none.2 hsome)).2] at hflight
      cases hflight
    have hlive : s.liveTimers = [] := by simpa [htimer] using h.live
    unfold goOn
    dsimp only
    rw [hnone]
    split
    · rename_i hstopped
      have hstopped : s.running = false := by simpa using hstopped
      exact ⟨rfl, h.live, h.current, h.stale, h.handles, by simp [htimer], by simp [hstopped],
        h.begun⟩
    · rename_i hrunning
      have hready : Ready { s with invocations := [], inFlight := false } :=
        ⟨by simpa using hrunning, htimer, rfl, rfl, hlive, h.stale, h.handles, h.begun⟩
      split
      · exact hready.tick throws
      · rename_i hsame
        rw [not_ne_iff.1 hsame]
        exact hready.schedule
  · exact h

theorem inv_fired (h : Inv s) (timer : Timer) (throws : Bool) : Inv (s.fire timer throws) := by
  unfold fire
  split
  · exact h
  rename_i hthere
  rw [not_not] at hthere
  have hkeep : ∀ other ∈ s.timers.filter (· ≠ timer), other ∈ s.timers :=
    fun other hin => (mem_filter.1 hin).1
  have hlater : (s.timers.filter (· ≠ timer)).filter (!·.cancelled) =
      s.liveTimers.filter (· ≠ timer) := by
    simp only [liveTimers, filter_filter, Bool.and_comm]
  dsimp only
  split
  · rename_i hstale
    -- a live timer is of the running generation
    have hcancelled : timer ∉ s.liveTimers := by
      intro hlive
      have hsome : s.timer.isSome := by
        have hknown := mem_map_of_mem (f := Timer.handle) hlive
        rw [h.live] at hknown
        simpa using Option.isSome_of_mem (by simpa using hknown)
      rcases hstale with hstopped | hother
      · simp [(h.idle hsome).1] at hstopped
      · exact hother (h.current timer hlive)
    have hsame : s.liveTimers.filter (· ≠ timer) = s.liveTimers := by
      apply filter_eq_self.2
      intro other hin
      simpa using fun heq : other = timer => hcancelled (heq ▸ hin)
    refine ⟨h.invocations, ?_, fun other hin => ?_,
      fun other hin => h.stale other (hkeep other hin),
      fun other hin => h.handles other (hkeep other hin), h.idle, h.busy, h.begun⟩
    · exact (congrArg (map Timer.handle) (hlater.trans hsame)).trans h.live
    · exact h.current other (hsame ▸ hlater ▸ hin)
  · rename_i hdue
    simp only [not_or, Bool.not_eq_true, Bool.not_eq_false', not_not] at hdue
    obtain ⟨hrunning, hgeneration⟩ := hdue
    have hlive : timer ∈ s.liveTimers := by
      refine mem_filter.2 ⟨hthere, ?_⟩
      by_contra hcancelled
      have hlt := h.stale timer hthere (by simpa using hcancelled)
      omega
    have hone : s.liveTimers = [timer] := by
      have hlength := congrArg length h.live
      rw [length_map] at hlength
      obtain ⟨only, honly⟩ : ∃ only, s.liveTimers = [only] := by
        apply length_eq_one_iff.1
        have hpos := length_pos_of_mem hlive
        have hle : s.timer.toList.length ≤ 1 := by cases s.timer <;> simp
        omega
      rw [honly] at hlive ⊢
      rw [mem_singleton.1 hlive]
    have hsome : s.timer.isSome := by
      have hknown := h.live
      rw [hone] at hknown
      cases htimer : s.timer with
      | none => simp [htimer] at hknown
      | some handle => rfl
    obtain ⟨-, hidle⟩ := h.idle hsome
    have hready : Ready { s with timers := s.timers.filter (· ≠ timer), timer := none } := by
      refine ⟨hrunning, rfl, hidle, by simpa [hidle] using h.invocations, ?_,
        fun other hin => h.stale other (hkeep other hin),
        fun other hin => h.handles other (hkeep other hin), h.begun⟩
      refine hlater.trans ?_
      rw [hone]
      simp
    rw [hgeneration]
    exact hready.tick throws

theorem Inv.step (h : Inv s) (e : Event) : Inv (async_send_loop.step s e) := by
  cases e with
  | started throws => exact inv_started h throws
  | stopped => exact inv_stopped h
  | settled n => exact inv_settled h n
  | resumed n throws => exact inv_resumed h n throws
  | fired timer throws => exact inv_fired h timer throws

/-! ## Runs -/

/-- Tasks that have not settled. -/
def AsyncSendLoop.unsettled (s : AsyncSendLoop) : List Invocation :=
  s.invocations.filter (!·.settled)

/-- No tick is about to go on. -/
def AsyncSendLoop.Quiescent (s : AsyncSendLoop) : Prop :=
  ∀ invocation ∈ s.invocations, invocation.settled = false

/-- After any events at most one task is unsettled and at most one timer is live, no task has begun
in a stopped loop, and a running loop at rest has either a task in flight or a timer. -/
theorem the_loop_never_doubles_and_never_stalls (events : List Event) :
    let s := run step new events
    s.unsettled.length ≤ 1 ∧ s.liveTimers.length ≤ 1 ∧ (∀ running ∈ s.begun, running = true) ∧
      (s.running → s.Quiescent → s.unsettled.length + s.liveTimers.length = 1) := by
  intro s
  have h : Inv s := run_invariant (fun _ e h => h.step e) inv_new events
  have hlive := congrArg length h.live
  rw [length_map] at hlive
  have hunsettled : s.unsettled.length ≤ s.inFlight.toNat :=
    (length_filter_le _ _).trans h.invocations.le
  have htimer : s.timer.toList.length = s.timer.isSome.toNat := by cases s.timer <;> rfl
  refine ⟨hunsettled.trans (Bool.toNat_le _), ?_, h.begun, fun hrunning hquiet => ?_⟩
  · rw [hlive, htimer]
    exact Bool.toNat_le _
  · have hall : s.unsettled = s.invocations := by
      apply filter_eq_self.2
      intro invocation hin
      simp [hquiet invocation hin]
    rw [hall, h.invocations, hlive, htimer]
    rcases h.busy hrunning with hflight | hsome
    · have hno : s.timer.isSome = false := by
        by_contra hsome
        rw [(h.idle (Bool.eq_true_of_not_eq_false hsome)).2] at hflight
        cases hflight
      simp [hflight, hno]
    · simp [(h.idle hsome).2, hsome]

end bbcom.async_send_loop
