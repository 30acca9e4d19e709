-- The invariant of a drain window: who has begun, who is through, and what was flushed behind whom.
import Bbcom.ShutdownCoordinator

namespace bbcom.shutdown

open AttemptParticipant List ShutdownAttempt

/-! ## One participant -/

/-- The parts of a participant fit, in a round and up to an event. -/
structure Sound (round : ℤ) (clock : Nat) (p : AttemptParticipant) : Prop where
  invoked : p.called = true → p.invoked = true
  called : p.settled = true → p.called = true
  completed : p.status = .completed → p.settled = true
  failed : p.status = .failed → p.settled = true
  round_le : p.invocationRound ≤ round
  calledAt_le : p.calledAt ≤ clock
  settledAt_le : p.settledAt ≤ clock

variable {p : AttemptParticipant} {round : ℤ} {clock now windowDeadline : Nat} {closed : Bool}

theorem sound_new (definition : ShutdownDrainParticipant) :
    Sound 0 clock (.new definition) := by
  refine ⟨?_, ?_, ?_, ?_, ?_, Nat.zero_le _, Nat.zero_le _⟩
  · rintro ⟨⟩
  · rintro ⟨⟩
  · rintro ⟨⟩
  · rintro ⟨⟩
  · exact neg_one_lt_zero.le

theorem Sound.mono (h : Sound round clock p) {later : ℤ} {laterClock : Nat} (hround : round ≤ later)
    (hclock : clock ≤ laterClock) : Sound later laterClock p :=
  ⟨h.invoked, h.called, h.completed, h.failed, h.round_le.trans hround,
    h.calledAt_le.trans hclock, h.settledAt_le.trans hclock⟩

/-- What has nothing to run in the round is settled. -/
theorem Sound.settled_of_not_shouldRun (h : Sound round clock p)
    (hrun : p.shouldRunInRound round = false) : p.settled = true := by
  unfold shouldRunInRound at hrun
  split_ifs at hrun
  · simp only [Bool.or_eq_false_iff, Bool.not_eq_false'] at hrun
    exact hrun.2
  · simp only [decide_eq_false_iff_not, not_and_or, not_not] at hrun
    rcases hrun with hcompleted | hfailed
    · exact h.completed hcompleted
    · exact h.failed hfailed

/-- What `startParticipant` can do. -/
theorem startParticipant_cases (p : AttemptParticipant) (round : ℤ) :
    p.startParticipant round = { p with status := .running } ∧ p.settled = false ∨
    p.startParticipant round = p ∧ p.settled = true ∨
    p.startParticipant round = p.invoke round := by
  unfold startParticipant
  split_ifs with hinvoked hsettled hrest
  · exact Or.inl ⟨rfl, hsettled⟩
  · exact Or.inr (Or.inl ⟨rfl, by simpa using hsettled⟩)
  · exact Or.inr (Or.inr rfl)
  · exact Or.inr (Or.inr rfl)

/-- What a pass of the loop can do. -/
theorem enterLoop_cases (p : AttemptParticipant) (closed : Bool) (now windowDeadline : Nat)
    (round : ℤ) :
    p.enterLoop closed now windowDeadline round = { p with runner := .done } ∧
      (p.settled = true ∨ closed = true ∨ windowDeadline ≤ now) ∨
    p.enterLoop closed now windowDeadline round = { p with runner := .raced true } ∨
    (∃ timerAt, p.enterLoop closed now windowDeadline round =
      { p with status := .running, runner := .waiting timerAt } ∧ p.settled = false) ∨
    ∃ timerAt, p.enterLoop closed now windowDeadline round =
      { p.invoke round with runner := .waiting timerAt } := by
  unfold enterLoop
  by_cases hover : closed = true ∨ windowDeadline ≤ now
  · rw [if_pos hover]
    exact Or.inl ⟨rfl, Or.inr hover⟩
  · rw [if_neg hover]
    rcases startParticipant_cases p round with ⟨heq, hsettled⟩ | ⟨heq, hsettled⟩ | heq
    · rw [heq]
      simp only [hsettled, Bool.false_eq_true, if_false]
      exact Or.inr (Or.inr (Or.inl ⟨_, rfl, trivial⟩))
    · rw [heq]
      simp only [hsettled, if_true]
      split_ifs
      · exact Or.inl ⟨rfl, Or.inl trivial⟩
      · exact Or.inr (Or.inl rfl)
    · rw [heq]
      exact Or.inr (Or.inr (Or.inr ⟨_, rfl⟩))

/-! ## What the steps of a participant keep -/

section

variable (h : Sound round clock p)
include h

theorem Sound.withRunner (runner : Runner) : Sound round clock { p with runner } :=
  ⟨h.invoked, h.called, h.completed, h.failed, h.round_le, h.calledAt_le, h.settledAt_le⟩

/-- A status that does not tell of a settlement. -/
theorem Sound.withStatus (status : ShutdownParticipantStatus) (hcompleted : status ≠ .completed)
    (hfailed : status ≠ .failed) : Sound round clock { p with status } :=
  ⟨h.invoked, h.called, fun hs => absurd hs hcompleted, fun hs => absurd hs hfailed, h.round_le,
    h.calledAt_le, h.settledAt_le⟩

theorem Sound.invoke : Sound round clock (p.invoke round) := by
  refine ⟨?_, ?_, ?_, ?_, le_rfl, h.calledAt_le, h.settledAt_le⟩
  · rintro ⟨⟩
  · rintro ⟨⟩
  · rintro ⟨⟩
  · rintro ⟨⟩

theorem Sound.enterLoop : Sound round clock (p.enterLoop closed now windowDeadline round) := by
  rcases enterLoop_cases p closed now windowDeadline round with
    ⟨heq, -⟩ | heq | ⟨timerAt, heq, -⟩ | ⟨timerAt, heq⟩
  · rw [heq]
    exact h.withRunner _
  · rw [heq]
    exact h.withRunner _
  · rw [heq]
    exact (h.withStatus .running (by decide) (by decide)).withRunner _
  · rw [heq]
    exact h.invoke.withRunner _

end

/-- What the loop behind its `await` can do. -/
theorem afterWait_cases (p : AttemptParticipant) (closed : Bool) (now windowDeadline : Nat)
    (round : ℤ) (settled : Bool) :
    p.afterWait closed now windowDeadline round settled =
      { p with status := .timedOut, runner := .done } ∧ p.settled = false ∨
    p.afterWait closed now windowDeadline round settled = { p with runner := .done } ∧
      p.shouldRunInRound round = false ∨
    p.afterWait closed now windowDeadline round settled =
      p.enterLoop closed now windowDeadline round := by
  unfold afterWait
  split_ifs with hlost hrun
  · exact Or.inl ⟨rfl, hlost.2.2⟩
  · exact Or.inr (Or.inl ⟨rfl, hrun⟩)
  · exact Or.inr (Or.inr rfl)

section

variable (h : Sound round clock p)
include h

theorem Sound.afterWait (settled : Bool) :
    Sound round clock (p.afterWait closed now windowDeadline round settled) := by
  rcases afterWait_cases p closed now windowDeadline round settled with ⟨heq, -⟩ | ⟨heq, -⟩ | heq
  · rw [heq]
    exact (h.withStatus .timedOut (by decide) (by decide)).withRunner _
  · rw [heq]
    exact h.withRunner _
  · rw [heq]
    exact h.enterLoop

theorem Sound.callDrain : Sound round (clock + 1) (callDrain (clock + 1) p) := by
  have hlater := h.mono le_rfl (Nat.le_succ clock)
  unfold shutdown.callDrain
  split_ifs with hinvoked
  · exact ⟨fun _ => hinvoked.1, fun _ => rfl, h.completed, h.failed, h.round_le, le_rfl,
      hlater.settledAt_le⟩
  · exact hlater

theorem Sound.settleDrain (outcome : DrainOutcome) (attempt : ShutdownAttempt) :
    Sound round (clock + 1) (settleDrain (clock + 1) outcome attempt p) := by
  have hlater := h.mono le_rfl (Nat.le_succ clock)
  unfold shutdown.settleDrain
  split_ifs with hopen
  · exact ⟨h.invoked, fun _ => hopen.1, fun _ => rfl, fun _ => rfl, h.round_le,
      hlater.calledAt_le, le_rfl⟩
  · exact hlater

theorem Sound.fireTimer (now : Nat) : Sound round clock (fireTimer now p) := by
  unfold shutdown.fireTimer
  split
  · split_ifs
    · exact h.withRunner _
    · exact h
  · exact h

end

/-! ## A window -/

/-- Its group is over, and it settled or was left behind. -/
def Passed (p : AttemptParticipant) : Prop :=
  p.runner = .done ∧ (p.settled = true ∨ p.status = .timedOut)

/-- In its group, or invoked in the round. -/
def Begun (round : ℤ) (p : AttemptParticipant) : Prop :=
  p.runner ≠ .done ∨ p.invocationRound = round

/-- A window with some priorities ahead; `over` says that its time is up. -/
structure WindowInv (round : ℤ) (priorities : List ℤ) (over_ : Prop)
    (participants : List AttemptParticipant) : Prop where
  ahead : ∀ p ∈ participants, p.priority ∈ priorities ∨ ∀ π ∈ priorities, π < p.priority
  sorted : priorities.Pairwise (· > ·)
  through : ∀ p ∈ participants, p.priority ∉ priorities → p.runner = .done →
    p.settled = true ∨ p.status = .timedOut ∨ over_
  begun : ∀ q ∈ participants, Begun round q →
    q.priority ∉ priorities ∧ ∀ p ∈ participants, q.priority < p.priority → Passed p

/-- A barrier that was called in the round was called behind the participants that are completed
and come before it. -/
def Flushed (round : ℤ) (participants : List AttemptParticipant) : Prop :=
  ∀ q ∈ participants, q.definition.repeatableBarrier = true → q.invocationRound = round →
    q.called = true → ∀ p ∈ participants, q.priority < p.priority → p.status = .completed →
      p.settledAt < q.calledAt

/-- What one step can make of a participant within a window. -/
structure Evolves (round : ℤ) (over_ : Prop) (p next : AttemptParticipant) : Prop where
  definition : next.definition = p.definition
  begun : Begun round next → Begun round p
  through : p.runner ≠ .done → next.runner = .done →
    next.settled = true ∨ next.status = .timedOut ∨ over_
  stays : p.runner = .done → next.runner = .done
  settled : p.runner = .done → p.settled = true ∨ p.status = .timedOut →
    next.settled = true ∨ next.status = .timedOut

theorem evolves_refl (round : ℤ) (over_ : Prop) (p : AttemptParticipant) :
    Evolves round over_ p p :=
  ⟨rfl, id, fun hrunning hdone => absurd hdone hrunning, id, fun _ => id⟩

variable {priorities : List ℤ} {over_ : Prop} {participants next : List AttemptParticipant}

theorem WindowInv.evolve (h : WindowInv round priorities over_ participants)
    (hnext : ∀ p' ∈ next, ∃ p ∈ participants, Evolves round over_ p p') :
    WindowInv round priorities over_ next := by
  have hpriority : ∀ {p p'}, Evolves round over_ p p' → p'.priority = p.priority := by
    intro p p' he
    unfold priority
    rw [he.definition]
  refine ⟨?_, h.sorted, ?_, ?_⟩
  · intro p' hp'
    obtain ⟨p, hp, he⟩ := hnext p' hp'
    rw [hpriority he]
    exact h.ahead p hp
  · intro p' hp' hahead hdone
    obtain ⟨p, hp, he⟩ := hnext p' hp'
    rw [hpriority he] at hahead
    by_cases hwas : p.runner = .done
    · rcases h.through p hp hahead hwas with hsettled | hleft | hover
      · exact (he.settled hwas (Or.inl hsettled)).imp_right Or.inl
      · exact (he.settled hwas (Or.inr hleft)).imp_right Or.inl
      · exact Or.inr (Or.inr hover)
    · exact he.through hwas hdone
  · intro q' hq' hbegun
    obtain ⟨q, hq, heq⟩ := hnext q' hq'
    obtain ⟨hahead, hpassed⟩ := h.begun q hq (heq.begun hbegun)
    rw [hpriority heq]
    refine ⟨hahead, fun p' hp' hbelow => ?_⟩
    obtain ⟨p, hp, hep⟩ := hnext p' hp'
    rw [hpriority hep] at hbelow
    obtain ⟨hdone, hsettled⟩ := hpassed p hp hbelow
    exact ⟨hep.stays hdone, hep.settled hdone hsettled⟩

/-- The time of a window runs out, and stays out. -/
theorem WindowInv.later (h : WindowInv round priorities over_ participants) {later : Prop}
    (hlater : over_ → later) : WindowInv round priorities later participants := by
  refine ⟨h.ahead, h.sorted, ?_, h.begun⟩
  intro p hp hahead hdone
  rcases h.through p hp hahead hdone with hsettled | hleft | hover
  · exact Or.inl hsettled
  · exact Or.inr (Or.inl hleft)
  · exact Or.inr (Or.inr (hlater hover))

/-- What a step without a call or a settlement can make of the records of a participant. -/
structure Records (round : ℤ) (p next : AttemptParticipant) : Prop where
  definition : next.definition = p.definition
  called : next.called = true → next.invocationRound = round →
    p.called = true ∧ p.invocationRound = round ∧ next.calledAt = p.calledAt
  completed : next.status = .completed → p.status = .completed ∧ next.settledAt = p.settledAt

theorem records_refl (round : ℤ) (p : AttemptParticipant) : Records round p p :=
  ⟨rfl, fun hcalled hround => ⟨hcalled, hround, rfl⟩, fun hcompleted => ⟨hcompleted, rfl⟩⟩

theorem Flushed.keep (h : Flushed round participants)
    (hnext : ∀ p' ∈ next, ∃ p ∈ participants, Records round p p') : Flushed round next := by
  intro q' hq' hbarrier hround hcalled p' hp' hbelow hcompleted
  obtain ⟨q, hq, hrq⟩ := hnext q' hq'
  obtain ⟨p, hp, hrp⟩ := hnext p' hp'
  obtain ⟨hqcalled, hqround, hqat⟩ := hrq.called hcalled hround
  obtain ⟨hpcompleted, hpat⟩ := hrp.completed hcompleted
  unfold priority at hbelow
  rw [hrq.definition, hrp.definition] at hbelow
  rw [hrq.definition] at hbarrier
  rw [hqat, hpat]
  exact h q hq hbarrier hqround hqcalled p hp hbelow hpcompleted

/-! ## The steps of a participant within a window -/

theorem evolves_callDrain (round : ℤ) (over_ : Prop) (clock : Nat) (p : AttemptParticipant) :
    Evolves round over_ p (callDrain clock p) := by
  unfold callDrain
  split_ifs
  · exact ⟨rfl, id, fun hrunning hdone => absurd hdone hrunning, id, fun _ => id⟩
  · exact evolves_refl round over_ p

theorem evolves_fireTimer (round : ℤ) (over_ : Prop) (now : Nat) (p : AttemptParticipant) :
    Evolves round over_ p (fireTimer now p) := by
  unfold fireTimer
  split
  · rename_i timerAt hwaiting
    split_ifs
    · refine ⟨rfl, ?_, ?_, ?_, fun _ => id⟩
      · intro _
        exact Or.inl (by rw [hwaiting]; rintro ⟨⟩)
      · rintro - ⟨⟩
      · intro hdone
        rw [hwaiting] at hdone
        cases hdone
    · exact evolves_refl round over_ p
  · exact evolves_refl round over_ p

theorem evolves_settleDrain (round : ℤ) (over_ : Prop) (clock : Nat) (outcome : DrainOutcome)
    (attempt : ShutdownAttempt) (p : AttemptParticipant) :
    Evolves round over_ p (settleDrain clock outcome attempt p) := by
  unfold settleDrain
  split_ifs
  · have hrunner : (p.settle attempt.closed outcome clock).runner = .done ↔ p.runner = .done := by
      unfold settle
      cases p.runner <;> simp
    refine ⟨rfl, ?_, ?_, hrunner.2, fun _ _ => Or.inl rfl⟩
    · rintro (hrunning | hround)
      · exact Or.inl fun hdone => hrunning (hrunner.2 hdone)
      · exact Or.inr hround
    · intro hrunning hdone
      exact absurd (hrunner.1 hdone) hrunning
  · exact evolves_refl round over_ p

/-- A pass of the loop, from a participant that is in its group. -/
theorem evolves_enterLoop (h : p.runner ≠ .done) (hopen : closed = false) :
    Evolves round (windowDeadline ≤ now) p (p.enterLoop closed now windowDeadline round) := by
  have hdefinition : (p.enterLoop closed now windowDeadline round).definition = p.definition := by
    rcases enterLoop_cases p closed now windowDeadline round with
      ⟨heq, -⟩ | heq | ⟨timerAt, heq, -⟩ | ⟨timerAt, heq⟩ <;> rw [heq]
    rfl
  refine ⟨hdefinition, fun _ => Or.inl h, fun _ hdone => ?_, fun hdone => absurd hdone h,
    fun hdone => absurd hdone h⟩
  rcases enterLoop_cases p closed now windowDeadline round with
    ⟨heq, hsettled | hclosed | hover⟩ | heq | ⟨timerAt, heq, -⟩ | ⟨timerAt, heq⟩
  · rw [heq]
    exact Or.inl hsettled
  · rw [hopen] at hclosed
    cases hclosed
  · exact Or.inr (Or.inr hover)
  · rw [heq] at hdone
    cases hdone
  · rw [heq] at hdone
    cases hdone
  · rw [heq] at hdone
    cases hdone

theorem evolves_goOnRunner (hsound : Sound round clock p) {attempt : ShutdownAttempt}
    {window : DrainWindow} (hwindow : attempt.window = some window) (hopen : attempt.closed = false)
    (hround : attempt.round = round) (now : Nat) :
    Evolves round (window.windowDeadline ≤ now) p (goOnRunner now attempt p) := by
  unfold goOnRunner
  rw [hwindow]
  cases hrunner : p.runner with
  | done => exact evolves_refl _ _ _
  | waiting timerAt => exact evolves_refl _ _ _
  | raced settled =>
    have hrunning : p.runner ≠ .done := by
      rw [hrunner]
      rintro ⟨⟩
    simp only
    rw [hround]
    rcases afterWait_cases p attempt.closed now window.windowDeadline round settled with
      ⟨heq, -⟩ | ⟨heq, hrest⟩ | heq
    · rw [heq]
      exact ⟨rfl, fun _ => Or.inl hrunning, fun _ _ => Or.inr (Or.inl rfl),
        fun hdone => absurd hdone hrunning, fun hdone => absurd hdone hrunning⟩
    · rw [heq]
      exact ⟨rfl, fun _ => Or.inl hrunning,
        fun _ _ => Or.inl (hsound.settled_of_not_shouldRun hrest),
        fun hdone => absurd hdone hrunning, fun hdone => absurd hdone hrunning⟩
    · rw [heq]
      exact evolves_enterLoop hrunning hopen

theorem records_enterLoop (p : AttemptParticipant) (closed : Bool) (now windowDeadline : Nat)
    (round : ℤ) : Records round p (p.enterLoop closed now windowDeadline round) := by
  rcases enterLoop_cases p closed now windowDeadline round with
    ⟨heq, -⟩ | heq | ⟨timerAt, heq, -⟩ | ⟨timerAt, heq⟩
  · rw [heq]
    exact ⟨rfl, fun hcalled hround => ⟨hcalled, hround, rfl⟩, fun hcompleted => ⟨hcompleted, rfl⟩⟩
  · rw [heq]
    exact ⟨rfl, fun hcalled hround => ⟨hcalled, hround, rfl⟩, fun hcompleted => ⟨hcompleted, rfl⟩⟩
  · rw [heq]
    exact ⟨rfl, fun hcalled hround => ⟨hcalled, hround, rfl⟩, by rintro ⟨⟩⟩
  · rw [heq]
    exact ⟨rfl, by rintro ⟨⟩, by rintro ⟨⟩⟩

theorem records_goOnRunner (round : ℤ) {attempt : ShutdownAttempt} (hround : attempt.round = round)
    (now : Nat) (p : AttemptParticipant) : Records round p (goOnRunner now attempt p) := by
  unfold goOnRunner
  split
  · rename_i settled window _ _
    rw [hround]
    rcases afterWait_cases p attempt.closed now window.windowDeadline round settled with
      ⟨heq, -⟩ | ⟨heq, -⟩ | heq
    · rw [heq]
      exact ⟨rfl, fun hcalled hround => ⟨hcalled, hround, rfl⟩, by rintro ⟨⟩⟩
    · rw [heq]
      exact ⟨rfl, fun hcalled hround => ⟨hcalled, hround, rfl⟩, fun hcompleted => ⟨hcompleted, rfl⟩⟩
    · rw [heq]
      exact records_enterLoop p _ now _ round
  · exact records_refl round p

theorem records_fireTimer (round : ℤ) (now : Nat) (p : AttemptParticipant) :
    Records round p (fireTimer now p) := by
  unfold fireTimer
  split
  · split_ifs
    · exact ⟨rfl, fun hcalled hround => ⟨hcalled, hround, rfl⟩, fun hcompleted => ⟨hcompleted, rfl⟩⟩
    · exact records_refl round p
  · exact records_refl round p

/-- A barrier that is called now is called behind all that are settled. -/
theorem flushed_call (h : Flushed round participants)
    (hsound : ∀ p ∈ participants, Sound round clock p)
    (hnext : ∀ p' ∈ next, ∃ p ∈ participants, p' = p ∨ p' = callDrain (clock + 1) p) :
    Flushed round next := by
  have hrecords : ∀ p' ∈ next, ∃ p ∈ participants, p'.definition = p.definition ∧
      p'.invocationRound = p.invocationRound ∧ p'.status = p.status ∧
      p'.settledAt = p.settledAt ∧
      (p'.called = p.called ∧ p'.calledAt = p.calledAt ∨ p'.calledAt = clock + 1) := by
    intro p' hp'
    obtain ⟨p, hp, rfl | rfl⟩ := hnext p' hp'
    · exact ⟨p', hp, rfl, rfl, rfl, rfl, Or.inl ⟨rfl, rfl⟩⟩
    · refine ⟨p, hp, ?_⟩
      unfold callDrain
      split_ifs
      · exact ⟨rfl, rfl, rfl, rfl, Or.inr rfl⟩
      · exact ⟨rfl, rfl, rfl, rfl, Or.inl ⟨rfl, rfl⟩⟩
  intro q' hq' hbarrier hround hcalled p' hp' hbelow hcompleted
  obtain ⟨q, hq, hqdef, hqround, -, -, hqcalled⟩ := hrecords q' hq'
  obtain ⟨p, hp, hpdef, -, hpstatus, hpat, -⟩ := hrecords p' hp'
  unfold priority at hbelow
  rw [hqdef, hpdef] at hbelow
  rw [hqdef] at hbarrier
  rw [hqround] at hround
  rw [hpstatus] at hcompleted
  rw [hpat]
  rcases hqcalled with ⟨hsame, hat⟩ | hat
  · rw [hsame] at hcalled
    rw [hat]
    exact h q hq hbarrier hround hcalled p hp hbelow hcompleted
  · rw [hat]
    exact Nat.lt_succ_of_le (hsound p hp).settledAt_le

/-- A drain may complete while no barrier below it was called in the round. -/
theorem flushed_settle (h : Flushed round participants) {outcome : DrainOutcome}
    {attempt : ShutdownAttempt} {settling : AttemptParticipant}
    (hnext : ∀ p' ∈ next, p' ∈ participants ∨ p' = settleDrain clock outcome attempt settling)
    (hin : settling ∈ participants)
    (hearly : settling.called = true → settling.settled = false → outcome = .completed →
      ∀ q ∈ participants, q.definition.repeatableBarrier = true → q.invocationRound = round →
        q.called = true → ¬ q.priority < settling.priority)
    (hstatus : settling.settled = false → settling.status ≠ .completed) : Flushed round next := by
  have hrecords : ∀ p' ∈ next, ∃ p ∈ participants, p'.definition = p.definition ∧
      p'.invocationRound = p.invocationRound ∧ p'.called = p.called ∧
      p'.calledAt = p.calledAt := by
    intro p' hp'
    rcases hnext p' hp' with hold | rfl
    · exact ⟨p', hold, rfl, rfl, rfl, rfl⟩
    · refine ⟨settling, hin, ?_⟩
      unfold settleDrain
      split_ifs
      · exact ⟨rfl, rfl, rfl, rfl⟩
      · exact ⟨rfl, rfl, rfl, rfl⟩
  intro q' hq' hbarrier hround hcalled p' hp' hbelow hcompleted
  obtain ⟨q, hq, hqdef, hqround, hqcalled, hqat⟩ := hrecords q' hq'
  unfold priority at hbelow
  rw [hqdef] at hbelow hbarrier
  rw [hqround] at hround
  rw [hqcalled] at hcalled
  rw [hqat]
  rcases hnext p' hp' with hold | rfl
  · exact h q hq hbarrier hround hcalled p' hold hbelow hcompleted
  · unfold settleDrain at hbelow hcompleted ⊢
    split_ifs at hbelow hcompleted ⊢ with hopen
    · have houtcome : outcome = .completed := by
        unfold settle at hcompleted
        simp only at hcompleted
        split_ifs at hcompleted
        · exact absurd hcompleted (hstatus hopen.2)
        · cases outcome with
          | completed => rfl
          | failed => cases hcompleted
      exact absurd hbelow (hearly hopen.1 hopen.2 houtcome q hq hbarrier hround hcalled)
    · exact h q hq hbarrier hround hcalled settling hin hbelow hcompleted

/-! ## The loop over the priorities -/

/-- All runners are through. -/
def AllDone (participants : List AttemptParticipant) : Prop :=
  ∀ p ∈ participants, p.runner = .done

variable {attempt : ShutdownAttempt}

/-- A participant has its turn in a priority that is left, or has had it. -/
theorem WindowInv.ahead_tail {priority : ℤ}
    (h : WindowInv round (priority :: priorities) over_ participants) (hp : p ∈ participants) :
    p.priority ∈ priorities ∨ ∀ π ∈ priorities, π < p.priority := by
  rcases h.ahead p hp with hin | habove
  · rcases mem_cons.1 hin with heq | hin
    · right
      rw [heq]
      exact (pairwise_cons.1 h.sorted).1
    · exact Or.inl hin
  · exact Or.inr fun π hπ => habove π (mem_cons_of_mem _ hπ)

/-- The participants of the next priority begin. -/
theorem WindowInv.startGroup {priority : ℤ}
    (h : WindowInv attempt.round (priority :: priorities) (windowDeadline ≤ now)
      attempt.participants) (hsound : ∀ p ∈ attempt.participants, Sound attempt.round clock p)
    (hdone : AllDone attempt.participants) (hopen : attempt.closed = false)
    (htime : ¬ windowDeadline ≤ now) :
    WindowInv attempt.round priorities (windowDeadline ≤ now)
      (attempt.startGroup now windowDeadline priority) := by
  obtain ⟨hbelow, hsorted⟩ := pairwise_cons.1 h.sorted
  have hmem : ∀ p' ∈ attempt.startGroup now windowDeadline priority, ∃ p ∈ attempt.participants,
      p'.priority = p.priority ∧
      (p' = p.enterLoop attempt.closed now windowDeadline attempt.round ∧ p.priority = priority ∨
        p' = p ∧ (p.priority = priority → p.shouldRunInRound attempt.round = false)) := by
    intro p' hp'
    obtain ⟨p, hp, rfl⟩ := mem_map.1 hp'
    refine ⟨p, hp, ?_⟩
    by_cases hin : attempt.inGroup priority p = true
    · rw [if_pos hin]
      unfold inGroup at hin
      rw [Bool.and_eq_true, decide_eq_true_eq] at hin
      refine ⟨?_, Or.inl ⟨rfl, hin.1⟩⟩
      unfold AttemptParticipant.priority
      rw [(records_enterLoop p _ _ _ _).definition]
    · rw [if_neg hin]
      refine ⟨rfl, Or.inr ⟨rfl, fun heq => ?_⟩⟩
      unfold inGroup at hin
      simpa [heq] using hin
  refine ⟨?_, hsorted, ?_, ?_⟩
  · intro p' hp'
    obtain ⟨p, hp, hpriority, -⟩ := hmem p' hp'
    rw [hpriority]
    exact h.ahead_tail hp
  · intro p' hp' hahead hrunner
    obtain ⟨p, hp, hpriority, ⟨rfl, hin⟩ | ⟨rfl, hout⟩⟩ := hmem p' hp'
    · rcases enterLoop_cases p attempt.closed now windowDeadline attempt.round with
        ⟨heq, hsettled | hclosed | hover⟩ | heq | ⟨timerAt, heq, -⟩ | ⟨timerAt, heq⟩
      · rw [heq]
        exact Or.inl hsettled
      · rw [hopen] at hclosed
        cases hclosed
      · exact absurd hover htime
      · rw [heq] at hrunner
        cases hrunner
      · rw [heq] at hrunner
        cases hrunner
      · rw [heq] at hrunner
        cases hrunner
    · by_cases heq : p'.priority = priority
      · exact Or.inl ((hsound p' hp).settled_of_not_shouldRun (hout heq))
      · exact h.through p' hp (by simp [heq, hahead]) hrunner
  · intro q' hq' hbegun
    obtain ⟨q, hq, hqpriority, ⟨-, hin⟩ | ⟨rfl, -⟩⟩ := hmem q' hq'
    -- a participant of the group: whoever comes before it has had its turn
    · rw [hqpriority, hin]
      refine ⟨fun hp => lt_irrefl _ (hbelow priority hp), fun p' hp' hhigher => ?_⟩
      obtain ⟨p, hp, hpriority, ⟨-, hpin⟩ | ⟨rfl, -⟩⟩ := hmem p' hp'
      · rw [hpriority, hpin] at hhigher
        exact absurd hhigher (lt_irrefl _)
      · have hpast : p'.priority ∉ priority :: priorities := by
          intro hmem
          rcases mem_cons.1 hmem with heq | hrest
          · rw [heq] at hhigher
            exact lt_irrefl _ hhigher
          · exact lt_asymm hhigher (hbelow _ hrest)
        rcases h.through p' hp hpast (hdone p' hp) with hsettled | hleft | hover
        · exact ⟨hdone p' hp, Or.inl hsettled⟩
        · exact ⟨hdone p' hp, Or.inr hleft⟩
        · exact absurd hover htime
    -- a participant that was invoked in the round before: its predecessors are not in the group
    · obtain ⟨hahead, hpassed⟩ := h.begun q' hq hbegun
      have habove : priority < q'.priority := by
        rcases h.ahead q' hq with hin | habove
        · exact absurd hin hahead
        · exact habove priority mem_cons_self
      refine ⟨fun hin => hahead (mem_cons_of_mem _ hin), fun p' hp' hhigher => ?_⟩
      obtain ⟨p, hp, hpriority, ⟨-, hpin⟩ | ⟨rfl, -⟩⟩ := hmem p' hp'
      · rw [hpriority, hpin] at hhigher
        exact absurd hhigher (lt_asymm habove)
      · exact hpassed p' hp hhigher

/-- A priority without a participant to run is passed over. -/
theorem WindowInv.skip {priority : ℤ}
    (h : WindowInv round (priority :: priorities) over_ participants)
    (hsound : ∀ p ∈ participants, Sound round clock p)
    (hrest : ∀ p ∈ participants, p.priority = priority → p.shouldRunInRound round = false) :
    WindowInv round priorities over_ participants := by
  obtain ⟨hbelow, hsorted⟩ := pairwise_cons.1 h.sorted
  refine ⟨?_, hsorted, ?_, ?_⟩
  · exact fun p hp => h.ahead_tail hp
  · intro p hp hahead hrunner
    by_cases heq : p.priority = priority
    · exact Or.inl ((hsound p hp).settled_of_not_shouldRun (hrest p hp heq))
    · exact h.through p hp (by simp [heq, hahead]) hrunner
  · intro q hq hbegun
    obtain ⟨hahead, hpassed⟩ := h.begun q hq hbegun
    exact ⟨fun hin => hahead (mem_cons_of_mem _ hin), hpassed⟩

/-! ## The end of a window -/

/-- All have completed, and each barrier was called behind those that come before it. -/
def FlushedLast (participants : List AttemptParticipant) : Prop :=
  (∀ p ∈ participants, p.status = .completed ∧ p.called = true ∧ p.settled = true) ∧
    ∀ q ∈ participants, q.definition.repeatableBarrier = true →
      ∀ p ∈ participants, q.priority < p.priority → p.settledAt < q.calledAt

theorem classifyAttempt_ready (h : classifyAttempt participants = .ready) :
    ∀ p ∈ participants, p.status = .completed := by
  unfold classifyAttempt at h
  split_ifs at h with hopen hfailed
  intro p hp
  rw [Bool.not_eq_true, any_eq_false] at hopen hfailed
  have hnot := hopen p hp
  have hnotFailed := hfailed p hp
  cases hstatus : p.status with
  | completed => rfl
  | pending => simp [hstatus] at hnot
  | running => simp [hstatus] at hnot
  | failed => simp [hstatus] at hnotFailed
  | timedOut => simp [hstatus] at hnot

/-- What the end of a window leaves completed was so before, and a barrier ran in the round. -/
theorem endParticipant_completed (h : (attempt.endParticipant p).status = .completed) :
    attempt.endParticipant p = p ∧ p.status = .completed ∧
      (p.definition.repeatableBarrier = true → attempt.round ≤ p.invocationRound) := by
  unfold endParticipant at h ⊢
  by_cases hrunning : p.status = .running
  · rw [if_pos hrunning] at h
    cases h
  · rw [if_neg hrunning] at h ⊢
    by_cases hbarrier : p.definition.repeatableBarrier = true ∧ p.invocationRound < attempt.round
    · rw [if_pos hbarrier] at h
      cases h
    · rw [if_neg hbarrier] at h ⊢
      refine ⟨rfl, h, fun hb => ?_⟩
      by_contra hlt
      exact hbarrier ⟨hb, not_le.1 hlt⟩

theorem ready_flushed (hsound : ∀ p ∈ attempt.participants, Sound attempt.round clock p)
    (hflushed : Flushed attempt.round attempt.participants)
    (hready : classifyAttempt (attempt.participants.map attempt.endParticipant) = .ready) :
    FlushedLast (attempt.participants.map attempt.endParticipant) := by
  have hall : ∀ p' ∈ attempt.participants.map attempt.endParticipant,
      p' ∈ attempt.participants ∧ p'.status = .completed ∧
        (p'.definition.repeatableBarrier = true → p'.invocationRound = attempt.round) := by
    intro p' hp'
    have hcompleted := classifyAttempt_ready hready p' hp'
    obtain ⟨p, hp, rfl⟩ := mem_map.1 hp'
    obtain ⟨hsame, hstatus, hround⟩ := endParticipant_completed hcompleted
    rw [hsame]
    exact ⟨hp, hstatus, fun hb => le_antisymm (hsound p hp).round_le (hround hb)⟩
  refine ⟨fun p' hp' => ?_, fun q' hq' hbarrier p' hp' hhigher => ?_⟩
  · obtain ⟨hin, hcompleted, -⟩ := hall p' hp'
    have hsettled := (hsound p' hin).completed hcompleted
    exact ⟨hcompleted, (hsound p' hin).called hsettled, hsettled⟩
  · obtain ⟨hqin, hqcompleted, hqround⟩ := hall q' hq'
    obtain ⟨hpin, hpcompleted, -⟩ := hall p' hp'
    have hcalled := (hsound q' hqin).called ((hsound q' hqin).completed hqcompleted)
    exact hflushed q' hqin hbarrier (hqround hbarrier) hcalled p' hpin hhigher hpcompleted

end bbcom.shutdown
