-- The flush barrier of a close request: an exit that is not forced follows a flush that began
-- behind the producers it flushes.
import Bbcom.Js
import Bbcom.ShutdownWindows

open bbcom.runs

namespace bbcom.shutdown

open ShutdownCoordinator List Option ShutdownAttempt Nat

variable {clock now windowDeadline : Nat} {attempt : ShutdownAttempt} {priorities : List ℤ}

/-! ## An attempt -/

structure AttemptInv (clock now : Nat) (attempt : ShutdownAttempt) : Prop where
  sound : ∀ p ∈ attempt.participants, Sound attempt.round clock p
  idle : attempt.window = none → AllDone attempt.participants
  window : ∀ w, attempt.window = some w → attempt.closed = false ∧
    WindowInv attempt.round w.priorities (w.windowDeadline ≤ now) attempt.participants ∧
    Flushed attempt.round attempt.participants

theorem sound_endParticipant {p : AttemptParticipant} (h : Sound attempt.round clock p) :
    Sound attempt.round clock (attempt.endParticipant p) := by
  unfold endParticipant
  split_ifs
  · exact h.withStatus .timedOut (by decide) (by decide)
  · exact h.withStatus .timedOut (by decide) (by decide)
  · exact h

theorem endParticipant_runner (p : AttemptParticipant) :
    (attempt.endParticipant p).runner = p.runner := by
  unfold endParticipant
  split_ifs <;> rfl

/-- Where the loop over the priorities ends: in a group, or with an outcome. -/
inductive Drained (clock now : Nat) (attempt : ShutdownAttempt) :
    ShutdownAttempt × Option ShutdownState → Prop
  | group (participants : List AttemptParticipant) (w : DrainWindow)
      (h : AttemptInv clock now { attempt with participants, window := some w }) :
      Drained clock now attempt ({ attempt with participants, window := some w }, none)
  | ended (participants : List AttemptParticipant)
      (h : AttemptInv clock now { attempt with participants, window := none })
      (hready : classifyAttempt participants = .ready → FlushedLast participants) :
      Drained clock now attempt
        ({ attempt with participants, window := none }, some (classifyAttempt participants))

section

variable (hsound : ∀ p ∈ attempt.participants, Sound attempt.round clock p)
  (hdone : AllDone attempt.participants) (hopen : attempt.closed = false)
include hsound hdone hopen

theorem endWindow_drained (hflushed : Flushed attempt.round attempt.participants) :
    Drained clock now attempt attempt.endWindow := by
  unfold endWindow
  rw [if_neg (by simp [hopen])]
  refine Drained.ended _ ⟨?_, fun _ => ?_, by rintro w ⟨⟩⟩ (ready_flushed hsound hflushed)
  · intro p' hp'
    obtain ⟨p, hp, rfl⟩ := mem_map.1 hp'
    exact sound_endParticipant (hsound p hp)
  · intro p' hp'
    obtain ⟨p, hp, rfl⟩ := mem_map.1 hp'
    exact (endParticipant_runner p).trans (hdone p hp)

theorem drainLoop_drained
    (hwindow : WindowInv attempt.round priorities (windowDeadline ≤ now) attempt.participants)
    (hflushed : Flushed attempt.round attempt.participants) :
    Drained clock now attempt (attempt.drainLoop now windowDeadline priorities) := by
  induction priorities with
  | nil => exact endWindow_drained hsound hdone hopen hflushed
  | cons priority priorities ih =>
    unfold drainLoop
    split_ifs with hover hgroup
    · exact endWindow_drained hsound hdone hopen hflushed
    · obtain ⟨-, htime⟩ := not_or.1 hover
      refine Drained.group _ ⟨windowDeadline, priorities⟩ ⟨?_, by rintro ⟨⟩, ?_⟩
      · intro p' hp'
        obtain ⟨p, hp, rfl⟩ := List.mem_map.1 hp'
        split_ifs
        · exact (hsound p hp).enterLoop
        · exact hsound p hp
      · rintro w ⟨⟩
        refine ⟨hopen, hwindow.startGroup hsound hdone hopen htime, ?_⟩
        apply hflushed.keep
        intro p' hp'
        obtain ⟨p, hp, rfl⟩ := List.mem_map.1 hp'
        refine ⟨p, hp, ?_⟩
        split_ifs
        · exact records_enterLoop p _ _ _ _
        · exact records_refl _ p
    · apply ih
      apply hwindow.skip hsound
      intro p hp hpriority
      rw [Bool.not_eq_true, List.any_eq_false] at hgroup
      have hout := hgroup p hp
      unfold inGroup at hout
      simpa [hpriority] using hout

end

/-- A window begins with all priorities ahead. -/
theorem windowInv_begin {over_ : Prop} (hdone : AllDone attempt.participants)
    (hbefore : ∀ p ∈ attempt.participants, p.invocationRound < attempt.round) :
    WindowInv attempt.round attempt.priorities over_ attempt.participants := by
  have hall : ∀ p ∈ attempt.participants, p.priority ∈ attempt.priorities := by
    intro p hp
    unfold priorities
    rw [mem_insertionSort, mem_dedup]
    exact mem_map_of_mem hp
  refine ⟨fun p hp => Or.inl (hall p hp), ?_, fun p hp hahead => absurd (hall p hp) hahead, ?_⟩
  · unfold priorities
    have hsorted := pairwise_insertionSort (· ≥ ·)
      (attempt.participants.map (·.priority)).dedup
    have hnodup := (perm_insertionSort (· ≥ ·) _).nodup_iff.2
      (nodup_dedup (attempt.participants.map (·.priority)))
    exact (hsorted.and hnodup).imp fun h => lt_of_le_of_ne h.1 h.2.symm
  · rintro q hq (hrunning | hround)
    · exact absurd (hdone q hq) hrunning
    · exact absurd hround (hbefore q hq).ne

theorem flushed_begin (hbefore : ∀ p ∈ attempt.participants, p.invocationRound < attempt.round) :
    Flushed attempt.round attempt.participants :=
  fun q hq _ hround => absurd hround (hbefore q hq).ne

/-! ## The coordinator -/

/-- The parts of the coordinator fit, and what is ready or was confirmed without force is flushed
behind its producers. -/
structure Guarded (s : ShutdownCoordinator) : Prop where
  none_ : s.attempt = none → s.state = .idle
  attempt : ∀ a, s.attempt = some a → AttemptInv s.clock s.now a
  draining : ∀ a, s.attempt = some a → a.window ≠ none → s.state = .draining
  closed : ∀ a, s.attempt = some a → a.closed = true →
    s.state = .confirming ∨ s.state = .confirmed
  confirmed : ∀ a, s.attempt = some a → a.confirmation ≠ none → a.closed = true
  pending : ∀ a, s.attempt = some a → a.drainPending = true →
    s.state = .requested ∧ ∀ p ∈ a.participants, p.invocationRound < a.round
  ready : ∀ a, s.attempt = some a → s.state = .ready ∨ a.confirmation = some false →
    FlushedLast a.participants

theorem guarded_new : Guarded .new :=
  ⟨fun _ => rfl, by rintro a ⟨⟩, by rintro a ⟨⟩, by rintro a ⟨⟩, by rintro a ⟨⟩, by rintro a ⟨⟩,
    by rintro a ⟨⟩⟩

variable {s t : ShutdownCoordinator}

variable {laterClock : Nat} {attemptId : String} {a : ShutdownAttempt}

theorem AttemptInv.later (h : AttemptInv clock now attempt) {later : Nat}
    (hclock : clock ≤ laterClock) (hnow : now ≤ later) : AttemptInv laterClock later attempt := by
  refine ⟨fun p hp => (h.sound p hp).mono le_rfl hclock, h.idle, fun w hw => ?_⟩
  obtain ⟨hopen, hwindow, hflushed⟩ := h.window w hw
  exact ⟨hopen, hwindow.later fun hover => hover.trans hnow, hflushed⟩

/-- Time passes, and registrations come and go. -/
theorem Guarded.later (h : Guarded s) (registrations : List ShutdownDrainParticipant)
    {later : Nat} (hclock : s.clock ≤ laterClock) (hnow : s.now ≤ later) :
    Guarded { s with registrations, clock := laterClock, now := later } :=
  ⟨h.none_, fun a ha => (h.attempt a ha).later hclock hnow, h.draining, h.closed, h.confirmed,
    h.pending, h.ready⟩

/-- A call that throws changes nothing. -/
theorem guarded_getD {result : Except String ShutdownCoordinator} (h : Guarded s)
    (hok : ∀ t, result = .ok t → Guarded t) : Guarded (result.toOption.getD s) := by
  cases result with
  | error message => exact h
  | ok t => exact hok t rfl

theorem transition_ok {next : ShutdownState} (h : s.transition next = .ok t) :
    t = { s with state := next } ∧ next ∈ LEGAL_TRANSITIONS s.state := by
  unfold transition at h
  split_ifs at h with hlegal
  exact ⟨(Except.ok.inj h).symm, hlegal⟩

theorem Guarded.requestClose (h : Guarded s) (hok : s.requestClose attemptId = .ok t) :
    Guarded t := by
  unfold ShutdownCoordinator.requestClose at hok
  split at hok
  · split_ifs at hok
    cases hok
    exact h
  · split_ifs at hok with hstate
    obtain ⟨rfl, -⟩ := transition_ok hok
    refine ⟨by rintro ⟨⟩, ?_, ?_, ?_, ?_, ?_, ?_⟩
    · rintro a ⟨⟩
      refine ⟨?_, fun _ => ?_, by rintro w ⟨⟩⟩
      · intro p hp
        obtain ⟨definition, -, rfl⟩ := mem_map.1 hp
        exact sound_new definition
      · intro p hp
        obtain ⟨definition, -, rfl⟩ := mem_map.1 hp
        rfl
    · rintro a ⟨⟩ hwindow
      exact absurd rfl hwindow
    · rintro a ⟨⟩ ⟨⟩
    · rintro a ⟨⟩ hconfirmation
      exact absurd rfl hconfirmation
    · rintro a ⟨⟩ -
      refine ⟨rfl, fun p hp => ?_⟩
      obtain ⟨definition, -, rfl⟩ := mem_map.1 hp
      exact neg_one_lt_zero
    · rintro a ⟨⟩ (hready | hconfirmed)
      · cases hready
      · cases hconfirmed

/-- A window that goes on leaves the coordinator in its group, or in the state of its outcome. -/
theorem guarded_drain (hstate : s.state = .draining)
    (hsound : ∀ p ∈ a.participants, Sound a.round s.clock p) (hdone : AllDone a.participants)
    (hopen : a.closed = false) (hconfirmation : a.confirmation = none)
    (hpending : a.drainPending = false)
    (hwindow : WindowInv a.round priorities (windowDeadline ≤ s.now) a.participants)
    (hflushed : Flushed a.round a.participants)
    (hok : s.drain a windowDeadline priorities = .ok t) : Guarded t := by
  have hdrained := drainLoop_drained hsound hdone hopen hwindow hflushed
  unfold drain at hok
  generalize a.drainLoop s.now windowDeadline priorities = result at hok hdrained
  cases hdrained with
  | group participants w hinv =>
    cases hok
    refine ⟨by rintro ⟨⟩, ?_, fun _ _ _ => hstate, ?_, ?_, ?_, ?_⟩
    · rintro b ⟨⟩
      exact hinv
    · rintro b ⟨⟩ hclosed
      rw [hopen] at hclosed
      cases hclosed
    · rintro b ⟨⟩ hsome
      exact absurd hconfirmation hsome
    · rintro b ⟨⟩ hb
      rw [hpending] at hb
      cases hb
    · rintro b ⟨⟩ (hready | hconfirmed)
      · rw [hstate] at hready
        cases hready
      · rw [hconfirmation] at hconfirmed
        cases hconfirmed
  | ended participants hinv hready =>
    obtain ⟨rfl, hlegal⟩ := transition_ok hok
    refine ⟨by rintro ⟨⟩, ?_, ?_, ?_, ?_, ?_, ?_⟩
    · rintro b ⟨⟩
      exact hinv
    · rintro b ⟨⟩ hsome
      exact absurd rfl hsome
    · rintro b ⟨⟩ hclosed
      rw [hopen] at hclosed
      cases hclosed
    · rintro b ⟨⟩ hsome
      exact absurd hconfirmation hsome
    · rintro b ⟨⟩ hb
      rw [hpending] at hb
      cases hb
    · rintro b ⟨⟩ (hclass | hconfirmed)
      · exact hready hclass
      · rw [hconfirmation] at hconfirmed
        cases hconfirmed

/-- A new round begins with no participant invoked in it. -/
theorem guarded_runDrainWindow (hok : s.runDrainWindow a = .ok t) (hstate : s.state = .draining)
    (hsound : ∀ p ∈ a.participants, Sound a.round s.clock p) (hdone : AllDone a.participants)
    (hbefore : ∀ p ∈ a.participants, p.invocationRound < a.round) (hopen : a.closed = false)
    (hconfirmation : a.confirmation = none) (hpending : a.drainPending = false) : Guarded t :=
  guarded_drain hstate hsound hdone hopen hconfirmation hpending (windowInv_begin hdone hbefore)
    (flushed_begin hbefore) hok

/-- An attempt that is neither closed nor in a window. -/
theorem Guarded.waiting (h : Guarded s) (ha : s.attempt = some a) (hdraining : s.state ≠ .draining)
    (hconfirming : s.state ≠ .confirming) (hconfirmed : s.state ≠ .confirmed) :
    a.window = none ∧ a.closed = false ∧ a.confirmation = none := by
  have hwindow : a.window = none := by
    by_contra hsome
    exact hdraining (h.draining a ha hsome)
  have hopen : a.closed = false := by
    by_contra hclosed
    rcases h.closed a ha (Bool.eq_true_of_not_eq_false hclosed) with hs | hs
    · exact hconfirming hs
    · exact hconfirmed hs
  refine ⟨hwindow, hopen, ?_⟩
  by_contra hsome
  rw [h.confirmed a ha hsome] at hopen
  cases hopen

theorem Guarded.drainBegins (h : Guarded s) (hok : s.drainBegins = .ok t) : Guarded t := by
  unfold ShutdownCoordinator.drainBegins at hok
  cases ha : s.attempt with
  | none =>
    rw [ha] at hok
    cases hok
    exact h
  | some a =>
    rw [ha] at hok
    simp only at hok
    split_ifs at hok with hpending
    · obtain ⟨u, hu, hrun⟩ := js.bind_eq_ok.1 hok
      obtain ⟨rfl, -⟩ := transition_ok hu
      obtain ⟨hrequested, hbefore⟩ := h.pending a ha hpending
      obtain ⟨hwindow, hopen, hconfirmation⟩ := h.waiting ha (by rw [hrequested]; decide)
        (by rw [hrequested]; decide) (by rw [hrequested]; decide)
      have hinv := h.attempt a ha
      exact guarded_runDrainWindow hrun rfl hinv.sound (hinv.idle hwindow) hbefore hopen
        hconfirmation rfl
    · cases hok
      exact h

theorem requireAttempt_ok (h : s.requireAttempt attemptId = .ok a) : s.attempt = some a := by
  unfold requireAttempt at h
  split at h
  · rename_i b hb
    split_ifs at h
    cases h
    exact hb
  · cases h

theorem Guarded.wait (h : Guarded s) (hok : s.wait attemptId = .ok t) : Guarded t := by
  unfold ShutdownCoordinator.wait at hok
  obtain ⟨a, hrequire, hok⟩ := js.bind_eq_ok.1 hok
  have ha := requireAttempt_ok hrequire
  split_ifs at hok with hstate
  obtain ⟨u, hu, hrun⟩ := js.bind_eq_ok.1 hok
  obtain ⟨rfl, -⟩ := transition_ok hu
  have hdecision : s.state = .timedOut ∨ s.state = .failed := by
    by_contra hnot
    exact hstate (not_or.1 hnot)
  obtain ⟨hwindow, hopen, hconfirmation⟩ := h.waiting ha
    (by rcases hdecision with hs | hs <;> rw [hs] <;> decide)
    (by rcases hdecision with hs | hs <;> rw [hs] <;> decide)
    (by rcases hdecision with hs | hs <;> rw [hs] <;> decide)
  have hpending : a.drainPending = false := by
    by_contra hp
    have hrequested := (h.pending a ha (Bool.eq_true_of_not_eq_false hp)).1
    rcases hdecision with hs | hs
    · rw [hs] at hrequested
      cases hrequested
    · rw [hs] at hrequested
      cases hrequested
  have hinv := h.attempt a ha
  exact guarded_runDrainWindow hrun rfl
    (fun p hp => (hinv.sound p hp).mono (lt_add_one a.round).le le_rfl) (hinv.idle hwindow)
    (fun p hp => (hinv.sound p hp).round_le.trans_lt (lt_add_one a.round)) hopen hconfirmation
    hpending

theorem Guarded.groupDone (h : Guarded s) (hok : s.groupDone = .ok t) : Guarded t := by
  unfold ShutdownCoordinator.groupDone at hok
  cases ha : s.attempt with
  | none =>
    rw [ha] at hok
    cases hok
    exact h
  | some a =>
    rw [ha] at hok
    simp only at hok
    cases hw : a.window with
    | none =>
      rw [hw] at hok
      cases hok
      exact h
    | some w =>
      rw [hw] at hok
      simp only at hok
      split_ifs at hok with hall
      · have hdraining := h.draining a ha (by rw [hw]; rintro ⟨⟩)
        have hinv := h.attempt a ha
        obtain ⟨hopen, hwindow, hflushed⟩ := hinv.window w hw
        have hdone : AllDone a.participants := by
          intro p hp
          exact of_decide_eq_true (all_eq_true.1 hall p hp)
        have hconfirmation : a.confirmation = none := by
          by_contra hsome
          rw [h.confirmed a ha hsome] at hopen
          cases hopen
        have hpending : a.drainPending = false := by
          by_contra hp
          rw [(h.pending a ha (Bool.eq_true_of_not_eq_false hp)).1] at hdraining
          cases hdraining
        exact guarded_drain hdraining hinv.sound hdone hopen hconfirmation hpending hwindow hflushed
          hok
      · cases hok
        exact h

/-- A decision closes the attempt. -/
theorem Guarded.decide_ (h : Guarded s) {b : ShutdownAttempt} (ha : s.attempt = some a)
    (hdecision : s.state = .ready ∨ s.state = .timedOut ∨ s.state = .failed)
    (hb : b.participants = a.participants ∧ b.round = a.round ∧ b.window = a.window ∧
      b.drainPending = a.drainPending ∧ b.closed = true)
    (hready : b.confirmation = some false → s.state = .ready) :
    Guarded { s with attempt := some b, state := .confirming } := by
  obtain ⟨hparticipants, hround, hwindow, hpending, hclosed⟩ := hb
  obtain ⟨hnone, -, -⟩ := h.waiting ha
    (by rcases hdecision with hs | hs | hs <;> rw [hs] <;> decide)
    (by rcases hdecision with hs | hs | hs <;> rw [hs] <;> decide)
    (by rcases hdecision with hs | hs | hs <;> rw [hs] <;> decide)
  have hinv := h.attempt a ha
  refine ⟨by rintro ⟨⟩, ?_, ?_, ?_, ?_, ?_, ?_⟩
  · rintro c ⟨⟩
    refine ⟨?_, ?_, ?_⟩
    · rw [hparticipants, hround]
      exact hinv.sound
    · rw [hparticipants, hwindow]
      exact hinv.idle
    · intro w hw
      rw [hwindow, hnone] at hw
      cases hw
  · rintro c ⟨⟩ hsome
    exact absurd (hwindow.trans hnone) hsome
  · rintro c ⟨⟩ -
    exact Or.inl rfl
  · rintro c ⟨⟩ -
    exact hclosed
  · rintro c ⟨⟩ hp
    rw [hpending] at hp
    have hrequested := (h.pending a ha hp).1
    rcases hdecision with hs | hs | hs
    · rw [hs] at hrequested
      cases hrequested
    · rw [hs] at hrequested
      cases hrequested
    · rw [hs] at hrequested
      cases hrequested
  · rintro c ⟨⟩ (hs | hconfirmed)
    · cases hs
    · rw [hparticipants]
      exact h.ready a ha (Or.inl (hready hconfirmed))

theorem Guarded.cancel (h : Guarded s) (hok : s.cancel attemptId = .ok t) : Guarded t := by
  unfold ShutdownCoordinator.cancel at hok
  obtain ⟨a, hrequire, hok⟩ := js.bind_eq_ok.1 hok
  have ha := requireAttempt_ok hrequire
  split_ifs at hok with hcancelled hstate
  · cases hok
    exact h
  · obtain ⟨rfl, -⟩ := transition_ok hok
    have hdecision : s.state = .ready ∨ s.state = .timedOut ∨ s.state = .failed := by
      by_contra hnot
      obtain ⟨h1, hrest⟩ := not_or.1 hnot
      exact hstate ⟨h1, not_or.1 hrest⟩
    have hconfirmation : a.confirmation = none := (h.waiting ha
      (by rcases hdecision with hs | hs | hs <;> rw [hs] <;> decide)
      (by rcases hdecision with hs | hs | hs <;> rw [hs] <;> decide)
      (by rcases hdecision with hs | hs | hs <;> rw [hs] <;> decide)).2.2
    apply h.decide_ (b := { a with closed := true, cancellation := true }) ha hdecision
      ⟨rfl, rfl, rfl, rfl, rfl⟩
    intro hconfirmed
    exact absurd (hconfirmation.symm.trans hconfirmed) (by simp)

theorem guarded_acknowledgeCancellation (hok : s.acknowledgeCancellation attemptId = .ok t) :
    Guarded t := by
  unfold acknowledgeCancellation at hok
  obtain ⟨a, hrequire, hok⟩ := js.bind_eq_ok.1 hok
  split_ifs at hok
  obtain ⟨u, hu, hok⟩ := js.bind_eq_ok.1 hok
  obtain ⟨rfl, -⟩ := transition_ok hu
  obtain ⟨rfl, -⟩ := transition_ok hok
  exact ⟨fun _ => rfl, by rintro b ⟨⟩, by rintro b ⟨⟩, by rintro b ⟨⟩, by rintro b ⟨⟩,
    by rintro b ⟨⟩, by rintro b ⟨⟩⟩

theorem Guarded.confirm (h : Guarded s) {forced : Bool} (ha : s.attempt = some a)
    (hdecision : s.state = .ready ∨ s.state = .timedOut ∨ s.state = .failed)
    (hforced : forced = false → s.state = .ready) (hok : s.confirm a forced = .ok t) :
    Guarded t := by
  obtain ⟨rfl, -⟩ := transition_ok hok
  apply h.decide_ (b := { a with closed := true, confirmation := some forced }) ha hdecision
    ⟨rfl, rfl, rfl, rfl, rfl⟩
  intro hconfirmed
  exact hforced (Option.some.inj hconfirmed)

theorem Guarded.confirmExit (h : Guarded s) (hok : s.confirmExit attemptId = .ok t) :
    Guarded t := by
  unfold ShutdownCoordinator.confirmExit at hok
  obtain ⟨a, hrequire, hok⟩ := js.bind_eq_ok.1 hok
  split_ifs at hok with hconfirmed hstate
  · cases hok
    exact h
  · rw [not_not] at hstate
    exact h.confirm (requireAttempt_ok hrequire) (Or.inl hstate) (fun _ => hstate) hok

theorem Guarded.force (h : Guarded s) (hok : s.force attemptId = .ok t) : Guarded t := by
  unfold ShutdownCoordinator.force at hok
  obtain ⟨a, hrequire, hok⟩ := js.bind_eq_ok.1 hok
  split_ifs at hok with hconfirmed hstate
  · cases hok
    exact h
  · have hdecision : s.state = .timedOut ∨ s.state = .failed := by
      by_contra hnot
      exact hstate (not_or.1 hnot)
    exact h.confirm (requireAttempt_ok hrequire) (Or.inr hdecision) (by rintro ⟨⟩) hok

theorem Guarded.acknowledgeConfirmation (h : Guarded s)
    (hok : s.acknowledgeConfirmation attemptId = .ok t) : Guarded t := by
  unfold ShutdownCoordinator.acknowledgeConfirmation at hok
  obtain ⟨a, hrequire, hok⟩ := js.bind_eq_ok.1 hok
  have ha := requireAttempt_ok hrequire
  split_ifs at hok with hstate
  obtain ⟨-, hconfirming⟩ := not_or.1 hstate
  rw [not_not] at hconfirming
  obtain ⟨rfl, -⟩ := transition_ok hok
  refine ⟨fun hnone => ?_, h.attempt, fun b hb hsome => ?_, fun _ _ _ => Or.inr rfl, h.confirmed,
    fun b hb hp => ?_, fun b hb hready => ?_⟩
  · rw [hnone] at ha
    cases ha
  · rw [h.draining b hb hsome] at hconfirming
    cases hconfirming
  · rw [(h.pending b hb hp).1] at hconfirming
    cases hconfirming
  · rcases hready with hs | hconfirmed
    · cases hs
    · exact h.ready b hb (Or.inr hconfirmed)

/-! ## What happens to one participant -/

variable {i : Nat}

theorem mem_modify {α : Type} {l : List α} {f : α → α} {x : α} (h : x ∈ l.modify i f) :
    x ∈ l ∨ ∃ y, l[i]? = some y ∧ x = f y := by
  obtain ⟨j, hj⟩ := mem_iff_getElem?.1 h
  rw [getElem?_modify] at hj
  by_cases hij : i = j
  · subst hij
    obtain ⟨y, hy, heq⟩ := map_eq_some_iff.1 hj
    rw [if_pos rfl] at heq
    exact Or.inr ⟨y, hy, heq.symm⟩
  · obtain ⟨y, hy, heq⟩ := map_eq_some_iff.1 hj
    rw [if_neg hij] at heq
    exact Or.inl (heq ▸ mem_of_getElem? hy)

/-- A step of one participant that its attempt and a finished attempt can bear. -/
theorem Guarded.onParticipant (h : Guarded s) (hclock : s.clock ≤ laterClock)
    {f : ShutdownAttempt → AttemptParticipant → AttemptParticipant}
    (hsound : ∀ a, s.attempt = some a → ∀ p ∈ a.participants, Sound a.round s.clock p →
      Sound a.round laterClock (f a p))
    (hrunner : ∀ a, a.window = none → ∀ p : AttemptParticipant, p.runner = .done →
      (f a p).runner = .done)
    (hround : ∀ a, a.drainPending = true → ∀ p : AttemptParticipant, a.window = none →
      p.invocationRound < a.round → (f a p).invocationRound < a.round)
    (hfinished : ∀ a, a.window = none → ∀ p : AttemptParticipant, p.runner = .done →
      p.called = true → p.settled = true → f a p = p)
    (hwindow : ∀ a w, s.attempt = some a → a.window = some w → a.closed = false →
      WindowInv a.round w.priorities (w.windowDeadline ≤ s.now) a.participants →
      Flushed a.round a.participants →
      WindowInv a.round w.priorities (w.windowDeadline ≤ s.now) (a.participants.modify i (f a)) ∧
      Flushed a.round (a.participants.modify i (f a))) :
    Guarded ({ s with clock := laterClock }.onParticipant i f) := by
  unfold ShutdownCoordinator.onParticipant
  cases ha : s.attempt with
  | none =>
    have hlater := h.later s.registrations hclock le_rfl
    rw [ha] at hlater
    exact hlater
  | some a =>
    simp only
    have hinv := h.attempt a ha
    have hmem : ∀ p' ∈ a.participants.modify i (f a),
        p' ∈ a.participants ∨ ∃ p ∈ a.participants, p' = f a p := by
      intro p' hp'
      rcases mem_modify hp' with hold | ⟨p, hp, rfl⟩
      · exact Or.inl hold
      · exact Or.inr ⟨p, mem_of_getElem? hp, rfl⟩
    refine ⟨by rintro ⟨⟩, ?_, ?_, ?_, ?_, ?_, ?_⟩
    · rintro b ⟨⟩
      refine ⟨?_, ?_, ?_⟩
      · intro p' hp'
        rcases hmem p' hp' with hold | ⟨p, hp, rfl⟩
        · exact (hinv.sound p' hold).mono le_rfl hclock
        · exact hsound a ha p hp (hinv.sound p hp)
      · intro hnone p' hp'
        rcases hmem p' hp' with hold | ⟨p, hp, rfl⟩
        · exact hinv.idle hnone p' hold
        · exact hrunner a hnone p (hinv.idle hnone p hp)
      · intro w hw
        obtain ⟨hopen, hwin, hflushed⟩ := hinv.window w hw
        obtain ⟨hwin', hflushed'⟩ := hwindow a w ha hw hopen hwin hflushed
        exact ⟨hopen, hwin', hflushed'⟩
    · rintro b ⟨⟩
      exact h.draining a ha
    · rintro b ⟨⟩
      exact h.closed a ha
    · rintro b ⟨⟩
      exact h.confirmed a ha
    · rintro b ⟨⟩ hpending
      obtain ⟨hrequested, hbefore⟩ := h.pending a ha hpending
      have hnone := (h.waiting ha (by rw [hrequested]; decide) (by rw [hrequested]; decide)
        (by rw [hrequested]; decide)).1
      refine ⟨hrequested, fun p' hp' => ?_⟩
      rcases hmem p' hp' with hold | ⟨p, hp, rfl⟩
      · exact hbefore p' hold
      · exact hround a hpending p hnone (hbefore p hp)
    · rintro b ⟨⟩ hready
      have hlast := h.ready a ha hready
      have hnone : a.window = none := by
        by_contra hsome
        obtain ⟨w, hw⟩ := ne_none_iff_exists'.1 hsome
        have hdraining := h.draining a ha hsome
        rcases hready with hs | hconfirmed
        · rw [hdraining] at hs
          cases hs
        · have hclosed := h.confirmed a ha (by rw [hconfirmed]; rintro ⟨⟩)
          rw [(hinv.window w hw).1] at hclosed
          cases hclosed
      -- nothing more happens to a participant that is through
      have hsame : a.participants.modify i (f a) = a.participants := by
        apply ext_getElem?
        intro j
        rw [getElem?_modify]
        cases hj : a.participants[j]? with
        | none => rfl
        | some p =>
          have hp := mem_of_getElem? hj
          obtain ⟨-, hcalled, hsettled⟩ := hlast.1 p hp
          simp only [Option.map_eq_map, map_some]
          split_ifs
          · rw [hfinished a hnone p (hinv.idle hnone p hp) hcalled hsettled]
          · rfl
      simp only
      rw [hsame]
      exact hlast

theorem Guarded.call (h : Guarded s) (i : Nat) :
    Guarded ({ s with clock := s.clock + 1 }.onParticipant i fun _ => callDrain (s.clock + 1)) := by
  apply h.onParticipant (le_succ _)
  · intro a _ p _ hp
    exact hp.callDrain
  · intro a _ p hdone
    exact (evolves_callDrain 0 False _ p).stays hdone
  · intro a _ p _ hbefore
    unfold callDrain
    split_ifs
    · exact hbefore
    · exact hbefore
  · intro a _ p _ hcalled _
    unfold callDrain
    rw [if_neg (by simp [hcalled])]
  · intro a w ha _ _ hwindow hflushed
    have hinv := h.attempt a ha
    refine ⟨hwindow.evolve fun p' hp' => ?_, flushed_call hflushed hinv.sound fun p' hp' => ?_⟩
    · rcases mem_modify hp' with hold | ⟨p, hp, rfl⟩
      · exact ⟨p', hold, evolves_refl _ _ _⟩
      · exact ⟨p, mem_of_getElem? hp, evolves_callDrain _ _ _ _⟩
    · rcases mem_modify hp' with hold | ⟨p, hp, rfl⟩
      · exact ⟨p', hold, Or.inl rfl⟩
      · exact ⟨p, mem_of_getElem? hp, Or.inr rfl⟩

theorem Guarded.timer (h : Guarded s) (i : Nat) :
    Guarded ({ s with clock := s.clock + 1 }.onParticipant i fun _ => fireTimer s.now) := by
  apply h.onParticipant (le_succ _)
  · intro a _ p _ hp
    exact (hp.fireTimer s.now).mono le_rfl (le_succ _)
  · intro a _ p hdone
    exact (evolves_fireTimer 0 False _ p).stays hdone
  · intro a _ p _ hbefore
    unfold fireTimer
    split
    · split_ifs
      · exact hbefore
      · exact hbefore
    · exact hbefore
  · intro a _ p hdone _ _
    unfold fireTimer
    rw [hdone]
  · intro a w _ _ _ hwindow hflushed
    refine ⟨hwindow.evolve fun p' hp' => ?_, hflushed.keep fun p' hp' => ?_⟩
    · rcases mem_modify hp' with hold | ⟨p, hp, rfl⟩
      · exact ⟨p', hold, evolves_refl _ _ _⟩
      · exact ⟨p, mem_of_getElem? hp, evolves_fireTimer _ _ _ _⟩
    · rcases mem_modify hp' with hold | ⟨p, hp, rfl⟩
      · exact ⟨p', hold, records_refl _ _⟩
      · exact ⟨p, mem_of_getElem? hp, records_fireTimer _ _ _⟩

theorem goOnRunner_idle (hnone : a.window = none) (now : Nat) (p : AttemptParticipant) :
    goOnRunner now a p = p := by
  unfold goOnRunner
  rw [hnone]
  cases p.runner <;> rfl

theorem Guarded.goOn (h : Guarded s) (i : Nat) :
    Guarded ({ s with clock := s.clock + 1 }.onParticipant i (goOnRunner s.now)) := by
  apply h.onParticipant (le_succ _)
  · intro a _ p _ hp
    have hnext : Sound a.round s.clock (goOnRunner s.now a p) := by
      unfold goOnRunner
      split
      · exact hp.afterWait _
      · exact hp
    exact hnext.mono le_rfl (le_succ _)
  · intro a hnone p hdone
    rw [goOnRunner_idle hnone]
    exact hdone
  · intro a _ p hnone hbefore
    rw [goOnRunner_idle hnone]
    exact hbefore
  · intro a hnone p _ _ _
    exact goOnRunner_idle hnone s.now p
  · intro a w ha hw hopen hwindow hflushed
    have hinv := h.attempt a ha
    refine ⟨hwindow.evolve fun p' hp' => ?_, hflushed.keep fun p' hp' => ?_⟩
    · rcases mem_modify hp' with hold | ⟨p, hp, rfl⟩
      · exact ⟨p', hold, evolves_refl _ _ _⟩
      · have hin := mem_of_getElem? hp
        exact ⟨p, hin, evolves_goOnRunner (hinv.sound p hin) hw hopen rfl _⟩
    · rcases mem_modify hp' with hold | ⟨p, hp, rfl⟩
      · exact ⟨p', hold, records_refl _ _⟩
      · exact ⟨p, mem_of_getElem? hp, records_goOnRunner _ rfl _ _⟩

/-- A participant that its window has left behind completes, although a barrier below it was
already called in the round. -/
def completesLate (s : ShutdownCoordinator) : Event → Bool
  | .settle i .completed =>
    match s.attempt with
    | some attempt =>
      match attempt.participants[i]? with
      | some p =>
        attempt.window.isSome && p.called && !p.settled && decide (p.status = .timedOut) &&
          attempt.participants.any fun q => q.definition.repeatableBarrier && q.called &&
            decide (q.invocationRound = attempt.round ∧ q.priority < p.priority)
      | none => false
    | none => false
  | _ => false

theorem Guarded.settle (h : Guarded s) {outcome : DrainOutcome}
    (htime : completesLate s (.settle i outcome) = false) :
    Guarded ({ s with clock := s.clock + 1 }.onParticipant i
      (settleDrain (s.clock + 1) outcome)) := by
  apply h.onParticipant (le_succ _)
  · intro a _ p _ hp
    exact hp.settleDrain outcome a
  · intro a _ p hdone
    exact (evolves_settleDrain 0 False _ outcome a p).stays hdone
  · intro a _ p _ hbefore
    unfold settleDrain
    split_ifs
    · exact hbefore
    · exact hbefore
  · intro a _ p _ _ hsettled
    unfold settleDrain
    rw [if_neg (by simp [hsettled])]
  · intro a w ha hw hopen hwindow hflushed
    have hinv := h.attempt a ha
    refine ⟨hwindow.evolve fun p' hp' => ?_, ?_⟩
    · rcases mem_modify hp' with hold | ⟨p, hp, rfl⟩
      · exact ⟨p', hold, evolves_refl _ _ _⟩
      · exact ⟨p, mem_of_getElem? hp, evolves_settleDrain _ _ _ _ _ _⟩
    · cases hp : a.participants[i]? with
      | none =>
        have hsame : a.participants.modify i (settleDrain (s.clock + 1) outcome a) =
            a.participants :=
          modify_eq_self (List.getElem?_eq_none_iff.1 hp)
        rw [hsame]
        exact hflushed
      | some p =>
        have hin := mem_of_getElem? hp
        have hmodified : ∀ p' ∈ a.participants.modify i (settleDrain (s.clock + 1) outcome a),
            p' ∈ a.participants ∨ p' = settleDrain (s.clock + 1) outcome a p := by
          intro p' hp'
          rcases mem_modify hp' with hold | ⟨q, hq, rfl⟩
          · exact Or.inl hold
          · rw [hp, some.injEq] at hq
            rw [← hq]
            exact Or.inr rfl
        refine flushed_settle hflushed hmodified hin ?_ ?_
        · rintro hcalled hunsettled rfl q hq hbarrier hround hqcalled hbelow
          -- a barrier below it was called, so it was left behind
          obtain ⟨-, hpassed⟩ := hwindow.begun q hq (Or.inr hround)
          obtain ⟨-, hsettled | hleft⟩ := hpassed p hin hbelow
          · rw [hunsettled] at hsettled
            cases hsettled
          · unfold completesLate at htime
            simp only [ha, hp, hw, isSome_some, hcalled, hunsettled, hleft, Bool.not_false,
              Bool.and_true, decide_true, Bool.true_and, List.any_eq_false] at htime
            exact htime q hq (by simp [hbarrier, hqcalled, hround, hbelow])
        · intro hunsettled hcompleted
          rw [(hinv.sound p hin).completed hcompleted] at hunsettled
          cases hunsettled

/-! ## Every run -/

theorem guarded_step (h : Guarded s) {e : Event} (htime : completesLate s e = false) :
    Guarded (step s e) := by
  have hnext : Guarded { s with clock := s.clock + 1 } :=
    h.later s.registrations (le_succ _) le_rfl
  cases e with
  | register participant =>
    refine guarded_getD hnext fun t ht => ?_
    unfold register at ht
    split_ifs at ht
    cases ht
    exact h.later _ (le_succ _) le_rfl
  | unregister name => exact h.later _ (le_succ _) le_rfl
  | requestClose attemptId => exact guarded_getD hnext fun t ht => hnext.requestClose ht
  | drainBegins => exact guarded_getD hnext fun t ht => hnext.drainBegins ht
  | wait attemptId => exact guarded_getD hnext fun t ht => hnext.wait ht
  | cancel attemptId => exact guarded_getD hnext fun t ht => hnext.cancel ht
  | acknowledgeCancellation attemptId =>
    exact guarded_getD hnext fun t ht => guarded_acknowledgeCancellation ht
  | confirmExit attemptId => exact guarded_getD hnext fun t ht => hnext.confirmExit ht
  | force attemptId => exact guarded_getD hnext fun t ht => hnext.force ht
  | acknowledgeConfirmation attemptId =>
    exact guarded_getD hnext fun t ht => hnext.acknowledgeConfirmation ht
  | call i => exact h.call i
  | settle i outcome => exact h.settle htime
  | timer i => exact h.timer i
  | goOn i => exact h.goOn i
  | groupDone => exact guarded_getD hnext fun t ht => hnext.groupDone ht
  | tick ms => exact h.later _ (le_succ _) (le_add_right _ _)

/-- No participant that was left behind completes behind a barrier of its window. -/
def NoneCompletesLate : ShutdownCoordinator → List Event → Prop
  | _, [] => True
  | s, e :: events => completesLate s e = false ∧ NoneCompletesLate (step s e) events

theorem guarded_run (h : Guarded s) {events : List Event} (htime : NoneCompletesLate s events) :
    Guarded (run step s events) := by
  induction events generalizing s with
  | nil => exact h
  | cons e events ih => exact ih (guarded_step h htime.1) htime.2

/-- What is ready, or was confirmed without force, is flushed behind its producers. -/
def ReadyFlushed (s : ShutdownCoordinator) : Prop :=
  (s.state = .ready → s.attempt ≠ none) ∧
    ∀ attempt ∈ s.attempt, s.state = .ready ∨ attempt.confirmation = some false →
      FlushedLast attempt.participants

def quiesce : ShutdownDrainParticipant := ⟨"quiesce", 500, 100, false, by decide, by decide⟩

def persistence : ShutdownDrainParticipant :=
  ⟨"persistence", 100, 1000, true, by decide, by decide⟩

/-- The quiesce outlasts its time, the flush begins, and then the quiesce completes. -/
def lateQuiesce : List Event :=
  [.register quiesce, .register persistence, .requestClose "close", .drainBegins, .call 0,
    .tick 100,
    .timer 0, .goOn 0, .groupDone, .call 1, .settle 0 .completed, .settle 1 .completed, .goOn 1,
    .groupDone]

theorem a_flush_before_its_producer_is_quiet :
    ¬ ∀ events, ReadyFlushed (run step .new events) := by
  intro h
  have hearly : ∃ a, (run step .new lateQuiesce).attempt = some a ∧
      ¬ ∀ q ∈ a.participants, q.definition.repeatableBarrier = true →
        ∀ p ∈ a.participants, q.priority < p.priority → p.settledAt < q.calledAt :=
    ⟨_, rfl, by decide +kernel⟩
  obtain ⟨a, ha, hearly⟩ := hearly
  exact hearly ((h lateQuiesce).2 a ha (Or.inl (by decide +kernel))).2

/-- In every run in which no participant that its window has left behind completes behind a barrier
of that window, a ready or unforced exit has all participants completed and each barrier called
behind all that come before it. -/
theorem ready_is_flushed_unless_a_participant_completes_late (events : List Event)
    (htime : NoneCompletesLate .new events) : ReadyFlushed (run step .new events) := by
  have h := guarded_run guarded_new htime
  refine ⟨fun hready hnone => ?_, fun attempt hattempt => h.ready attempt hattempt⟩
  rw [h.none_ hnone] at hready
  cases hready

/-- The quiesce is left behind, completes between two windows, and the flush of the second window
comes behind it. -/
theorem a_second_window_flushes_again :
    ReadyFlushed (run step .new
      [.register quiesce, .register persistence, .requestClose "close", .drainBegins, .call 0,
        .tick 100, .timer 0, .goOn 0, .groupDone, .call 1, .settle 1 .completed, .goOn 1,
        .groupDone, .settle 0 .completed, .wait "close", .call 1, .settle 1 .completed, .goOn 1,
        .groupDone, .confirmExit "close"]) :=
  ready_is_flushed_unless_a_participant_completes_late _ (by
    simp only [NoneCompletesLate]
    decide +kernel)

end bbcom.shutdown
