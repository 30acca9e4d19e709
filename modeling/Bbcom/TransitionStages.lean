-- The books of the runtime transitions at each await of an attempt (`activation-coordinator.ts`,
-- `hydration-pipeline.ts`): what an attempt may count on there, and that each piece of it keeps
-- the books.
import Bbcom.ActivationOwnership
import Bbcom.TransitionBooks

namespace bbcom.workspace_activation

open List Function State

/-! ## What holds at an await -/

/-- The quiesce of the current transition has been through, if it has started. -/
def QuiesceOver (participants : List String) (log : List Happening)
    (transitions : Nat → RuntimeTransition) (current : Option Nat) : Prop :=
  ∀ t, current = some t → (transitions t).quiesceStarted = true →
    (transitions t).quiesceFailure = none → OwnId log t → ∀ p ∈ participants, .quiesced t p ∈ log

/-- A loop over the participants has `rest` before it, and has left `P` of those behind it. -/
def UpTo (participants rest : List String) (P : String → Prop) : Prop :=
  ∃ done, participants = done ++ rest ∧ ∀ p ∈ done, P p

/-- The quiesce of a transition that has something to quiesce has started. -/
def Quieted (transition : RuntimeTransition) : Prop :=
  transition.previousWorkspaceId.isSome = true → transition.quiesceStarted = true

/-- A loop of `dispose`: those behind it are disposed of, the one before it is not yet. -/
def DisposedUpTo (participants rest : List String) (log : List Happening) (t : Nat) : Prop :=
  (UpTo participants rest fun p => OwnId log t → .disposed t p ∈ log) ∧
    ∀ p, rest.head? = some p → OwnId log t → .disposed t p ∉ log

/-- What the restore has left of a participant that needed it. -/
def RestoreTried (log : List Happening) (t : Nat) (anyFailed : Bool) (q : String) : Prop :=
  Started log t q → .restored t q ∈ log ∨ .restoreFailed t q ∈ log ∧ anyFailed = true

def StageOk (participants : List String) (log : List Happening)
    (transitions : Nat → RuntimeTransition) (current : Option Nat) : Stage → Prop
  | .quiescing t rest error =>
    current = some t ∧ (transitions t).quiesceStarted = true ∧
      (transitions t).quiesceFailure = none ∧
      (error = none → UpTo participants rest fun p => OwnId log t → .quiesced t p ∈ log) ∧
      (error ≠ none → ∃ p ∈ participants, .quiesceFailed t p ∈ log)
  | .saving t quiesceFailure | .flushing t quiesceFailure =>
    QuiesceOver participants log transitions current ∧ current = some t ∧
      Quieted (transitions t) ∧ quiesceFailure = (transitions t).quiesceFailure
  | .swapDisposing _ _ t rest error =>
    QuiesceOver participants log transitions current ∧ current = some t ∧
      (transitions t).disposeStarted = true ∧ (error = none → DisposedUpTo participants rest log t)
  | .swapActivating header _ t _ _ =>
    QuiesceOver participants log transitions current ∧ current = some t ∧
      (transitions t).stoppedWorkspaceId = some header.workspaceId ∧
      ((transitions t).previousWorkspaceId.isSome = true →
        (transitions t).disposeCompleted = true)
  | .disposalQueued _ t =>
    QuiesceOver participants log transitions current ∧ current = some t ∧ Quieted (transitions t)
  | .disposing _ t rest error =>
    QuiesceOver participants log transitions current ∧ current = some t ∧
      Quieted (transitions t) ∧ (transitions t).disposeStarted = true ∧
      (error = none → DisposedUpTo participants rest log t)
  | .deleting _ t =>
    QuiesceOver participants log transitions current ∧ current = some t ∧ .nativeDeletion t ∈ log
  | .restoring transition rest anyFailed _ =>
    QuiesceOver participants log transitions current ∧ current = transition ∧
      ∀ t, transition = some t →
        (UpTo participants.reverse rest fun q => OwnId log t → RestoreTried log t anyFailed q) ∧
        (anyFailed = true → ∃ p, .restoreFailed t p ∈ log)
  | _ => QuiesceOver participants log transitions current

def State.Quiet (participants : List String) (s : State) : Prop :=
  QuiesceOver participants s.log s.transitions s.runtimeTransition

def State.StageOk (participants : List String) (s : State) (stage : Stage) : Prop :=
  workspace_activation.StageOk participants s.log s.transitions s.runtimeTransition stage

/-- No attempt runs: a transition that still stands is locked in, or was left by an exception. -/
def State.AtRest (participants : List String) (s : State) : Prop :=
  s.Quiet participants ∧
    (s.runtimeTransition = none ∨ s.recoveryRequired = true ∨ ∃ g, .rejected g ∈ s.log)

/-- What a piece of an attempt leaves behind. -/
structure Fine (participants : List String) (g : Nat) (s : State) : Prop where
  booked : s.Booked participants
  stage : (s.stages g).running = true → s.StageOk participants (s.stages g)
  rest : (s.stages g).running = false → s.AtRest participants

variable {participants : List String} {g t : Nat} {s s₁ : State}

theorem fine_goTo {stage : Stage} (hbooked : s.Booked participants)
    (hrunning : stage.running = true) (hstage : s.StageOk participants stage) :
    Fine participants g (s.goTo g stage) := by
  have hself : (s.goTo g stage).stages g = stage := update_self ..
  refine ⟨hbooked, fun _ => ?_, fun hnot => ?_⟩
  · rw [hself]
    exact hstage
  · rw [hself, hrunning] at hnot
    cases hnot

theorem QuiesceOver.cons {log : List Happening} {transitions : Nat → RuntimeTransition}
    {current : Option Nat} (h : QuiesceOver participants log transitions current) {e : Happening}
    (hinside : e.inside = true) : QuiesceOver participants (e :: log) transitions current := by
  have hinside' : ∀ e' ∈ [e], e'.inside = true := by
    intro e' he'
    rw [mem_singleton.1 he']
    exact hinside
  intro t ht hstarted hfailure hown p hp
  exact mem_cons_of_mem _ (h t ht hstarted hfailure ((ownId_append hinside').1 hown) p hp)

theorem ownId_of_cons {log : List Happening} {e : Happening} (hinside : e.inside = true)
    (h : OwnId (e :: log) t) : OwnId log t := by
  have hinside' : ∀ e' ∈ [e], e'.inside = true := by
    intro e' he'
    rw [mem_singleton.1 he']
    exact hinside
  exact (ownId_append hinside').1 h

theorem State.Quiet.adjusts (h : s.Quiet participants) {f : RuntimeTransition → RuntimeTransition}
    (hstarted : ∀ transition, (f transition).quiesceStarted = transition.quiesceStarted)
    (hfailure : ∀ transition, (f transition).quiesceFailure = transition.quiesceFailure) :
    (s.modifyTransition t f).Quiet participants := by
  intro other hother hstarted' hfailure' hown p hp
  change (update s.transitions t (f (s.transitions t)) other).quiesceStarted = true
    at hstarted'
  change (update s.transitions t (f (s.transitions t)) other).quiesceFailure = none
    at hfailure'
  by_cases heq : other = t
  · subst heq
    rw [update_self, hstarted] at hstarted'
    rw [update_self, hfailure] at hfailure'
    exact h other hother hstarted' hfailure' hown p hp
  · rw [update_of_ne heq] at hstarted' hfailure'
    exact h other hother hstarted' hfailure' hown p hp

theorem State.Booked.modifyAttempt (h : s.Booked participants) (g : Nat)
    (f : ActivationAttempt → ActivationAttempt) : (s.modifyAttempt g f).Booked participants := h

theorem State.Quiet.modifyAttempt (h : s.Quiet participants) (g : Nat)
    (f : ActivationAttempt → ActivationAttempt) : (s.modifyAttempt g f).Quiet participants := h

theorem State.Quiet.of_none (h : s.runtimeTransition = none) : s.Quiet participants := by
  intro t ht
  rw [h] at ht
  cases ht

/-! ## Restoring -/

theorem dropWhile_cases (test : String → Bool) (l : List String) :
    (l.dropWhile test = [] ∧ ∀ x ∈ l, test x = true) ∨
      ∃ skipped x rest, l.dropWhile test = x :: rest ∧ l = skipped ++ x :: rest ∧
        test x = false ∧ ∀ y ∈ skipped, test y = true := by
  cases h : l.dropWhile test with
  | nil => exact .inl ⟨rfl, dropWhile_eq_nil_iff.1 h⟩
  | cons x rest =>
    refine .inr ⟨l.takeWhile test, x, rest, rfl, ?_, ?_, fun y hy => mem_takeWhile_imp hy⟩
    · rw [← h, takeWhile_append_dropWhile]
    · have hhead := head_dropWhile_not test (l := l) (by rw [h]; exact nofun)
      simpa [h] using hhead

variable {rest : List String}

theorem UpTo.skip {P : String → Prop} {skipped rest' : List String} (h : UpTo participants rest P)
    (hrest : rest = skipped ++ rest') (hskipped : ∀ p ∈ skipped, P p) :
    UpTo participants rest' P := by
  obtain ⟨done, hdone, hP⟩ := h
  refine ⟨done ++ skipped, ?_, fun p hp => ?_⟩
  · rw [hdone, hrest, append_assoc]
  · rcases mem_append.1 hp with hp | hp
    · exact hP p hp
    · exact hskipped p hp

theorem UpTo.imp {P Q : String → Prop} (h : UpTo participants rest P) (himp : ∀ p, P p → Q p) :
    UpTo participants rest Q := by
  obtain ⟨done, hdone, hP⟩ := h
  exact ⟨done, hdone, fun p hp => himp p (hP p hp)⟩

/-- A participant behind `p` comes before it in the reverse order. -/
theorem mem_done_of_behind (hnodup : participants.Nodup) {p q : String} {done : List String}
    (hdone : participants.reverse = done ++ p :: rest) (hbehind : Behind participants p q) :
    q ∈ done := by
  obtain ⟨before, behind, hsplit, hq⟩ := hbehind
  have hsplit' : participants.reverse = behind.reverse ++ p :: before.reverse := by
    rw [hsplit]
    simp
  have hnodup' : (done ++ p :: rest).Nodup := by
    rw [← hdone]
    exact nodup_reverse.2 hnodup
  have hnot : p ∉ done ∧ p ∉ rest := by
    rw [nodup_middle, nodup_cons, mem_append, not_or] at hnodup'
    exact hnodup'.1
  have heq : done ++ p :: rest = behind.reverse ++ p :: before.reverse := hdone.symm.trans hsplit'
  obtain ⟨hsame, -, -⟩ := (append_cons_inj_of_notMem hnot.1 hnot.2).1 heq
  rw [hsame]
  exact mem_reverse.2 hq

section

variable (hnodup : participants.Nodup) (hbooked : s.Booked participants)
  (hquiet : s.Quiet participants)
include hnodup hbooked hquiet

theorem restoreFrom_fine (hcurrent : s.runtimeTransition = some t) {rest : List String}
    {anyFailed : Bool} (next : AfterRestore) (hdone : UpTo participants.reverse rest fun q =>
      OwnId s.log t → RestoreTried s.log t anyFailed q)
    (hfailed : anyFailed = true → ∃ p, .restoreFailed t p ∈ s.log) :
    Fine participants g (restoreFrom s g t rest anyFailed next) := by
  have hopen := hbooked.standing hcurrent
  -- what the loop passes over needs no restore
  have hskip : ∀ q, ((s.forTransition t).restored.contains q ||
      (!(s.forTransition t).quiesceStarted.contains q &&
        !(s.forTransition t).disposed.contains q)) = true →
      OwnId s.log t → RestoreTried s.log t anyFailed q := by
    intro q htest hown hstarted
    have hrecorded := hopen.recorded hown
    simp only [Bool.or_eq_true, Bool.and_eq_true, Bool.not_eq_true', contains_eq_mem,
      decide_eq_true_eq, decide_eq_false_iff_not, hrecorded.restored, hrecorded.quiesceStarted,
      hrecorded.disposed] at htest
    rcases htest with hrestored | ⟨hnot, hnot'⟩
    · exact .inl hrestored
    · rcases hstarted with hq | hd
      · exact absurd hq hnot
      · exact absurd hd hnot'
  unfold restoreFrom
  dsimp only
  rcases dropWhile_cases (fun p => (s.forTransition t).restored.contains p ||
      (!(s.forTransition t).quiesceStarted.contains p &&
        !(s.forTransition t).disposed.contains p)) rest with
    ⟨hnil, hall⟩ | ⟨skipped, p, rest', hcons, hrest, htest, hskipped⟩
  · rw [hnil]
    refine fine_goTo hbooked rfl ⟨hquiet, hcurrent, fun t' ht' => ?_⟩
    cases ht'
    have hpassed : rest = rest ++ [] := (append_nil rest).symm
    exact ⟨hdone.skip hpassed fun q hq => hskip q (hall q hq), hfailed⟩
  · rw [hcons]
    dsimp only
    have hdone' := hdone.skip hrest fun q hq => hskip q (hskipped q hq)
    have horderly : Orderly participants s.log (.restoreStarted t p) := by
      refine ⟨hbooked.not_over hcurrent, fun hown => ⟨?_, fun q hbehind hstarted => ?_⟩⟩
      · have hrecorded := hopen.recorded hown
        simp only [Bool.or_eq_false_iff, Bool.and_eq_false_iff, Bool.not_eq_false',
          contains_eq_mem, decide_eq_false_iff_not, decide_eq_true_eq,
          hrecorded.quiesceStarted, hrecorded.disposed] at htest
        exact htest.2
      · obtain ⟨done, hsplit, hdone⟩ := hdone'
        rcases hdone q (mem_done_of_behind hnodup hsplit hbehind) hown hstarted with hr | hf
        · exact .inl hr
        · exact .inr hf.1
    refine fine_goTo (hbooked.records hcurrent rfl rfl horderly fun _ => rfl) rfl
      ⟨QuiesceOver.cons hquiet rfl, hcurrent, fun t' ht' => ?_⟩
    cases ht'
    refine ⟨hdone'.imp fun q hq hown hstarted => ?_, fun hany => ?_⟩
    · have hstarted' : Started s.log t q := by
        simpa [Started, record] using hstarted
      rcases hq (ownId_of_cons rfl hown) hstarted' with hr | ⟨hf, hany⟩
      · exact .inl (mem_cons_of_mem _ hr)
      · exact .inr ⟨mem_cons_of_mem _ hf, hany⟩
    · obtain ⟨p', hp'⟩ := hfailed hany
      exact ⟨p', mem_cons_of_mem _ hp'⟩

theorem restore_fine (next : AfterRestore) :
    Fine participants g (restoreRuntimeAfterAbortedTransition participants s g next) := by
  unfold restoreRuntimeAfterAbortedTransition
  split
  · rename_i hnone
    exact fine_goTo hbooked rfl ⟨hquiet, hnone, nofun⟩
  · rename_i t hcurrent
    dsimp only
    split
    · exact restoreFrom_fine hnodup hbooked hquiet hcurrent next ⟨[], rfl, nofun⟩ nofun
    · rename_i huntouched
      have hopen := hbooked.standing hcurrent
      simp only [Bool.or_eq_true, not_or, Bool.not_eq_true] at huntouched
      refine fine_goTo hbooked rfl ⟨hquiet, hcurrent, fun t' ht' => ?_⟩
      cases ht'
      refine ⟨⟨participants.reverse, by simp, fun q _ _ hstarted => ?_⟩, nofun⟩
      rcases hstarted with hq | hd
      · exact absurd (hopen.quiesceStarted q hq) (by simp [huntouched.1.1])
      · exact absurd (hopen.disposed q hd) (by simp [huntouched.1.2])

theorem recover_fine (caller : RecoveryCaller) :
    Fine participants g (recoverActivationOwner participants s g caller) := by
  have hrolling : (s.setPhase g .rollingBack).Booked participants := hbooked
  unfold recoverActivationOwner
  dsimp only
  split
  · exact restore_fine hnodup hrolling hquiet _
  · split
    · exact fine_goTo hrolling rfl hquiet
    · exact restore_fine hnodup hrolling hquiet _

theorem abortAndRecover_fine : Fine participants g (abortAndRecoverActivation participants s g) :=
  recover_fine hnodup hbooked hquiet .aborted

theorem hydrationCaught_fine (error : HydrationError) :
    Fine participants g (hydrationCaught participants s g error) := by
  unfold hydrationCaught
  split
  · exact abortAndRecover_fine hnodup hbooked hquiet
  · exact recover_fine hnodup hbooked hquiet _

end

/-! ## The ends of an attempt -/

/-- The transitions stay as they are, and so does a lockout. -/
structure Shelves (s s' : State) : Prop where
  log : s'.log = s.log
  transitions : s'.transitions = s.transitions
  count : s'.transitionCount = s.transitionCount
  current : s'.runtimeTransition = s.runtimeTransition
  progress : s'.progress = s.progress
  lockout : s.recoveryRequired = true → s'.recoveryRequired = true

theorem Shelves.booked (h : Shelves s s₁) (hbooked : s.Booked participants) :
    s₁.Booked participants := by
  unfold Booked at *
  rw [h.log, h.transitions, h.count, h.current, h.progress]
  exact hbooked

theorem Shelves.atRest (h : Shelves s s₁) (hrest : s.AtRest participants) :
    s₁.AtRest participants := by
  unfold AtRest Quiet at *
  rw [h.log, h.transitions, h.current]
  obtain ⟨hquiet, hnone | hlockout | hrejected⟩ := hrest
  · exact ⟨hquiet, .inl hnone⟩
  · exact ⟨hquiet, .inr (.inl (h.lockout hlockout))⟩
  · exact ⟨hquiet, .inr (.inr hrejected)⟩

theorem Shelves.refl (s : State) : Shelves s s := ⟨rfl, rfl, rfl, rfl, rfl, id⟩

theorem Shelves.trans {s₂ : State} (h : Shelves s s₁) (h' : Shelves s₁ s₂) : Shelves s s₂ :=
  ⟨h'.log.trans h.log, h'.transitions.trans h.transitions, h'.count.trans h.count,
    h'.current.trans h.current, h'.progress.trans h.progress, fun hl => h'.lockout (h.lockout hl)⟩

theorem shelves_setPhase (s : State) (g : Nat) (phase : ActivationPhase) :
    Shelves s (s.setPhase g phase) := ⟨rfl, rfl, rfl, rfl, rfl, id⟩

theorem finishAborted_shelves (s : State) (g : Nat) :
    Shelves s (finishAbortedQueuedAttempt s g) := by
  unfold finishAbortedQueuedAttempt
  split
  · exact ⟨rfl, rfl, rfl, rfl, rfl, id⟩
  · exact Shelves.refl s

theorem finishFailure_shelves (s : State) (g : Nat) (failure : WorkspaceActionFailure) :
    Shelves s (finishActivationFailure s g failure) := by
  unfold finishActivationFailure
  dsimp only
  split
  · refine ⟨rfl, rfl, rfl, rfl, rfl, fun hlockout => ?_⟩
    have hkept : (s.setPhase g .terminal).recoveryRequired = true := hlockout
    simp [hkept]
  · exact shelves_setPhase s g .terminal

theorem finishActivationOutcome_shelves (s : State) (g : Nat)
    (outcome : WorkspaceActionOutcome Unit) : Shelves s (finishActivationOutcome s g outcome) := by
  unfold finishActivationOutcome
  dsimp only
  have hterminal := shelves_setPhase s g .terminal
  split
  · split
    · exact hterminal.trans (finishFailure_shelves _ g _)
    · exact hterminal.trans ⟨rfl, rfl, rfl, rfl, rfl, id⟩
  · exact hterminal

theorem markRecoveryRequired_shelves (s : State) (g : Nat) :
    Shelves s (markRecoveryRequired s g) := by
  unfold markRecoveryRequired
  split
  · exact ⟨rfl, rfl, rfl, rfl, rfl, fun _ => rfl⟩
  · split
    · exact ⟨rfl, rfl, rfl, rfl, rfl, fun _ => rfl⟩
    · exact ⟨rfl, rfl, rfl, rfl, rfl, fun _ => rfl⟩

theorem markRecoveryRequired_lockout (s : State) (g : Nat) :
    (markRecoveryRequired s g).recoveryRequired = true := by
  unfold markRecoveryRequired
  split
  · rfl
  · split <;> rfl

theorem fine_settle (hbooked : s.Booked participants) (hrest : s.AtRest participants) :
    Fine participants g (s.settle g) := by
  have hself : (s.settle g).stages g = .settled := update_self ..
  refine ⟨hbooked.notes_other rfl, fun hrunning => ?_, fun _ => ?_⟩
  · rw [hself] at hrunning
    cases hrunning
  · obtain ⟨hquiet, hnone | hlockout | ⟨g', hrejected⟩⟩ := hrest
    · exact ⟨QuiesceOver.cons hquiet rfl, .inl hnone⟩
    · exact ⟨QuiesceOver.cons hquiet rfl, .inr (.inl hlockout)⟩
    · exact ⟨QuiesceOver.cons hquiet rfl, .inr (.inr ⟨g', mem_cons_of_mem _ hrejected⟩)⟩

/-- An attempt ends, and what it leaves of the transition agrees with the lockout. -/
theorem Shelves.settles (h : Shelves s s₁) (hbooked : s.Booked participants)
    (hquiet : s.Quiet participants)
    (hleft : s.runtimeTransition = none ∨ s₁.recoveryRequired = true) :
    Fine participants g (s₁.settle g) := by
  refine fine_settle (h.booked hbooked) ⟨?_, ?_⟩
  · unfold Quiet at *
    rw [h.log, h.transitions, h.current]
    exact hquiet
  · rw [h.current]
    rcases hleft with hnone | hlockout
    · exact .inl hnone
    · exact .inr (.inl hlockout)

theorem reject_fine (hbooked : s.Booked participants) (hquiet : s.Quiet participants) :
    Fine participants g (s.reject g) := by
  refine fine_settle (hbooked.notes_other rfl) ⟨QuiesceOver.cons hquiet rfl, .inr (.inr ⟨g, ?_⟩)⟩
  exact mem_cons_self

/-- What a restore leaves: nothing, or a transition to lock in. -/
def State.Restored (s : State) (restored : Bool) : Prop :=
  (restored = true → s.runtimeTransition = none) ∧
    (restored = false → ∃ t p, s.runtimeTransition = some t ∧ .restoreFailed t p ∈ s.log)

theorem restored_of_none (h : s.runtimeTransition = none) : s.Restored true := ⟨fun _ => h, nofun⟩

theorem not_restored {p : String} (hcurrent : s.runtimeTransition = some t)
    (hfailed : .restoreFailed t p ∈ s.log) : s.Restored false :=
  ⟨nofun, fun _ => ⟨t, p, hcurrent, hfailed⟩⟩

section

variable (hbooked : s.Booked participants) (hquiet : s.Quiet participants)
include hbooked hquiet

/-- The lockout of an attempt that ends. -/
theorem lockout_fine (failure : WorkspaceActionFailure) :
    Fine participants g
      ((finishActivationFailure (markRecoveryRequired s g) g failure).settle g) := by
  have hfailure := finishFailure_shelves (markRecoveryRequired s g) g failure
  refine ((markRecoveryRequired_shelves s g).trans hfailure).settles hbooked hquiet (.inr ?_)
  exact hfailure.lockout (markRecoveryRequired_lockout s g)

theorem finishRestored_fine {restored : Bool} (hleft : s.Restored restored)
    (failure : WorkspaceActionFailure) :
    Fine participants g (finishRestored s g restored failure) := by
  unfold finishRestored
  split
  · rename_i hrestored
    exact (finishFailure_shelves s g failure).settles hbooked hquiet (.inl (hleft.1 hrestored))
  · exact lockout_fine hbooked hquiet rollbackFailed

theorem finishOutcome_fine {restored : Bool} (hleft : s.Restored restored)
    (outcome : WorkspaceActionOutcome Unit) :
    Fine participants g (finishOutcome s g restored outcome) := by
  unfold finishOutcome
  split
  · rename_i hrestored
    apply (finishActivationOutcome_shelves s g outcome).settles hbooked hquiet
    exact .inl (hleft.1 hrestored)
  · exact lockout_fine hbooked hquiet rollbackFailed

theorem finishRecovery_fine {recovered : Bool}
    (hleft : recovered = true → s.runtimeTransition = none) (caller : RecoveryCaller) :
    Fine participants g (finishRecovery s g recovered caller) := by
  have hterminal := shelves_setPhase s g .terminal
  unfold finishRecovery
  dsimp only
  split
  · apply (hterminal.trans (markRecoveryRequired_shelves _ g)).settles hbooked hquiet
    exact .inr (markRecoveryRequired_lockout _ g)
  · rename_i hrecovered
    have hnone := hleft (by simpa using hrecovered)
    cases caller with
    | aborted =>
      exact (hterminal.trans (finishAborted_shelves _ g)).settles hbooked hquiet (.inl hnone)
    | hydrationFailed =>
      dsimp only
      split
      · exact (hterminal.trans (finishFailure_shelves _ g _)).settles hbooked hquiet (.inl hnone)
      · exact hterminal.settles hbooked hquiet (.inl hnone)

end

/-! ## Draining -/

section

variable (hbooked : s.Booked participants)
include hbooked

theorem ensureTransition_books {previousWorkspaceId : Option String} {s' : State}
    (hquiet : s.Quiet participants)
    (h : ensureRuntimeTransition s previousWorkspaceId = some (t, s')) :
    s'.Booked participants ∧ s'.Quiet participants ∧ s'.runtimeTransition = some t := by
  unfold ensureRuntimeTransition at h
  split at h
  · rename_i hcurrent
    split at h
    · cases h
    · cases h
      exact ⟨hbooked, hquiet, hcurrent⟩
  · rename_i hnone
    cases h
    refine ⟨?_, fun other hother hstarted => ?_, rfl⟩
    · unfold Booked at hbooked
      rw [hnone] at hbooked
      exact hbooked.create _ _
    · -- nothing of a new transition has been quiesced
      cases hother
      change (update s.transitions s.transitionCount _ s.transitionCount).quiesceStarted =
        true at hstarted
      rw [update_self] at hstarted
      cases hstarted

theorem quiesceFrom_fine (hcurrent : s.runtimeTransition = some t)
    (hstarted : (s.transitions t).quiesceStarted = true)
    (hfailure : (s.transitions t).quiesceFailure = none) {rest : List String}
    (hdone : UpTo participants rest fun p => OwnId s.log t → .quiesced t p ∈ s.log) :
    Fine participants g (quiesceFrom s g t rest) := by
  have hopen := hbooked.standing hcurrent
  have hskip : ∀ q, (s.forTransition t).quiesced.contains q = true →
      OwnId s.log t → .quiesced t q ∈ s.log := by
    intro q htest hown
    rwa [← (hopen.recorded hown).quiesced, ← contains_iff_mem]
  unfold quiesceFrom
  rcases dropWhile_cases (s.forTransition t).quiesced.contains rest with
    ⟨hnil, hall⟩ | ⟨skipped, p, rest', hcons, hrest, -, hskipped⟩
  · rw [hnil]
    have hpassed : rest = rest ++ [] := (append_nil rest).symm
    refine fine_goTo hbooked rfl ⟨hcurrent, hstarted, hfailure, fun _ => ?_, nofun⟩
    exact hdone.skip hpassed fun q hq => hskip q (hall q hq)
  · rw [hcons]
    dsimp only
    have hnotes : ((s.modifyProgress t fun progress =>
        { progress with quiesceStarted := p :: progress.quiesceStarted }).record
          (.quiesceStarted t p)).Booked participants :=
      hbooked.notes hcurrent rfl rfl (hbooked.not_over hcurrent) (fun _ _ => hstarted) nofun
    refine fine_goTo hnotes rfl ⟨hcurrent, hstarted, hfailure, fun _ => ?_, nofun⟩
    refine (hdone.skip hrest fun q hq => hskip q (hskipped q hq)).imp fun q hq hown => ?_
    exact mem_cons_of_mem _ (hq (ownId_of_cons rfl hown))

theorem drain_fine (hquiet : s.Quiet participants) (hcurrent : s.runtimeTransition = some t) :
    Fine participants g (performActivationDrain participants s g t) := by
  have hopen := hbooked.standing hcurrent
  unfold performActivationDrain
  split
  · rename_i htest
    simp only [Bool.and_eq_true, Bool.not_eq_true'] at htest
    have hfailure : (s.transitions t).quiesceFailure = none := by
      by_contra hfailed
      exact absurd ((hopen.quiesceFailure hfailed).1.symm.trans htest.2) nofun
    have hstarted : (s.modifyTransition t fun transition =>
        { transition with quiesceStarted := true }).Booked participants := by
      refine hbooked.adjusts hcurrent (fun _ => rfl) (fun _ => rfl) ?_
      exact { hopen with
        quiesceStarted _ _ := rfl
        quiesceFailure hfailed := ⟨rfl, (hopen.quiesceFailure hfailed).2⟩ }
    refine quiesceFrom_fine (s := { s.modifyTransition t fun transition =>
      { transition with quiesceStarted := true } with internalDrainTransition := some t })
        hstarted hcurrent ?_ ?_ ⟨[], rfl, nofun⟩
    · simp [modifyTransition]
    · simpa [modifyTransition] using hfailure
  · rename_i htest
    refine fine_goTo hbooked rfl ⟨hquiet, hcurrent, fun hsome => ?_, rfl⟩
    by_contra hnot
    rw [hsome] at htest
    simp [hnot] at htest

theorem performActivation_fine (hrest : s.AtRest participants) :
    Fine participants g (performActivation participants s g) := by
  unfold performActivation
  split
  · have hfinished := finishFailure_shelves s g rollbackFailed
    exact fine_settle (hfinished.booked hbooked) (hfinished.atRest hrest)
  · split
    · have hfinished := (shelves_setPhase s g .terminal).trans (finishAborted_shelves _ g)
      exact fine_settle (hfinished.booked hbooked) (hfinished.atRest hrest)
    · dsimp only
      split
      · exact reject_fine hbooked hrest.1
      · rename_i hsome
        obtain ⟨hbooked', hquiet, hcurrent⟩ := ensureTransition_books
          (hbooked.modifyAttempt g _) (hrest.1.modifyAttempt g _) hsome
        exact drain_fine hbooked' hquiet hcurrent

theorem startDeletion_fine (hquiet : s.Quiet participants) (workspaceId : String) :
    Fine participants g (startDeletion participants s g workspaceId) := by
  unfold startDeletion
  split
  · exact reject_fine hbooked hquiet
  · rename_i hsome
    obtain ⟨hbooked', hquiet', hcurrent⟩ := ensureTransition_books hbooked hquiet hsome
    exact drain_fine hbooked' hquiet' hcurrent

end

theorem performCurrentDeletion_fine (hnodup : participants.Nodup) (hbooked : s.Booked participants)
    (hrest : s.AtRest participants) (workspaceId : String) :
    Fine participants g (performCurrentDeletion participants s g workspaceId) := by
  unfold performCurrentDeletion
  split
  · have hfinished := finishFailure_shelves s g (failed "workspace.delete.failed")
    exact fine_settle (hfinished.booked hbooked) (hfinished.atRest hrest)
  · dsimp only
    have hbooked' := hbooked.modifyAttempt g fun a =>
      { a with previousWorkspaceId := some workspaceId }
    have hquiet' := hrest.1.modifyAttempt g fun a =>
      { a with previousWorkspaceId := some workspaceId }
    split
    · exact startDeletion_fine hbooked' hquiet' workspaceId
    · split
      · exact restore_fine hnodup hbooked' hquiet' _
      · exact startDeletion_fine hbooked' hquiet' workspaceId

theorem closeTransition_booked {e : Happening} (hbooked : s.Booked participants)
    (hcurrent : s.runtimeTransition = some t)
    (he : e = .transitionCommitted t ∨ e = .transitionRestored t ∨ e = .transitionDropped t)
    (horderly : Orderly participants s.log e) :
    Books participants (e :: s.log) s.transitions s.transitionCount none s.progress := by
  unfold Booked at hbooked
  rw [hcurrent] at hbooked
  have hclosed := hbooked.close he horderly (s.forTransition t)
  have hsame : update s.progress (s.transitions t).id (s.forTransition t) = s.progress :=
    update_eq_self ..
  rwa [hsame] at hclosed

theorem deleteAfterClear_fine (hbooked : s.Booked participants) (hquiet : s.Quiet participants)
    (hleft : ∀ t, s.runtimeTransition = some t → ∃ p, .restoreFailed t p ∈ s.log)
    (workspaceId : String) :
    Fine participants g (deleteAfterClear participants s g workspaceId) := by
  unfold deleteAfterClear
  split
  · exact startDeletion_fine hbooked hquiet workspaceId
  · rename_i t hcurrent
    refine startDeletion_fine ?_ (Quiet.of_none rfl) workspaceId
    exact closeTransition_booked hbooked hcurrent (.inr (.inr rfl))
      ⟨hbooked.not_over hcurrent, hleft t hcurrent⟩

/-! ## The native calls -/

/-- A transition of a workspace whose quiesce was to be over: each participant is quiesced, or one
of them failed. -/
theorem quiesced_or_failed (hbooked : s.Booked participants) (hquiet : s.Quiet participants)
    (hcurrent : s.runtimeTransition = some t) (hquieted : Quieted (s.transitions t))
    (hof : OfWorkspace s.log t) (hown : OwnId s.log t) :
    ((s.transitions t).quiesceFailure = none ∧ ∀ p ∈ participants, .quiesced t p ∈ s.log) ∨
      ∃ p ∈ participants, .quiesceFailed t p ∈ s.log := by
  by_cases hfailure : (s.transitions t).quiesceFailure = none
  · have hstarted := hquieted (Books.ofWorkspace_previous hbooked hof)
    exact .inl ⟨hfailure, hquiet t hcurrent hstarted hfailure hown⟩
  · exact .inr ((hbooked.standing hcurrent).quiesceFailure hfailure).2

section

variable (hnodup : participants.Nodup) (hbooked : s.Booked participants)
  (hquiet : s.Quiet participants) (hcurrent : s.runtimeTransition = some t)
  (hquieted : Quieted (s.transitions t))
include hnodup hbooked hquiet hcurrent hquieted

variable {drainFailure : Option WorkspaceActionFailure}

theorem activateAfterDrain_fine
    (hdrain : drainFailure = none → (s.transitions t).quiesceFailure = none) :
    Fine participants g (activateAfterDrain participants s g t drainFailure) := by
  unfold activateAfterDrain
  split
  · exact abortAndRecover_fine hnodup hbooked hquiet
  · split
    · exact restore_fine hnodup hbooked hquiet _
    · have hnative : (s.record (.nativeActivation t)).Booked participants := by
        refine hbooked.records hcurrent rfl rfl (fun hof hown => ?_) fun _ => rfl
        have hstarted := hquieted (Books.ofWorkspace_previous hbooked hof)
        exact hquiet t hcurrent hstarted (hdrain rfl) hown
      exact fine_goTo hnative rfl (QuiesceOver.cons hquiet rfl)

theorem deleteAfterDrain_fine (workspaceId : String) :
    Fine participants g (deleteAfterDrain participants s g t workspaceId) := by
  unfold deleteAfterDrain
  split
  · exact abortAndRecover_fine hnodup hbooked hquiet
  · exact fine_goTo hbooked rfl ⟨hquiet, hcurrent, hquieted⟩

theorem afterDrain_fine (hdrain : drainFailure = none → (s.transitions t).quiesceFailure = none) :
    Fine participants g (afterDrain participants s g t drainFailure) := by
  unfold afterDrain
  split
  · exact activateAfterDrain_fine hnodup hbooked hquiet hcurrent hquieted hdrain
  · exact deleteAfterDrain_fine hnodup hbooked hquiet hcurrent hquieted _

end

theorem drainAfterSaves_fine (hnodup : participants.Nodup) (hbooked : s.Booked participants)
    {quiesceFailure : Option WorkspaceActionFailure}
    (hstage : s.StageOk participants (.saving t quiesceFailure))
    (lastSaveFailure : Option WorkspaceActionFailure) :
    Fine participants g (drainAfterSaves participants s g t quiesceFailure lastSaveFailure) := by
  obtain ⟨hquiet, hcurrent, hquieted, hfailure⟩ := hstage
  unfold drainAfterSaves
  split
  · exact afterDrain_fine hnodup hbooked hquiet hcurrent hquieted nofun
  · split
    · exact afterDrain_fine hnodup hbooked hquiet hcurrent hquieted fun h => hfailure ▸ h
    · exact fine_goTo hbooked rfl ⟨hquiet, hcurrent, hquieted, hfailure⟩

theorem endQuiesce_fine (hbooked : s.Booked participants) {error : Option HydrationError}
    (hstage : s.StageOk participants (.quiescing t [] error)) :
    Fine participants g (endQuiesce s g t error.isSome) := by
  obtain ⟨hcurrent, hstarted, hfailure, hdone, hfailed⟩ := hstage
  have hopen := hbooked.standing hcurrent
  unfold endQuiesce
  cases error with
  | none =>
    refine fine_goTo hbooked rfl ⟨fun t' ht' _ _ hown p hp => ?_, hcurrent, fun _ => hstarted, rfl⟩
    cases hcurrent.symm.trans ht'
    obtain ⟨done, hsplit, hall⟩ := hdone rfl
    rw [append_nil] at hsplit
    exact hall p (hsplit ▸ hp) hown
  | some error =>
    dsimp only [Option.isSome_some, ↓reduceIte]
    have hnoted : (s.modifyTransition t fun transition => { transition with
        quiesceFailure := some (failed "workspace.runtime.quiesce_failed") }).Booked
          participants := by
      refine hbooked.adjusts hcurrent (fun _ => rfl) (fun _ => rfl) ?_
      exact { hopen with quiesceFailure := fun _ => ⟨hstarted, hfailed nofun⟩ }
    have hself : (s.modifyTransition t fun transition => { transition with
        quiesceFailure := some (failed "workspace.runtime.quiesce_failed") }).transitions t =
          { s.transitions t with
            quiesceFailure := some (failed "workspace.runtime.quiesce_failed") } :=
      update_self ..
    refine fine_goTo hnoted rfl ⟨fun t' ht' _ hnone => ?_, hcurrent, fun _ => ?_, rfl⟩
    · cases hcurrent.symm.trans ht'
      exact absurd ((congrArg _ hself).symm.trans hnone) nofun
    · exact (congrArg _ hself).trans hstarted

end bbcom.workspace_activation
