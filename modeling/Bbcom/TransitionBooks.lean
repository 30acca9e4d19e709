-- The books of the runtime transitions (`workspace-transition-coordinator.ts`): what their history
-- promises, and how the progress that is kept for the current one agrees with it.
import Bbcom.WorkspaceActivation

open bbcom.histories

namespace bbcom.workspace_activation

open List Function ParticipantProgress State

/-! ## The claim about a history -/

/-- The transition takes down the runtimes of a workspace. -/
def OfWorkspace (past : List Happening) (t : Nat) : Prop :=
  ∃ id workspaceId, .transitionCreated t id (some workspaceId) ∈ past

/-- No other transition has had the id of this one. -/
def OwnId (past : List Happening) (t : Nat) : Prop :=
  ∀ id previous other previous', .transitionCreated t id previous ∈ past →
    .transitionCreated other id previous' ∈ past → other = t

def Over (past : List Happening) (t : Nat) : Prop :=
  .transitionCommitted t ∈ past ∨ .transitionRestored t ∈ past ∨ .transitionDropped t ∈ past

/-- The quiesce of the participant has started, or its dispose has completed. -/
def Started (past : List Happening) (t : Nat) (p : String) : Prop :=
  .quiesceStarted t p ∈ past ∨ .disposed t p ∈ past

/-- `q` stands behind `p` among the participants. -/
def Behind (participants : List String) (p q : String) : Prop :=
  ∃ before behind, participants = before ++ p :: behind ∧ q ∈ behind

def Orderly (participants : List String) (past : List Happening) : Happening → Prop
  | .nativeActivation t =>
    OfWorkspace past t → OwnId past t → ∀ p ∈ participants, .quiesced t p ∈ past
  | .nativeDeletion t => OfWorkspace past t → OwnId past t →
    (∀ p ∈ participants, .quiesced t p ∈ past) ∨ ∃ p ∈ participants, .quiesceFailed t p ∈ past
  | .quiesceStarted t _ | .disposeStarted t _ => ¬Over past t
  | .disposed t p => OwnId past t → .disposed t p ∉ past
  | .restoreStarted t p => ¬Over past t ∧ (OwnId past t → Started past t p ∧
    ∀ q, Behind participants p q → Started past t q →
      .restored t q ∈ past ∨ .restoreFailed t q ∈ past)
  | .transitionCommitted t => ¬Over past t ∧ (OfWorkspace past t → OwnId past t →
    .nativeDeletion t ∈ past ∨ ∀ p ∈ participants, .disposed t p ∈ past)
  | .transitionRestored t => ¬Over past t ∧ (OwnId past t →
    ∀ p ∈ participants, Started past t p → .restored t p ∈ past)
  | .transitionDropped t => ¬Over past t ∧ ∃ p, .restoreFailed t p ∈ past
  | _ => True

/-! ## The books -/

/-- The transition that an entry is about. -/
def Happening.about : Happening → Option Nat
  | transitionCreated t _ _ | quiesceStarted t _ | quiesced t _ | quiesceFailed t _
  | nativeActivation t | nativeDeletion t | disposeStarted t _ | disposed t _ | disposeFailed t _
  | restoreStarted t _ | restored t _ | restoreFailed t _ | transitionCommitted t
  | transitionRestored t | transitionDropped t => some t
  | _ => none

/-- Neither the creation nor the end of a transition. -/
def Happening.inside : Happening → Bool
  | transitionCreated _ _ _ | transitionCommitted _ | transitionRestored _
  | transitionDropped _ => false
  | _ => true

/-- The progress of a transition is what its history says. -/
structure Recorded (log : List Happening) (t : Nat) (progress : ParticipantProgress) : Prop where
  quiesceStarted : ∀ p, p ∈ progress.quiesceStarted ↔ .quiesceStarted t p ∈ log
  quiesced : ∀ p, p ∈ progress.quiesced ↔ .quiesced t p ∈ log
  disposed : ∀ p, p ∈ progress.disposed ↔ .disposed t p ∈ log
  restored : ∀ p, p ∈ progress.restored ↔ .restored t p ∈ log

/-- The current transition. -/
structure Open (participants : List String) (log : List Happening) (t : Nat)
    (transition : RuntimeTransition) (progress : ParticipantProgress) : Prop where
  quiesceStarted : ∀ p, .quiesceStarted t p ∈ log → transition.quiesceStarted = true
  disposed : ∀ p, .disposed t p ∈ log → transition.disposeStarted = true
  quiesceFailure : transition.quiesceFailure ≠ none →
    transition.quiesceStarted = true ∧ ∃ p ∈ participants, .quiesceFailed t p ∈ log
  recorded : OwnId log t → Recorded log t progress
  disposeCompleted : OwnId log t → transition.disposeCompleted = true →
    ∀ p ∈ participants, .disposed t p ∈ log

structure Books (participants : List String) (log : List Happening)
    (transitions : Nat → RuntimeTransition) (count : Nat) (current : Option Nat)
    (progress : String → ParticipantProgress) : Prop where
  lawful : Lawful (Orderly participants) log
  created : ∀ t id previous, .transitionCreated t id previous ∈ log ↔
    t < count ∧ (transitions t).id = id ∧ (transitions t).previousWorkspaceId = previous
  known : ∀ e ∈ log, ∀ t, e.about = some t → t < count
  ended : ∀ t, t < count → (Over log t ↔ current ≠ some t)
  standing : ∀ t, current = some t → t < count ∧
    Open participants log t (transitions t) (progress (transitions t).id)
  unused : ∀ id, (∀ t, t < count → (transitions t).id ≠ id) → progress id = {}

variable {participants : List String} {log : List Happening} {transitions : Nat → RuntimeTransition}
  {count t : Nat} {current : Option Nat} {progress : String → ParticipantProgress}

theorem books_start : Books participants [] (fun _ => {}) 0 none fun _ => {} where
  lawful := trivial
  created _ _ _ := by simp
  known := nofun
  ended _ h := absurd h (by omega)
  standing := nofun
  unused _ _ := rfl

theorem Books.ofWorkspace_iff (h : Books participants log transitions count current progress)
    (ht : t < count) : OfWorkspace log t ↔ (transitions t).previousWorkspaceId.isSome = true := by
  constructor
  · rintro ⟨id, workspaceId, hcreated⟩
    rw [((h.created _ _ _).1 hcreated).2.2]
    rfl
  · intro hsome
    obtain ⟨workspaceId, hworkspace⟩ := Option.isSome_iff_exists.1 hsome
    exact ⟨_, workspaceId, (h.created _ _ _).2 ⟨ht, rfl, hworkspace⟩⟩

theorem Books.ofWorkspace_previous (h : Books participants log transitions count current progress)
    (hof : OfWorkspace log t) : (transitions t).previousWorkspaceId.isSome = true := by
  obtain ⟨id, workspaceId, hcreated⟩ := hof
  exact (h.ofWorkspace_iff ((h.created _ _ _).1 hcreated).1).1 ⟨id, workspaceId, hcreated⟩

theorem Books.not_over (h : Books participants log transitions count (some t) progress) :
    ¬Over log t := by
  obtain ⟨hlt, -⟩ := h.standing t rfl
  rw [h.ended t hlt]
  exact fun hne => hne rfl

section Entries

variable {es : List Happening} (hinside : ∀ e ∈ es, e.inside = true)

include hinside

variable {other : Nat}

theorem created_append {id : String} {previous : Option String} :
    .transitionCreated other id previous ∈ es ++ log ↔
      .transitionCreated other id previous ∈ log := by
  rw [mem_append, or_iff_right]
  exact fun hmem => absurd (hinside _ hmem) nofun

theorem ownId_append : OwnId (es ++ log) other ↔ OwnId log other := by
  unfold OwnId
  simp only [created_append hinside]

theorem over_append : Over (es ++ log) other ↔ Over log other := by
  unfold Over
  have hcommitted : .transitionCommitted other ∉ es := fun hmem => absurd (hinside _ hmem) nofun
  have hrestored : .transitionRestored other ∉ es := fun hmem => absurd (hinside _ hmem) nofun
  have hdropped : .transitionDropped other ∉ es := fun hmem => absurd (hinside _ hmem) nofun
  simp [hcommitted, hrestored, hdropped]

end Entries

variable {e : Happening}

/-- Entries that are about no transition. -/
theorem Books.note (h : Books participants log transitions count current progress)
    (he : e.about = none) :
    Books participants (e :: log) transitions count current progress := by
  have hinside : ∀ e' ∈ [e], e'.inside = true := by
    intro e' he'
    rw [mem_singleton.1 he']
    cases e <;> first | rfl | cases he
  have hmem : ∀ e' : Happening, e'.about ≠ none → (e' ∈ e :: log ↔ e' ∈ log) := by
    intro e' he'
    rw [mem_cons, or_iff_right]
    exact fun heq => he' (heq ▸ he)
  refine ⟨⟨?_, h.lawful⟩, fun t id previous => ?_, fun e' he' t ht => ?_, fun t ht => ?_,
    fun t ht => ?_, h.unused⟩
  · cases e <;> trivial
  · rw [hmem (.transitionCreated t id previous) nofun]
    exact h.created t id previous
  · refine h.known e' ((hmem e' ?_).1 he') t ht
    rw [ht]
    exact nofun
  · rw [← h.ended t ht]
    exact over_append hinside
  · obtain ⟨hlt, hopen⟩ := h.standing t ht
    refine ⟨hlt, fun p hp => ?_, fun p hp => ?_, fun hfailure => ?_, fun hown => ?_,
      fun hown hcompleted p hp => ?_⟩
    · exact hopen.quiesceStarted p ((hmem (.quiesceStarted t p) nofun).1 hp)
    · exact hopen.disposed p ((hmem (.disposed t p) nofun).1 hp)
    · obtain ⟨hstarted, p, hp, hfailed⟩ := hopen.quiesceFailure hfailure
      exact ⟨hstarted, p, hp, mem_cons_of_mem _ hfailed⟩
    · have hrecorded := hopen.recorded ((ownId_append hinside).1 hown)
      refine ⟨fun p => ?_, fun p => ?_, fun p => ?_, fun p => ?_⟩
      · rw [hmem (.quiesceStarted t p) nofun, hrecorded.quiesceStarted]
      · rw [hmem (.quiesced t p) nofun, hrecorded.quiesced]
      · rw [hmem (.disposed t p) nofun, hrecorded.disposed]
      · rw [hmem (.restored t p) nofun, hrecorded.restored]
    · exact mem_cons_of_mem _
        (hopen.disposeCompleted ((ownId_append hinside).1 hown) hcompleted p hp)

variable {transition : RuntimeTransition}

/-- The current transition goes on: entries about it, its flags and its progress. -/
theorem Books.touch (h : Books participants log transitions count (some t) progress)
    (es : List Happening) (habout : ∀ e ∈ es, e.about = some t)
    (hinside : ∀ e ∈ es, e.inside = true) (hlawful : Lawful (Orderly participants) (es ++ log))
    {progress' : ParticipantProgress} (hid : transition.id = (transitions t).id)
    (hprevious : transition.previousWorkspaceId = (transitions t).previousWorkspaceId)
    (hopen : Open participants (es ++ log) t transition progress') :
    Books participants (es ++ log) (update transitions t transition) count (some t)
      (update progress (transitions t).id progress') := by
  obtain ⟨hlt, -⟩ := h.standing t rfl
  have hids : ∀ other, (update transitions t transition other).id =
      (transitions other).id := by
    intro other
    by_cases heq : other = t
    · subst heq
      rw [update_self, hid]
    · rw [update_of_ne heq]
  refine ⟨hlawful, fun other id previous => ?_, fun e he other hother => ?_, fun other hother => ?_,
    fun other hother => ?_, fun id hid' => ?_⟩
  · rw [created_append hinside, h.created, hids]
    by_cases heq : other = t
    · subst heq
      rw [update_self, hprevious]
    · rw [update_of_ne heq]
  · rcases mem_append.1 he with hes | hlog
    · rw [habout e hes] at hother
      cases hother
      exact hlt
    · exact h.known e hlog other hother
  · rw [over_append hinside]
    exact h.ended other hother
  · cases hother
    refine ⟨hlt, ?_⟩
    rw [hids, update_self, update_self]
    exact hopen
  · have hne : id ≠ (transitions t).id := by
      rintro rfl
      exact hid' t hlt (hids t)
    rw [update_of_ne hne]
    exact h.unused id fun other hother => hids other ▸ hid' other hother

/-- A new transition, under an id that it may share with an earlier one. -/
theorem Books.create (h : Books participants log transitions count none progress) (id : String)
    (previous : Option String) :
    Books participants (.transitionCreated count id previous :: log)
      (update transitions count { id := id, previousWorkspaceId := previous }) (count + 1)
      (some count) progress := by
  have hfresh : ∀ e : Happening, e.about = some count → e ∉ log := by
    intro e he hmem
    exact absurd (h.known e hmem count he) (by omega)
  have hmem : ∀ e : Happening, e.inside = true →
      (e ∈ .transitionCreated count id previous :: log ↔ e ∈ log) := by
    intro e he
    rw [mem_cons, or_iff_right]
    rintro rfl
    cases he
  have hold : ∀ t, t < count → update transitions count
      { id := id, previousWorkspaceId := previous } t = transitions t :=
    fun t ht => update_of_ne (by omega) ..
  refine ⟨⟨trivial, h.lawful⟩, fun t id' previous' => ?_, fun e he t ht => ?_, fun t ht => ?_,
    fun t ht => ?_, fun id' hid' => ?_⟩
  · rw [mem_cons]
    by_cases heq : t = count
    · subst heq
      have hnot := hfresh (.transitionCreated t id' previous') rfl
      rw [update_self, or_iff_left hnot]
      simp [eq_comm]
    · have hne : Happening.transitionCreated t id' previous' ≠
          .transitionCreated count id previous := by
        intro h'
        cases h'
        exact heq rfl
      rw [or_iff_right hne, h.created]
      constructor
      · rintro ⟨hlt, hrest⟩
        rw [hold t hlt]
        exact ⟨by omega, hrest⟩
      · rintro ⟨hlt, hrest⟩
        rw [hold t (by omega)] at hrest
        exact ⟨by omega, hrest⟩
  · rcases mem_cons.1 he with rfl | hmem'
    · cases ht
      omega
    · have := h.known e hmem' t ht
      omega
  · have hover : Over (.transitionCreated count id previous :: log) t ↔ Over log t := by
      unfold Over
      simp
    rw [hover]
    by_cases heq : t = count
    · subst heq
      refine iff_of_false ?_ fun hne => hne rfl
      rintro (hmem' | hmem' | hmem')
      · exact hfresh _ rfl hmem'
      · exact hfresh _ rfl hmem'
      · exact hfresh _ rfl hmem'
    · rw [h.ended t (by omega)]
      exact iff_of_true nofun fun h' => heq (Option.some.inj h').symm
  · cases ht
    rw [update_self]
    refine ⟨by omega, fun p hp => ?_, fun p hp => ?_, fun hfailure => absurd rfl hfailure,
      fun hown => ?_, fun _ hcompleted => absurd hcompleted nofun⟩
    · exact absurd ((hmem _ rfl).1 hp) (hfresh _ rfl)
    · exact absurd ((hmem _ rfl).1 hp) (hfresh _ rfl)
    · have hempty : progress id = {} := by
        refine h.unused id fun t ht hid => ?_
        have hcreated := (h.created t id (transitions t).previousWorkspaceId).2 ⟨ht, hid, rfl⟩
        have heq := hown id previous t _ mem_cons_self (mem_cons_of_mem _ hcreated)
        omega
      rw [hempty]
      refine ⟨fun p => ?_, fun p => ?_, fun p => ?_, fun p => ?_⟩
      · exact iff_of_false not_mem_nil fun hp => hfresh _ rfl ((hmem _ rfl).1 hp)
      · exact iff_of_false not_mem_nil fun hp => hfresh _ rfl ((hmem _ rfl).1 hp)
      · exact iff_of_false not_mem_nil fun hp => hfresh _ rfl ((hmem _ rfl).1 hp)
      · exact iff_of_false not_mem_nil fun hp => hfresh _ rfl ((hmem _ rfl).1 hp)
  · refine h.unused id' fun t ht => ?_
    rw [← hold t ht]
    exact hid' t (by omega)

/-- The current transition ends. -/
theorem Books.close (h : Books participants log transitions count (some t) progress)
    (he : e = .transitionCommitted t ∨ e = .transitionRestored t ∨ e = .transitionDropped t)
    (horderly : Orderly participants log e) (progress' : ParticipantProgress) :
    Books participants (e :: log) transitions count none
      (update progress (transitions t).id progress') := by
  obtain ⟨hlt, -⟩ := h.standing t rfl
  have hcreated : ∀ other id previous, e ≠ .transitionCreated other id previous := by
    rintro other id previous rfl
    rcases he with he | he | he <;> cases he
  have habout : e.about = some t := by
    rcases he with rfl | rfl | rfl <;> rfl
  have hover : ∀ other, Over (e :: log) other ↔ other = t ∨ Over log other := by
    intro other
    unfold Over
    rcases he with rfl | rfl | rfl <;> simp <;> tauto
  refine ⟨⟨horderly, h.lawful⟩, fun other id previous => ?_, fun e' he' other hother => ?_,
    fun other hother => ?_, nofun, fun id hid => ?_⟩
  · rw [mem_cons, or_iff_right (Ne.symm (hcreated other id previous))]
    exact h.created other id previous
  · rcases mem_cons.1 he' with rfl | hmem
    · rw [habout] at hother
      cases hother
      exact hlt
    · exact h.known e' hmem other hother
  · refine iff_of_true ?_ nofun
    rw [hover, h.ended other hother]
    by_cases heq : other = t
    · exact .inl heq
    · exact .inr fun h' => heq (Option.some.inj h').symm
  · rw [update_of_ne]
    · exact h.unused id hid
    · rintro rfl
      exact hid t hlt rfl

/-! ## Entries with their progress -/

/-- What an entry adds to the progress of its transition. -/
def ParticipantProgress.noted (progress : ParticipantProgress) : Happening → ParticipantProgress
  | .quiesceStarted _ p => { progress with quiesceStarted := p :: progress.quiesceStarted }
  | .quiesced _ p => { progress with quiesced := p :: progress.quiesced }
  | .disposed _ p => { progress with disposed := p :: progress.disposed }
  | .restored _ p => { progress with restored := p :: progress.restored }
  | _ => progress

theorem Recorded.noted {progress : ParticipantProgress} (h : Recorded log t progress)
    (habout : e.about = some t) : Recorded (e :: log) t (progress.noted e) := by
  obtain ⟨hquiesceStarted, hquiesced, hdisposed, hrestored⟩ := h
  constructor <;> intro p <;> cases e <;> cases habout <;>
    simp [noted, hquiesceStarted, hquiesced, hdisposed, hrestored]

theorem Open.noted {progress : ParticipantProgress}
    (h : Open participants log t transition progress) (habout : e.about = some t)
    (hinside : e.inside = true)
    (hquiesce : ∀ p, e = .quiesceStarted t p → transition.quiesceStarted = true)
    (hdispose : ∀ p, e = .disposed t p → transition.disposeStarted = true) :
    Open participants (e :: log) t transition (progress.noted e) := by
  have hinside' : ∀ e' ∈ [e], e'.inside = true := by
    intro e' he'
    rw [mem_singleton.1 he']
    exact hinside
  have hown : OwnId (e :: log) t → OwnId log t := (ownId_append hinside').1
  refine ⟨fun p hp => ?_, fun p hp => ?_, fun hfailure => ?_,
    fun hid => (h.recorded (hown hid)).noted habout, fun hid hcompleted p hp => ?_⟩
  · rcases mem_cons.1 hp with heq | hmem
    · exact hquiesce p heq.symm
    · exact h.quiesceStarted p hmem
  · rcases mem_cons.1 hp with heq | hmem
    · exact hdispose p heq.symm
    · exact h.disposed p hmem
  · obtain ⟨hstarted, p, hp, hfailed⟩ := h.quiesceFailure hfailure
    exact ⟨hstarted, p, hp, mem_cons_of_mem _ hfailed⟩
  · exact mem_cons_of_mem _ (h.disposeCompleted (hown hid) hcompleted p hp)

/-! ## The books of a state -/

def State.Booked (participants : List String) (s : State) : Prop :=
  Books participants s.log s.transitions s.transitionCount s.runtimeTransition s.progress

variable {s : State}

section

variable (h : s.Booked participants) (hcurrent : s.runtimeTransition = some t)
include h hcurrent

theorem State.Booked.standing : Open participants s.log t (s.transitions t) (s.forTransition t) :=
  (Books.standing h t hcurrent).2

/-- The current transition goes on by one entry. -/
theorem State.Booked.notes {e : Happening} (habout : e.about = some t) (hinside : e.inside = true)
    (horderly : Orderly participants s.log e)
    (hquiesce : ∀ p, e = .quiesceStarted t p → (s.transitions t).quiesceStarted = true)
    (hdispose : ∀ p, e = .disposed t p → (s.transitions t).disposeStarted = true) :
    ((s.modifyProgress t fun progress => progress.noted e).record e).Booked participants := by
  have hopen := (h.standing hcurrent).noted habout hinside hquiesce hdispose
  unfold Booked at h ⊢
  rw [hcurrent] at h
  have htouch := h.touch [e] (by simpa using habout) (by simpa using hinside)
    ⟨horderly, h.lawful⟩ rfl rfl hopen
  rw [update_eq_self] at htouch
  change Books participants (e :: s.log) s.transitions s.transitionCount s.runtimeTransition _
  rw [hcurrent]
  exact htouch

/-- An entry about the current transition that its progress does not keep. -/
theorem State.Booked.records {e : Happening} (habout : e.about = some t)
    (hinside : e.inside = true) (horderly : Orderly participants s.log e)
    (hplain : ∀ progress : ParticipantProgress, progress.noted e = progress) :
    (s.record e).Booked participants := by
  have hnotes := h.notes hcurrent habout hinside horderly (fun p heq => ?_) fun p heq => ?_
  · have hsame : (s.modifyProgress t fun progress => progress.noted e) = s := by
      unfold modifyProgress forTransition
      dsimp only
      rw [hplain, update_eq_self]
    rwa [hsame] at hnotes
  · subst heq
    have hlong := congrArg (·.quiesceStarted.length) (hplain {})
    exact absurd hlong (by simp [noted])
  · subst heq
    have hlong := congrArg (·.disposed.length) (hplain {})
    exact absurd hlong (by simp [noted])

/-- The flags of the current transition. -/
theorem State.Booked.adjusts {f : RuntimeTransition → RuntimeTransition}
    (hid : ∀ transition, (f transition).id = transition.id)
    (hprevious : ∀ transition, (f transition).previousWorkspaceId = transition.previousWorkspaceId)
    (hopen : Open participants s.log t (f (s.transitions t)) (s.forTransition t)) :
    (s.modifyTransition t f).Booked participants := by
  unfold Booked at h ⊢
  rw [hcurrent] at h
  have htouch := h.touch [] nofun nofun h.lawful (hid _) (hprevious _) hopen
  have hsame : update s.progress (s.transitions t).id (s.forTransition t) = s.progress :=
    update_eq_self ..
  rw [hsame] at htouch
  change Books participants s.log (update s.transitions t (f (s.transitions t)))
    s.transitionCount s.runtimeTransition s.progress
  rw [hcurrent]
  exact htouch

end

/-- A happening about no transition. -/
theorem State.Booked.notes_other (h : s.Booked participants) (he : e.about = none) :
    (s.record e).Booked participants := Books.note h he

theorem State.Booked.not_over (h : s.Booked participants)
    (hcurrent : s.runtimeTransition = some t) :
    ¬Over s.log t := by
  unfold Booked at h
  rw [hcurrent] at h
  exact h.not_over

end bbcom.workspace_activation
