-- Runs of the activation of workspaces: one attempt after the other, and what each of them may
-- still commit.
import Bbcom.ActivationOwnership

open bbcom.histories bbcom.runs

namespace bbcom.workspace_activation

open List Function State

/-! ## The claim about a history -/

/-- Attempts run one after the other; one that was revoked neither commits nor deletes, and one
that has committed is not revoked; only the attempt at its commit point replaces the facade. -/
def Allowed (past : List Happening) : Happening → Prop
  | .began g => .began g ∉ past ∧ ∀ earlier, .began earlier ∈ past → .ended earlier ∈ past
  | .ended g => .began g ∈ past ∧ .ended g ∉ past
  | .revoked g => .committing g ∉ past
  | .committing g => .revoked g ∉ past ∧ .began g ∈ past ∧ .ended g ∉ past
  | .facadeReplaced g _ => past.head? = some (.committing g)
  | .workspaceDeleted g => .revoked g ∉ past
  | _ => True

/-- What the facade shows after a history. -/
def shownAfter : List Happening → Option String
  | [] => none
  | .facadeReplaced _ workspaceId :: _ => workspaceId
  | _ :: past => shownAfter past

structure Owned (s : State) : Prop where
  lawful : Lawful Allowed s.log
  facade : s.facade = shownAfter s.log
  idle : (∀ g, s.stages g = .settled) →
    s.attempt = none ∧ s.switching = false ∧ s.hydrating = false

/-! ## The invariant -/

structure Ownership (s : State) : Prop where
  lawful : Lawful Allowed s.log
  facade : s.facade = shownAfter s.log
  newest : s.LatestIsNewest
  unrequested : ∀ g, s.generation < g → s.stages g = .settled
  zero : s.stages 0 = .settled
  serial : ∀ g later, g < later → s.stages g ≠ .settled →
    s.stages later = .waiting ∨ s.generation < later
  began : ∀ g, .began g ∈ s.log ↔ 0 < g ∧ g ≤ s.generation ∧ s.stages g ≠ .waiting
  ended : ∀ g, .ended g ∈ s.log ↔ .began g ∈ s.log ∧ s.stages g = .settled
  revoked : ∀ g, .revoked g ∈ s.log → (s.attempts g).aborted = true ∧ g ≤ s.generation
  committing : ∀ g, .committing g ∈ s.log → .began g ∈ s.log ∧ s.stages g = .settled
  undecided : ∀ g, s.stages g ≠ .settled → (s.attempts g).phase.decided = false
  superseded : ∀ g, s.stages g ≠ .settled → s.attempt ≠ some g → (s.attempts g).aborted = true
  unsettled : ∀ g, s.attempt = some g → s.stages g ≠ .settled
  quiet : s.attempt = none →
    s.switching = false ∧ s.hydrating = false ∧ ∀ g, s.stages g = .settled

variable {g : Nat} {s s₁ s' : State} {participants : List String}

theorem Ownership.owned (h : Ownership s) : Owned s := by
  refine ⟨h.lawful, h.facade, fun hsettled => ?_⟩
  cases hattempt : s.attempt with
  | none =>
    obtain ⟨hswitching, hhydrating, -⟩ := h.quiet hattempt
    exact ⟨rfl, hswitching, hhydrating⟩
  | some g => exact absurd (hsettled g) (h.unsettled g hattempt)

theorem ownership_start : Ownership {} where
  lawful := trivial
  facade := rfl
  newest := nofun
  unrequested _ _ := rfl
  zero := rfl
  serial _ _ _ h := absurd rfl h
  began g := by simp only [not_mem_nil, false_iff]; omega
  ended _ := by simp
  revoked := nofun
  committing := nofun
  undecided _ h := absurd rfl h
  superseded _ h := absurd rfl h
  unsettled := nofun
  quiet _ := ⟨rfl, rfl, fun _ => rfl⟩

section

variable (h : Ownership s) (hrunning : (s.stages g).running)
include h hrunning

/-- An attempt that runs is alone: those before it have settled, those after it wait. -/
theorem Ownership.others (other : Nat) (hne : other ≠ g) :
    s.stages other = .settled ∨ g < other ∧ s.stages other = .waiting := by
  have hunsettled : s.stages g ≠ .settled := by
    intro hsettled
    rw [hsettled] at hrunning
    exact absurd hrunning (by decide)
  have hwaiting : s.stages g ≠ .waiting := by
    intro hwaiting
    rw [hwaiting] at hrunning
    exact absurd hrunning (by decide)
  rcases Nat.lt_or_gt_of_ne hne with hlt | hgt
  · by_contra hnot
    rw [not_or] at hnot
    rcases h.serial other g hlt hnot.1 with hw | hlater
    · exact hwaiting hw
    · exact hunsettled (h.unrequested g hlater)
  · rcases h.serial g other hgt hunsettled with hw | hlater
    · exact .inr ⟨hgt, hw⟩
    · exact .inl (h.unrequested other hlater)

theorem Ownership.running_began : .began g ∈ s.log := by
  have hsettled : s.stages g ≠ .settled := by
    intro h'; rw [h'] at hrunning; exact absurd hrunning (by decide)
  rw [h.began]
  refine ⟨?_, ?_, ?_⟩
  · rcases Nat.eq_zero_or_pos g with hzero | hpos
    · exact absurd (hzero ▸ h.zero) hsettled
    · exact hpos
  · by_contra hnot
    exact hsettled (h.unrequested g (by omega))
  · intro h'; rw [h'] at hrunning; exact absurd hrunning (by decide)

theorem Ownership.running_not_ended : .ended g ∉ s.log := by
  rw [h.ended]
  rintro ⟨-, h'⟩
  rw [h'] at hrunning
  exact absurd hrunning (by decide)

end

section Neutral

variable {happened log : List Happening} (hof : ∀ h ∈ happened, h.neutral)

include hof

theorem mem_neutral_append {e : Happening} (he : e.neutral = false) :
    e ∈ happened ++ log ↔ e ∈ log := by
  rw [mem_append, or_iff_right]
  intro hmem
  rw [hof e hmem] at he
  exact absurd he nofun

theorem lawful_neutral_append (h : Lawful Allowed log) : Lawful Allowed (happened ++ log) := by
  induction happened with
  | nil => exact h
  | cons e happened ih =>
    have he := hof e mem_cons_self
    refine ⟨?_, ih fun h hmem => hof h (mem_cons_of_mem _ hmem)⟩
    cases e <;> trivial

theorem shownAfter_neutral_append : shownAfter (happened ++ log) = shownAfter log := by
  induction happened with
  | nil => rfl
  | cons e happened ih =>
    have he := hof e mem_cons_self
    rw [cons_append, ← ih fun h hmem => hof h (mem_cons_of_mem _ hmem)]
    cases e <;> first | rfl | cases he

end Neutral

/-! ## What each piece keeps -/

/-- A running attempt that goes on. -/
theorem Ownership.continues (h : Ownership s) (hrunning : (s.stages g).running)
    (hcontinues : Continues g s s') : Ownership s' := by
  obtain ⟨s₁, stage, hworks, hstage, rfl⟩ := hcontinues.before
  obtain ⟨happened, hlog, hof⟩ := hworks.log
  have hsettled : stage ≠ .settled := by rintro rfl; exact absurd hstage (by decide)
  have hwaiting : stage ≠ .waiting := by rintro rfl; exact absurd hstage (by decide)
  have hsettled' : s.stages g ≠ .settled := by
    intro h'; rw [h'] at hrunning; exact absurd hrunning (by decide)
  have hwaiting' : s.stages g ≠ .waiting := by
    intro h'; rw [h'] at hrunning; exact absurd hrunning (by decide)
  have hstages : (s₁.goTo g stage).stages = update s.stages g stage := by
    change update s₁.stages g stage = _
    rw [hworks.stages]
  have hsame : ∀ other, (s₁.goTo g stage).stages other = .settled ↔ s.stages other = .settled := by
    intro other
    rw [hstages]
    by_cases heq : other = g
    · subst heq
      simp [hsettled, hsettled']
    · simp [heq]
  have hsame' : ∀ other, (s₁.goTo g stage).stages other = .waiting ↔ s.stages other = .waiting := by
    intro other
    rw [hstages]
    by_cases heq : other = g
    · subst heq
      simp [hwaiting, hwaiting']
    · simp [heq]
  have hmem : ∀ e : Happening, e.neutral = false → (e ∈ s₁.log ↔ e ∈ s.log) := by
    intro e he
    rw [hlog]
    exact mem_neutral_append hof he
  have habortedOf : ∀ other, (s₁.attempts other).aborted = (s.attempts other).aborted := by
    intro other
    by_cases heq : other = g
    · rw [heq]
      exact hworks.aborted
    · rw [hworks.others other heq]
  refine
    { lawful := ?_
      facade := ?_
      newest := hworks.latestIsNewest h.newest
      unrequested other hother := (hsame other).2 (h.unrequested other ?_)
      zero := (hsame 0).2 h.zero
      serial other later hlt hother := ?_
      began other := ?_
      ended other := ?_
      revoked other hother := ?_
      committing other hother := ?_
      undecided other hother := ?_
      superseded other hother hne := ?_
      unsettled other hother := ?_
      quiet hnone := ?_ }
  · change Lawful Allowed s₁.log
    rw [hlog]
    exact lawful_neutral_append hof h.lawful
  · change s₁.facade = shownAfter s₁.log
    rw [hlog, shownAfter_neutral_append hof, hworks.facade]
    exact h.facade
  · exact hworks.generation ▸ hother
  · rw [hsame']
    change _ ∨ s₁.generation < later
    rw [hworks.generation]
    exact h.serial other later hlt fun h' => hother ((hsame other).2 h')
  · change _ ∈ s₁.log ↔ _ ∧ other ≤ s₁.generation ∧ _
    rw [hmem _ rfl, hworks.generation, h.began other, Ne, Ne, hsame']
  · change _ ∈ s₁.log ↔ _ ∈ s₁.log ∧ _
    rw [hmem _ rfl, hmem _ rfl, h.ended other, hsame]
  · change (s₁.attempts other).aborted = true ∧ other ≤ s₁.generation
    rw [habortedOf, hworks.generation]
    exact h.revoked other ((hmem _ rfl).1 hother)
  · change _ ∈ s₁.log ∧ _
    rw [hmem _ rfl, hsame]
    exact h.committing other ((hmem _ rfl).1 hother)
  · change (s₁.attempts other).phase.decided = false
    have hphase := h.undecided other fun h' => hother ((hsame other).2 h')
    by_cases heq : other = g
    · subst heq
      exact hworks.phase hphase
    · rw [hworks.others other heq]
      exact hphase
  · change (s₁.attempts other).aborted = true
    rw [habortedOf]
    refine h.superseded other (fun h' => hother ((hsame other).2 h')) ?_
    exact hworks.attempt ▸ hne
  · refine fun h' => h.unsettled other ?_ ((hsame other).1 h')
    exact hworks.attempt ▸ hother
  · have hnone' : s.attempt = none := hworks.attempt ▸ hnone
    exact absurd ((h.quiet hnone').2.2 g) hsettled'

/-- What an attempt that ends leaves to the others. -/
structure Leaves (g : Nat) (s s' : State) : Prop where
  generation : s'.generation = s.generation
  attempt : s'.attempt = if s.attempt = some g then none else s.attempt
  flags : s.attempt = some g → s'.switching = false ∧ s'.hydrating = false
  stages : s'.stages = update s.stages g .settled
  others : ∀ other, other ≠ g → (s'.attempts other).phase = (s.attempts other).phase ∧
    ((s.attempts other).aborted → (s'.attempts other).aborted)
  aborted : (s'.attempts g).aborted = (s.attempts g).aborted

/-- An attempt that ends, with a history that tells so. -/
theorem Ownership.leaves (h : Ownership s) (hrunning : (s.stages g).running)
    (hleaves : Leaves g s s') (hlawful : Lawful Allowed s'.log)
    (hfacade : s'.facade = shownAfter s'.log)
    (hbegan : ∀ other, .began other ∈ s'.log ↔ .began other ∈ s.log)
    (hended : ∀ other, .ended other ∈ s'.log ↔ other = g ∨ .ended other ∈ s.log)
    (hrevoked : ∀ other, .revoked other ∈ s'.log → .revoked other ∈ s.log)
    (hcommitting : ∀ other, .committing other ∈ s'.log → other = g ∨ .committing other ∈ s.log) :
    Ownership s' := by
  have hsettled : s.stages g ≠ .settled := by
    intro h'; rw [h'] at hrunning; exact absurd hrunning (by decide)
  have hwaiting : s.stages g ≠ .waiting := by
    intro h'; rw [h'] at hrunning; exact absurd hrunning (by decide)
  have hself : s'.stages g = .settled := by rw [hleaves.stages]; simp
  have hother : ∀ other, other ≠ g → s'.stages other = s.stages other := by
    intro other hne
    rw [hleaves.stages]
    simp [hne]
  have hunsettled : ∀ other, s'.stages other ≠ .settled →
      other ≠ g ∧ s.stages other ≠ .settled := by
    intro other hnot
    have hne : other ≠ g := fun heq => hnot (heq ▸ hself)
    exact ⟨hne, hother other hne ▸ hnot⟩
  have hrequested : g ≤ s.generation := by
    by_contra hnot
    exact hsettled (h.unrequested g (by omega))
  have hpositive : 0 < g := by
    rcases Nat.eq_zero_or_pos g with hzero | hpos
    · exact absurd (hzero ▸ h.zero) hsettled
    · exact hpos
  have hbegan' : .began g ∈ s.log := (h.began g).2 ⟨hpositive, hrequested, hwaiting⟩
  refine
    { lawful := hlawful
      facade := hfacade
      newest := ?_
      unrequested other hother' := ?_
      zero := ?_
      serial other later hlt hnot := ?_
      began other := ?_
      ended other := ?_
      revoked other hmem := ?_
      committing other hmem := ?_
      undecided other hnot := ?_
      superseded other hnot hne := ?_
      unsettled other hattempt := ?_
      quiet hnone := ?_ }
  · intro other hattempt
    rw [hleaves.attempt] at hattempt
    split at hattempt
    · cases hattempt
    · rw [hleaves.generation]
      exact h.newest other hattempt
  · by_cases heq : other = g
    · rw [heq, hself]
    · rw [hother other heq]
      exact h.unrequested other (hleaves.generation ▸ hother')
  · rw [hother 0 (by omega)]
    exact h.zero
  · obtain ⟨hne, hnot'⟩ := hunsettled other hnot
    rw [hleaves.generation]
    by_cases heq : later = g
    · -- nothing before the running attempt is unsettled
      rcases h.others hrunning other hne with hdone | ⟨hlater, -⟩
      · exact absurd hdone hnot'
      · omega
    · rw [hother later heq]
      exact h.serial other later hlt hnot'
  · rw [hbegan, h.began, hleaves.generation]
    by_cases heq : other = g
    · subst heq
      rw [hself]
      exact ⟨fun h' => ⟨h'.1, h'.2.1, nofun⟩, fun h' => ⟨h'.1, h'.2.1, hwaiting⟩⟩
    · rw [hother other heq]
  · rw [hended, hbegan]
    by_cases heq : other = g
    · subst heq
      exact ⟨fun _ => ⟨hbegan', hself⟩, fun _ => .inl rfl⟩
    · rw [hother other heq, h.ended, or_iff_right heq]
  · rw [hleaves.generation]
    obtain ⟨haborted, hle⟩ := h.revoked other (hrevoked other hmem)
    refine ⟨?_, hle⟩
    by_cases heq : other = g
    · subst heq
      rw [hleaves.aborted]
      exact haborted
    · exact (hleaves.others other heq).2 haborted
  · rw [hbegan]
    rcases hcommitting other hmem with heq | hmem
    · subst heq
      exact ⟨hbegan', hself⟩
    · obtain ⟨hmem', hdone⟩ := h.committing other hmem
      refine ⟨hmem', ?_⟩
      by_cases heq : other = g
      · rw [heq, hself]
      · rw [hother other heq, hdone]
  · obtain ⟨hne, hnot'⟩ := hunsettled other hnot
    rw [(hleaves.others other hne).1]
    exact h.undecided other hnot'
  · obtain ⟨hne', hnot'⟩ := hunsettled other hnot
    rw [hleaves.attempt] at hne
    refine (hleaves.others other hne').2 (h.superseded other hnot' fun hattempt => ?_)
    have hne'' : s.attempt ≠ some g := by
      rw [hattempt]
      exact fun heq => hne' (Option.some.inj heq)
    rw [if_neg hne''] at hne
    exact hne hattempt
  · rw [hleaves.attempt] at hattempt
    split at hattempt
    · cases hattempt
    · rename_i hnot
      have hne : other ≠ g := fun heq => hnot (heq ▸ hattempt)
      rw [hother other hne]
      exact h.unsettled other hattempt
  · rw [hleaves.attempt] at hnone
    split at hnone
    · rename_i hattempt
      obtain ⟨hswitching, hhydrating⟩ := hleaves.flags hattempt
      refine ⟨hswitching, hhydrating, fun other => ?_⟩
      by_cases heq : other = g
      · rw [heq, hself]
      · rw [hother other heq]
        rcases h.others hrunning other heq with hdone | ⟨hlater, hwait⟩
        · exact hdone
        · refine h.unrequested other ?_
          rw [← h.newest g hattempt]
          exact hlater
    · exact absurd ((h.quiet hnone).2.2 g) hsettled

theorem Ends.leaves (h : Ends g s s') : Leaves g s s' :=
  ⟨h.generation, h.attempt, h.flags, h.stages, h.others, h.aborted⟩

variable {workspaceId : Option String}

theorem Commits.leaves (h : Commits g workspaceId s s') :
    Leaves g s s' :=
  ⟨h.generation, h.attempt, h.flags, h.stages,
    fun other hne => by simp [h.others other hne], h.aborted⟩

theorem Ownership.ends (h : Ownership s) (hrunning : (s.stages g).running) (hends : Ends g s s') :
    Ownership s' := by
  obtain ⟨happened, hlog, hof⟩ := hends.log
  have hmem : ∀ e : Happening, e.neutral = false → (e ∈ s'.log ↔ e = .ended g ∨ e ∈ s.log) := by
    intro e he
    rw [hlog, cons_append, mem_cons, mem_neutral_append hof he]
  refine h.leaves hrunning hends.leaves ?_ ?_ (fun other => ?_) (fun other => ?_)
    (fun other => ?_) fun other => ?_
  · rw [hlog, cons_append, lawful_cons]
    refine ⟨⟨?_, ?_⟩, lawful_neutral_append hof h.lawful⟩
    · rw [mem_neutral_append hof rfl]
      exact h.running_began hrunning
    · rw [mem_neutral_append hof rfl]
      exact h.running_not_ended hrunning
  · rw [hlog, cons_append, hends.facade]
    exact h.facade.trans (shownAfter_neutral_append hof).symm
  · rw [hmem (.began other) rfl]
    simp
  · rw [hmem (.ended other) rfl]
    simp
  · rw [hmem (.revoked other) rfl]
    simp
  · rw [hmem (.committing other) rfl]
    simp
    exact .inr

section Deleted

variable {deleted log : List Happening}
  (hdeleted : ∀ h ∈ deleted, h.neutral ∨ h = .workspaceDeleted g)

include hdeleted

theorem mem_deleted_append {e : Happening} (he : e.neutral = false)
    (hne : e ≠ .workspaceDeleted g) : e ∈ deleted ++ log ↔ e ∈ log := by
  rw [mem_append, or_iff_right]
  intro hmem
  rcases hdeleted e hmem with hof | heq
  · rw [hof] at he
    exact absurd he nofun
  · exact hne heq

theorem lawful_deleted_append (hrevoked : .revoked g ∉ log) (h : Lawful Allowed log) :
    Lawful Allowed (deleted ++ log) := by
  induction deleted with
  | nil => exact h
  | cons e deleted ih =>
    have hdeleted' : ∀ h ∈ deleted, h.neutral ∨ h = .workspaceDeleted g :=
      fun h hmem => hdeleted h (mem_cons_of_mem _ hmem)
    refine ⟨?_, ih hdeleted'⟩
    rcases hdeleted e mem_cons_self with hof | heq
    · cases e <;> trivial
    · subst heq
      change .revoked g ∉ deleted ++ log
      rwa [mem_deleted_append hdeleted' (e := .revoked g) rfl nofun]

end Deleted

theorem Ownership.commits (h : Ownership s) (hrunning : (s.stages g).running)
    (hrevoked : .revoked g ∉ s.log) (hcommits : Commits g workspaceId s s') : Ownership s' := by
  obtain ⟨happened, deleted, hlog, hof, hdeleted⟩ := hcommits.log
  have hmem : ∀ e : Happening, e.neutral = false → e ≠ .workspaceDeleted g → (e ∈ s'.log ↔
        e = .ended g ∨ e = .facadeReplaced g workspaceId ∨ e = .committing g ∨ e ∈ s.log) := by
    intro e he hne
    rw [hlog, append_assoc, cons_append, mem_cons, mem_neutral_append hof he, cons_append,
      cons_append, mem_cons, mem_cons, mem_deleted_append hdeleted he hne]
  refine h.leaves hrunning hcommits.leaves ?_ ?_ (fun other => ?_) (fun other => ?_)
    (fun other => ?_) fun other => ?_
  · have hbegan : .began g ∈ deleted ++ s.log :=
      (mem_deleted_append hdeleted (e := .began g) rfl nofun).2 (h.running_began hrunning)
    have hnot : .ended g ∉ deleted ++ s.log := by
      rw [mem_deleted_append hdeleted (e := .ended g) rfl nofun]
      exact h.running_not_ended hrunning
    have hnot' : .revoked g ∉ deleted ++ s.log := by
      rwa [mem_deleted_append hdeleted (e := .revoked g) rfl nofun]
    have hcommitted : Lawful Allowed
        (.facadeReplaced g workspaceId :: .committing g :: (deleted ++ s.log)) :=
      ⟨rfl, ⟨hnot', hbegan, hnot⟩, lawful_deleted_append hdeleted hrevoked h.lawful⟩
    rw [hlog, append_assoc, cons_append, lawful_cons]
    refine ⟨⟨?_, ?_⟩, lawful_neutral_append hof hcommitted⟩
    · rw [mem_neutral_append hof (e := .began g) rfl]
      simp [hbegan]
    · rw [mem_neutral_append hof (e := .ended g) rfl]
      simpa using hnot
  · rw [hlog, append_assoc, cons_append, hcommits.facade]
    change _ = shownAfter (happened ++ _)
    rw [shownAfter_neutral_append hof]
    rfl
  · rw [hmem (.began other) rfl nofun]
    simp
  · rw [hmem (.ended other) rfl nofun]
    simp
  · rw [hmem (.revoked other) rfl nofun]
    simp
  · rw [hmem (.committing other) rfl nofun]
    simp

/-! ## Requests and cancellations -/

/-- The latest attempt is aborted while it may still be. -/
theorem Ownership.revokes (h : Ownership s) (hattempt : s.attempt = some g)
    {f : ActivationAttempt → ActivationAttempt} (haborted : ∀ a, (f a).aborted = true)
    (hphase : ∀ a, (f a).phase = a.phase) :
    Ownership ((s.modifyAttempt g f).record (.revoked g)) := by
  have hunsettled := h.unsettled g hattempt
  have hattempts : ∀ other, (((s.modifyAttempt g f).record (.revoked g)).attempts other).phase =
      (s.attempts other).phase ∧ ((s.attempts other).aborted = true →
        (((s.modifyAttempt g f).record (.revoked g)).attempts other).aborted = true) := by
    intro other
    by_cases heq : other = g
    · subst heq
      simp [modifyAttempt, record, haborted, hphase]
    · simp [modifyAttempt, record, heq]
  have hmem : ∀ e : Happening, e ≠ .revoked g →
      (e ∈ ((s.modifyAttempt g f).record (.revoked g)).log ↔ e ∈ s.log) := by
    intro e hne
    change e ∈ .revoked g :: s.log ↔ _
    rw [mem_cons, or_iff_right hne]
  refine
    { lawful := ⟨fun hcommitting => hunsettled (h.committing g hcommitting).2, h.lawful⟩
      facade := h.facade
      newest := h.newest
      unrequested := h.unrequested
      zero := h.zero
      serial := h.serial
      began other := ?_
      ended other := ?_
      revoked other hother := ?_
      committing other hother := ?_
      undecided other hother := (hattempts other).1 ▸ h.undecided other hother
      superseded other hother hne := (hattempts other).2 (h.superseded other hother hne)
      unsettled := h.unsettled
      quiet := h.quiet }
  · rw [hmem (.began other) (by simp)]
    exact h.began other
  · rw [hmem (.ended other) (by simp), hmem (.began other) (by simp)]
    exact h.ended other
  · change _ ∧ other ≤ s.generation
    by_cases heq : other = g
    · subst heq
      have hrequested : other ≤ s.generation := by
        by_contra hnot
        exact hunsettled (h.unrequested other (by omega))
      refine ⟨?_, hrequested⟩
      simp [modifyAttempt, record, haborted]
    · have hne : Happening.revoked other ≠ .revoked g := fun h' => heq (Happening.revoked.inj h')
      obtain ⟨habortedOther, hle⟩ := h.revoked other ((hmem _ hne).1 hother)
      exact ⟨(hattempts other).2 habortedOther, hle⟩
  · rw [hmem (.began other) (by simp)]
    exact h.committing other ((hmem (.committing other) (by simp)).1 hother)

theorem Ownership.abortPredecessor (h : Ownership s) : Ownership (abortPredecessor s) ∧
    ∀ g, s.attempt = some g → ((abortPredecessor s).attempts g).aborted = true := by
  unfold workspace_activation.abortPredecessor
  cases hattempt : s.attempt with
  | none => exact ⟨h, fun g hg => by cases hg⟩
  | some g =>
    dsimp only
    rw [if_neg]
    · refine ⟨h.revokes hattempt (fun _ => rfl) (fun _ => rfl), fun g' hg' => ?_⟩
      cases hg'
      simp [modifyAttempt, record]
    · rw [h.undecided g (h.unsettled g hattempt)]
      exact Bool.false_ne_true

theorem abortPredecessor_keeps :
    (abortPredecessor s).attempt = s.attempt ∧ (abortPredecessor s).generation = s.generation := by
  unfold workspace_activation.abortPredecessor
  split
  · exact ⟨rfl, rfl⟩
  · split <;> exact ⟨rfl, rfl⟩

theorem Ownership.enqueue (h : Ownership s) (request : Request) :
    Ownership (enqueue s request) := by
  obtain ⟨habort, haborted⟩ := h.abortPredecessor
  unfold workspace_activation.enqueue
  dsimp only
  rw [← abortPredecessor_keeps.1] at haborted
  generalize workspace_activation.abortPredecessor s = s₁ at habort haborted ⊢
  have hfresh : s₁.stages (s₁.generation + 1) = .settled := habort.unrequested _ (by omega)
  have hold : ∀ other, other ≠ s₁.generation + 1 →
      update s₁.stages (s₁.generation + 1) .waiting other = s₁.stages other :=
    fun other hne => update_of_ne hne ..
  have hold' : ∀ other, other ≠ s₁.generation + 1 →
      update s₁.attempts (s₁.generation + 1) {} other = s₁.attempts other :=
    fun other hne => update_of_ne hne ..
  have hbegan : .began (s₁.generation + 1) ∉ s₁.log := by
    rw [habort.began]
    omega
  refine
    { lawful := habort.lawful
      facade := habort.facade
      newest g hg := (Option.some.inj hg).symm
      unrequested other hother := ?_
      zero := ?_
      serial other later hlt hnot := ?_
      began other := ?_
      ended other := ?_
      revoked other hother := ?_
      committing other hother := ?_
      undecided other hother := ?_
      superseded other hother hne := ?_
      unsettled other hother := ?_
      quiet := nofun }
  · change s₁.generation + 1 < other at hother
    change update s₁.stages _ _ other = _
    rw [hold other (by omega)]
    exact habort.unrequested other (by omega)
  · exact (hold 0 (by omega)).trans habort.zero
  · change update s₁.stages _ _ other ≠ _ at hnot
    change update s₁.stages _ _ later = _ ∨ s₁.generation + 1 < later
    by_cases hlater : later = s₁.generation + 1
    · subst hlater
      exact .inl (update_self ..)
    · by_cases hother : other = s₁.generation + 1
      · omega
      · rw [hold other hother] at hnot
        rw [hold later hlater]
        rcases habort.serial other later hlt hnot with hwaiting | hbeyond
        · exact .inl hwaiting
        · exact .inr (by omega)
  · change .began other ∈ s₁.log ↔ 0 < other ∧ other ≤ s₁.generation + 1 ∧
      update s₁.stages _ _ other ≠ _
    by_cases heq : other = s₁.generation + 1
    · subst heq
      simp [hbegan]
    · rw [hold other heq, habort.began]
      constructor
      · rintro ⟨hpos, hle, hne⟩
        exact ⟨hpos, by omega, hne⟩
      · rintro ⟨hpos, hle, hne⟩
        exact ⟨hpos, by omega, hne⟩
  · change .ended other ∈ s₁.log ↔ .began other ∈ s₁.log ∧ update s₁.stages _ _ other = _
    by_cases heq : other = s₁.generation + 1
    · subst heq
      simp [hbegan, habort.ended]
    · rw [hold other heq]
      exact habort.ended other
  · obtain ⟨habortedOther, hle⟩ := habort.revoked other hother
    change (update s₁.attempts _ _ other).aborted = true ∧ other ≤ s₁.generation + 1
    rw [hold' other (by omega)]
    exact ⟨habortedOther, by omega⟩
  · obtain ⟨hmem, hsettled⟩ := habort.committing other hother
    change _ ∧ update s₁.stages _ _ other = _
    rw [hold other fun heq => hbegan (heq ▸ hmem)]
    exact ⟨hmem, hsettled⟩
  · change update s₁.stages _ _ other ≠ _ at hother
    change (update s₁.attempts _ _ other).phase.decided = false
    by_cases heq : other = s₁.generation + 1
    · subst heq
      simp [ActivationPhase.decided]
    · rw [hold other heq] at hother
      rw [hold' other heq]
      exact habort.undecided other hother
  · change update s₁.stages _ _ other ≠ _ at hother
    change (update s₁.attempts _ _ other).aborted = true
    have heq : other ≠ s₁.generation + 1 := fun heq => hne (congrArg some heq.symm)
    rw [hold other heq] at hother
    rw [hold' other heq]
    by_cases hlatest : s₁.attempt = some other
    · exact haborted other hlatest
    · exact habort.superseded other hother hlatest
  · cases hother
    change update s₁.stages _ _ _ ≠ _
    simp

theorem Ownership.cancelActivation (h : Ownership s) (coordinatorCancels : Bool) :
    Ownership (cancelActivation s coordinatorCancels).2 := by
  unfold workspace_activation.cancelActivation
  split
  · exact h
  · rename_i g hattempt
    split
    · exact h
    · have hrevoked := h.revokes hattempt
        (f := fun a => { a with cancelledByUser := true, aborted := true }) (fun _ => rfl)
        (fun _ => rfl)
      refine { hrevoked with quiet := fun hnone => ?_ }
      exact absurd (hattempt.symm.trans hnone) nofun

/-! ## Steps -/

/-- The tail hands over: the attempt begins, and runs from now on. -/
theorem Ownership.begins (h : Ownership s) (hwaiting : s.stages g = .waiting)
    (hturn : s.stages (g - 1) = .settled) :
    Ownership ((s.record (.began g)).goTo g .invoking) := by
  have hunsettled : s.stages g ≠ .settled := by rw [hwaiting]; exact nofun
  have hrequested : g ≤ s.generation := by
    by_contra hnot
    exact hunsettled (h.unrequested g (by omega))
  have hpositive : 0 < g := by
    rcases Nat.eq_zero_or_pos g with hzero | hpos
    · exact absurd (hzero ▸ h.zero) hunsettled
    · exact hpos
  have hearlier : ∀ other, other < g → s.stages other = .settled := by
    intro other hlt
    by_contra hnot
    rcases Nat.lt_or_ge other (g - 1) with hlt' | hge
    · rcases h.serial other (g - 1) hlt' hnot with hw | hbeyond
      · exact absurd (hturn.symm.trans hw) nofun
      · omega
    · have heq : other = g - 1 := by omega
      exact hnot (heq ▸ hturn)
  have hnotBegan : .began g ∉ s.log := by
    rw [h.began]
    exact fun hbegan => hbegan.2.2 hwaiting
  have hself : ((s.record (.began g)).goTo g .invoking).stages g = .invoking :=
    update_self ..
  have hother : ∀ other, other ≠ g →
      ((s.record (.began g)).goTo g .invoking).stages other = s.stages other :=
    fun other hne => update_of_ne hne ..
  have hsettled : ∀ other, ((s.record (.began g)).goTo g .invoking).stages other = .settled ↔
      s.stages other = .settled := by
    intro other
    by_cases heq : other = g
    · rw [heq, hself, hwaiting]
      simp
    · rw [hother other heq]
  have hmem : ∀ e : Happening, e ≠ .began g →
      (e ∈ ((s.record (.began g)).goTo g .invoking).log ↔ e ∈ s.log) := by
    intro e hne
    change e ∈ .began g :: s.log ↔ _
    rw [mem_cons, or_iff_right hne]
  refine
    { lawful := ⟨⟨hnotBegan, fun earlier hearlier' => ?_⟩, h.lawful⟩
      facade := h.facade
      newest := h.newest
      unrequested other hlt := (hsettled other).2 (h.unrequested other hlt)
      zero := (hsettled 0).2 h.zero
      serial other later hlt hnot := ?_
      began other := ?_
      ended other := ?_
      revoked other hother' := h.revoked other ((hmem (.revoked other) nofun).1 hother')
      committing other hother' := ?_
      undecided other hnot := h.undecided other fun h' => hnot ((hsettled other).2 h')
      superseded other hnot := h.superseded other fun h' => hnot ((hsettled other).2 h')
      unsettled other hattempt h' := h.unsettled other hattempt ((hsettled other).1 h')
      quiet hnone := absurd ((h.quiet hnone).2.2 g) hunsettled }
  · obtain ⟨hpos, hle, hbegun⟩ := (h.began earlier).1 hearlier'
    refine (h.ended earlier).2 ⟨hearlier', ?_⟩
    rcases Nat.lt_trichotomy earlier g with hlt | heq | hgt
    · exact hearlier earlier hlt
    · exact absurd (heq ▸ hwaiting) hbegun
    · rcases h.serial g earlier hgt hunsettled with hw | hbeyond
      · exact absurd hw hbegun
      · omega
  · have hnot' : s.stages other ≠ .settled := fun h' => hnot ((hsettled other).2 h')
    by_cases heq : later = g
    · exact absurd (hearlier other (heq ▸ hlt)) hnot'
    · rw [hother later heq]
      exact h.serial other later hlt hnot'
  · by_cases heq : other = g
    · subst heq
      rw [hself]
      exact ⟨fun _ => ⟨hpositive, hrequested, nofun⟩, fun _ => mem_cons_self⟩
    · rw [hother other heq, hmem (.began other) fun h' => heq (Happening.began.inj h')]
      exact h.began other
  · rw [hmem (.ended other) (by simp), hsettled, h.ended]
    by_cases heq : other = g
    · subst heq
      simp [hwaiting]
    · rw [hmem (.began other) fun h' => heq (Happening.began.inj h')]
  · obtain ⟨hbegan, hdone⟩ := h.committing other ((hmem (.committing other) (by simp)).1 hother')
    exact ⟨mem_cons_of_mem _ hbegan, (hsettled other).2 hdone⟩

/-- Where an attempt stands before a piece does not matter to where the piece leads. -/
theorem Moves.of_goTo (stage : Stage) (h : Moves g s s') : Moves g (s.goTo g stage) s' := by
  cases h with
  | continues h =>
    obtain ⟨s₁, stage', hworks, hstage', rfl⟩ := h.before
    refine .continues ⟨s₁.goTo g stage, stage', ?_, hstage', ?_⟩
    · refine ⟨hworks.generation, hworks.attempt, hworks.switching, hworks.facade, ?_, hworks.others,
        hworks.aborted, hworks.phase, hworks.hydrating, hworks.log⟩
      change update s₁.stages g stage = update s.stages g stage
      rw [hworks.stages]
    · simp [goTo]
  | ends h =>
    refine .ends ⟨h.generation, h.attempt, h.flags, h.facade, ?_, h.others, h.aborted, h.log⟩
    rw [h.stages]
    simp [goTo]

theorem Ownership.moves (h : Ownership s) (hrunning : (s.stages g).running)
    (hmoves : Moves g s s') : Ownership s' := by
  cases hmoves with
  | continues hcontinues => exact h.continues hrunning hcontinues
  | ends hends => exact h.ends hrunning hends

/-- An attempt that waits or has settled has no await to go on from. -/
theorem resume_of_not_running {reply : Reply} (h : (s.stages g).running = false) :
    resume participants s g reply = s := by
  unfold resume
  cases hstage : s.stages g with
  | waiting => rfl
  | settled => rfl
  | _ => exact absurd (hstage ▸ h) nofun

theorem ownership_step (h : Ownership s) (event : ActivationEvent) (hguarded : Guarded s event) :
    Ownership (step participants s event) := by
  cases event with
  | request request => exact h.enqueue request
  | cancelActivation coordinatorCancels => exact h.cancelActivation coordinatorCancels
  | coordinatorChanges active => exact { h with }
  | begin g =>
    rcases begin_cases participants h.newest hguarded with
      heq | ⟨hwaiting, hturn, hmoves⟩
    · change Ownership (begin participants s g)
      rw [heq]
      exact h
    · refine (h.begins hwaiting hturn).moves ?_ (hmoves.of_goTo .invoking)
      change (update s.stages g .invoking g).running
      rw [update_self]
      rfl
  | resume g reply =>
    change Ownership (resume participants s g reply)
    cases hrunning : (s.stages g).running with
    | false =>
      rw [resume_of_not_running hrunning]
      exact h
    | true =>
      cases resume_cases participants h.newest hguarded with
      | stays heq =>
        rw [heq]
        exact h
      | moves hmoves => exact h.moves hrunning hmoves
      | commits workspaceId howned hcommits =>
        refine h.commits hrunning ?_ hcommits
        rcases howned with haborted | hrevoked
        · intro hmem
          rw [(h.revoked g hmem).1] at haborted
          cases haborted
        · exact hrevoked

/-! ## Where the claim breaks -/

/-- When the latest attempt runs, no other one is left. -/
theorem Ownership.only_latest (h : Ownership s) (hattempt : s.attempt = some g)
    (hsettled : s.stages (g - 1) = .settled) (other : Nat) (hne : other ≠ g) :
    s.stages other = .settled := by
  have hnewest := h.newest g hattempt
  rcases Nat.lt_or_gt_of_ne hne with hlt | hgt
  · by_contra hnot
    rcases Nat.lt_or_ge other (g - 1) with hlt' | hge
    · rcases h.serial other (g - 1) hlt' hnot with hw | hbeyond
      · exact absurd (hsettled.symm.trans hw) nofun
      · omega
    · have heq : other = g - 1 := by omega
      exact hnot (heq ▸ hsettled)
  · exact h.unrequested other (by omega)

theorem Ownership.before_running (h : Ownership s) (hrunning : (s.stages g).running) :
    s.stages (g - 1) = .settled := by
  have hbegan := (h.began g).1 (h.running_began hrunning)
  rcases h.others hrunning (g - 1) (by omega) with hdone | ⟨hlt, -⟩
  · exact hdone
  · omega

/-- The promise of the latest attempt is rejected, and the attempt stays. -/
theorem not_owned_of_rejected (hothers : ∀ other, other ≠ g → s.stages other = .settled)
    (hattempt : s.attempt = some g) : ¬Owned (s.reject g) := by
  intro howned
  have hall : ∀ other, (s.reject g).stages other = .settled := by
    intro other
    by_cases heq : other = g
    · subst heq
      exact update_self ..
    · exact (update_of_ne heq ..).trans (hothers other heq)
  have hnone : s.attempt = none := (howned.idle hall).1
  rw [hattempt] at hnone
  cases hnone

theorem not_owned_of_revoked (hrevoked : .revoked g ∈ s.log)
    (hcommits : Commits g workspaceId s s') : ¬Owned s' := by
  intro howned
  obtain ⟨happened, deleted, hlog, -, -⟩ := hcommits.log
  have hallowed := lawful_iff.1 howned.lawful
    (.ended g :: happened ++ [.facadeReplaced g workspaceId]) (.committing g) (deleted ++ s.log)
    (by rw [hlog]; simp)
  exact hallowed.1 (mem_append_right _ hrevoked)

/-- The hand-over to an activation throws when the transition belongs to another workspace. -/
theorem performActivation_throws (participants : List String)
    (hrecovery : s.recoveryRequired = false)
    (haborted : (s.attempts g).aborted = false) (howner : s.OwnerChanged s.current) :
    ∃ s₁ : State, performActivation participants s g = s₁.reject g ∧ Works g s s₁ := by
  refine ⟨s.modifyAttempt g fun a => { a with previousWorkspaceId := s.current }, ?_,
    works_modifyAttempt g s (fun _ => rfl) fun _ h => h⟩
  have hnone : ensureRuntimeTransition
      (s.modifyAttempt g fun a => { a with previousWorkspaceId := s.current }) s.current = none :=
    ensureTransition_eq_none.2 howner
  unfold performActivation
  rw [if_neg (by simp [hrecovery]), if_neg (by simp [haborted])]
  dsimp only
  split
  · rfl
  · rename_i hsome
    exact absurd (hnone.symm.trans hsome) nofun

theorem not_owned_of_not_guarded (h : Ownership s) (event : ActivationEvent)
    (hnot : ¬Guarded s event) : ¬Owned (step participants s event) := by
  cases event with
  | request request => exact absurd trivial hnot
  | cancelActivation coordinatorCancels => exact absurd trivial hnot
  | coordinatorChanges active => exact absurd trivial hnot
  | begin g =>
    unfold Guarded at hnot
    dsimp only at hnot
    push Not at hnot
    obtain ⟨hwaiting, hturn, hrequest, hrecovery, haborted, howner⟩ := hnot
    obtain ⟨s₁, hthrows, hworks⟩ := performActivation_throws
      participants (s := s.record (.began g)) hrecovery haborted howner
    have hlatest : s.attempt = some g := by
      by_contra hne
      rw [h.superseded g (by rw [hwaiting]; exact nofun) hne] at haborted
      cases haborted
    change ¬Owned (begin participants s g)
    unfold begin
    rw [if_pos ⟨hwaiting, hturn⟩]
    dsimp only
    have hrequest' : (s.record (.began g)).requests g = .activate := hrequest
    rw [hrequest']
    dsimp only
    rw [hthrows]
    refine not_owned_of_rejected (fun other hne => ?_) (hworks.attempt.trans hlatest)
    rw [hworks.stages]
    exact h.only_latest hlatest hturn other hne
  | resume g reply =>
    change ¬Owned (resume participants s g reply)
    rcases resume_unguarded participants hnot with
      ⟨hrevoked, hcommits⟩ | ⟨hlatest, hrunning, heq⟩
    · exact not_owned_of_revoked hrevoked hcommits
    · rw [heq]
      exact not_owned_of_rejected (h.only_latest hlatest (h.before_running hrunning)) hlatest

/-- In a run the attempts own the workspace in turn, one that was revoked commits nothing and the
flags come to rest with the last attempt, just when no deletion completes natively for a revoked
attempt and no exception of the coordinator or of the hand-over ends the latest attempt. -/
theorem attempts_own_the_workspace_in_turn (participants : List String)
    (events : List ActivationEvent) :
    (∀ before, before <+: events → Owned (run (step participants) {} before)) ↔
      Along (step participants) Guarded {} events := by
  apply throughout_iff fun s event (h : Ownership s) hguarded => ownership_step h event hguarded
  · exact fun s h => h.owned
  · exact fun s event h hnot => not_owned_of_not_guarded h event hnot
  · exact ownership_start

/-- An attempt is not both revoked and at its commit point, in either order. -/
theorem not_revoked_of_committing {history : List Happening} (h : Lawful Allowed history)
    (hcommitting : .committing g ∈ history) : .revoked g ∉ history := by
  induction history with
  | nil => exact absurd hcommitting not_mem_nil
  | cons e past ih =>
    obtain ⟨hallowed, hpast⟩ := h
    rw [mem_cons, not_or]
    rcases mem_cons.1 hcommitting with heq | hmem
    · subst heq
      exact ⟨nofun, hallowed.1⟩
    · refine ⟨fun heq => ?_, ih hpast hmem⟩
      subst heq
      exact hallowed hmem

/-- The current workspace is deleted, and while its runtime goes down the user cancels: the answer
is true, the workspace is deleted all the same, and the facade is cleared. -/
theorem a_cancelled_deletion_commits :
    ¬Owned (run (step ["session-runtime"]) {}
      [.request .activate, .begin 1, .resume 1 (.saved none),
       .resume 1 (.activated (.outcome (.completed ⟨"workspace", 1, []⟩))),
       .resume 1 (.staged ⟨"workspace", 1, []⟩), .resume 1 (.done none), .resume 1 (.done none),
       .resume 1 (.done none), .request (.deleteCurrent "workspace"), .begin 2,
       .resume 2 (.done none), .resume 2 (.done none), .resume 2 (.saved none),
       .resume 2 (.flushed (.completed ())), .resume 2 (.done none), .cancelActivation false,
       .resume 2 (.done none), .resume 2 (.done none),
       .resume 2 (.deleted (.completed ()) none)]) := by
  intro howned
  have hcommitting := not_revoked_of_committing (g := 2) howned.lawful (by decide +kernel)
  revert hcommitting
  decide +kernel

end bbcom.workspace_activation
