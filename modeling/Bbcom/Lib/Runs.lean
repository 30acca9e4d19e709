-- Runs of a machine that takes one event after the other: what one step keeps, every run
-- keeps.
import Mathlib

namespace bbcom.runs

open List

variable {σ ε : Type*}

/-- The state after a list of events. -/
def run (step : σ → ε → σ) (s : σ) (events : List ε) : σ := events.foldl step s

@[simp] theorem run_nil (step : σ → ε → σ) (s : σ) : run step s [] = s := rfl

@[simp] theorem run_cons (step : σ → ε → σ) (s : σ) (e : ε) (events : List ε) :
    run step s (e :: events) = run step (step s e) events := rfl

theorem run_append (step : σ → ε → σ) (s : σ) (before after : List ε) :
    run step s (before ++ after) = run step (run step s before) after :=
  foldl_append

variable {step : σ → ε → σ} {Inv : σ → Prop} {events : List ε} {s : σ}

/-- What each of the events keeps, the run keeps. -/
theorem run_invariant_of_mem (hstep : ∀ s, ∀ e ∈ events, Inv s → Inv (step s e)) (h : Inv s) :
    Inv (run step s events) := by
  induction events generalizing s with
  | nil => exact h
  | cons e events ih =>
    have hnext : Inv (step s e) := hstep s e mem_cons_self h
    exact ih (fun s' e' he' => hstep s' e' (mem_cons_of_mem _ he')) hnext

/-- An invariant of one step is an invariant of a run. -/
theorem run_invariant (hstep : ∀ s e, Inv s → Inv (step s e)) (h : Inv s) (events : List ε) :
    Inv (run step s events) :=
  run_invariant_of_mem (fun s e _ => hstep s e) h

/-- A condition on each event of a run and the state that it comes in. -/
def Along (step : σ → ε → σ) (P : σ → ε → Prop) : σ → List ε → Prop
  | _, [] => True
  | s, e :: events => P s e ∧ Along step P (step s e) events

instance decidableAlong {step : σ → ε → σ} {P : σ → ε → Prop} [h : ∀ s e, Decidable (P s e)] :
    ∀ s events, Decidable (Along step P s events)
  | _, [] => .isTrue trivial
  | s, e :: events => @instDecidableAnd _ _ (h s e) (decidableAlong (step s e) events)

variable {P : σ → ε → Prop}

/-- What a step keeps under a condition, a run keeps whose steps all meet it. -/
theorem run_invariant_along (hstep : ∀ s e, P s e → Inv s → Inv (step s e)) (h : Inv s)
    (halong : Along step P s events) : Inv (run step s events) := by
  induction events generalizing s with
  | nil => exact h
  | cons e events ih => exact ih (hstep s e halong.1 h) halong.2

/-- A condition along a run is one at each place of it. -/
theorem along_iff_split :
    Along step P s events ↔
      ∀ before e after, before ++ e :: after = events → P (run step s before) e := by
  induction events generalizing s with
  | nil =>
    refine iff_of_true trivial fun before e after hsplit => ?_
    exact absurd hsplit (by simp)
  | cons e events ih =>
    constructor
    · rintro ⟨hfirst, hrest⟩ before e' after hsplit
      cases before with
      | nil =>
        cases hsplit
        exact hfirst
      | cons first before =>
        cases hsplit
        exact (ih.1 hrest) before e' after rfl
    · intro hall
      refine ⟨hall [] e events rfl, ih.2 fun before e' after hsplit => ?_⟩
      exact hall (e :: before) e' after (congrArg (e :: ·) hsplit)

/-- Along a run that keeps an invariant, a condition gives what it implies under the
invariant. -/
theorem Along.imp {Q : σ → ε → Prop} (hstep : ∀ s e, Inv s → Inv (step s e))
    (himp : ∀ s e, Inv s → P s e → Q s e) (h : Inv s) (halong : Along step P s events) :
    Along step Q s events := by
  induction events generalizing s with
  | nil => trivial
  | cons e events ih => exact ⟨himp s e h halong.1, ih (hstep s e h) halong.2⟩

/-- A weight that each event of a run lowers bounds the run. -/
theorem Along.length_le {weight : σ → Nat} (hstep : ∀ s e, Inv s → Inv (step s e))
    (hlower : ∀ s e, Inv s → P s e → weight (step s e) < weight s) (h : Inv s)
    (halong : Along step P s events) : events.length ≤ weight s := by
  induction events generalizing s with
  | nil => exact Nat.zero_le _
  | cons e events ih =>
    have hrest : events.length ≤ weight (step s e) := ih (hstep s e h) halong.2
    have hlt := hlower s e h halong.1
    simp only [length_cons]
    omega

/-- Two conditions along a run are one. -/
theorem Along.and {Q : σ → ε → Prop} (hp : Along step P s events) (hq : Along step Q s events) :
    Along step (fun s e => P s e ∧ Q s e) s events := by
  induction events generalizing s with
  | nil => trivial
  | cons e events ih => exact ⟨⟨hp.1, hq.1⟩, ih hp.2 hq.2⟩

/-- A property of states holds throughout a run just when each step meets a condition, if the
condition keeps an invariant that gives the property, and a step without it breaks the property. -/
theorem throughout_iff {Q : σ → Prop} (hkeep : ∀ s e, Inv s → P s e → Inv (step s e))
    (hgood : ∀ s, Inv s → Q s) (hbad : ∀ s e, Inv s → ¬P s e → ¬Q (step s e)) (h : Inv s)
    (events : List ε) :
    (∀ before, before <+: events → Q (run step s before)) ↔ Along step P s events := by
  induction events generalizing s with
  | nil =>
    refine ⟨fun _ => trivial, fun _ before hbefore => ?_⟩
    rw [prefix_nil.1 hbefore]
    exact hgood s h
  | cons e events ih =>
    constructor
    · intro hall
      have hmet : P s e := by
        by_contra hnot
        exact hbad s e h hnot (hall [e] (cons_prefix_cons.2 ⟨rfl, nil_prefix⟩))
      refine ⟨hmet, (ih (hkeep s e h hmet)).1 fun before hbefore => ?_⟩
      exact hall (e :: before) (cons_prefix_cons.2 ⟨rfl, hbefore⟩)
    · intro halong before hbefore
      cases before with
      | nil => exact hgood s h
      | cons e' before =>
        obtain ⟨rfl, hrest⟩ := cons_prefix_cons.1 hbefore
        exact (ih (hkeep s e' h halong.1)).2 halong.2 before hrest

end bbcom.runs
