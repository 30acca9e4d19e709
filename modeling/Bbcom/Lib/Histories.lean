-- Histories, the last entry first: a law that each entry meets against the entries before it.
import Mathlib.Data.List.Basic

namespace bbcom.histories

variable {ε : Type*}

/-- Each entry of a history is allowed after those before it. -/
def Lawful (Allowed : List ε → ε → Prop) : List ε → Prop
  | [] => True
  | e :: past => Allowed past e ∧ Lawful Allowed past

@[simp] theorem lawful_nil (Allowed : List ε → ε → Prop) : Lawful Allowed [] := trivial

variable {Allowed : List ε → ε → Prop}

@[simp] theorem lawful_cons {e : ε} {past : List ε} :
    Lawful Allowed (e :: past) ↔ Allowed past e ∧ Lawful Allowed past := .rfl

instance decidableLawful {Allowed : List ε → ε → Prop}
    [h : ∀ past e, Decidable (Allowed past e)] : ∀ history, Decidable (Lawful Allowed history)
  | [] => .isTrue trivial
  | e :: past => @instDecidableAnd _ _ (h past e) (decidableLawful past)

/-- The law holds at each place of a history. -/
theorem lawful_iff {history : List ε} :
    Lawful Allowed history ↔ ∀ later e past, history = later ++ e :: past → Allowed past e := by
  induction history with
  | nil => simp
  | cons e history ih =>
    rw [lawful_cons, ih]
    constructor
    · rintro ⟨hnow, hbefore⟩ later e' past hsplit
      cases later with
      | nil =>
        cases hsplit
        exact hnow
      | cons first later =>
        cases hsplit
        exact hbefore later e' past rfl
    · intro hall
      exact ⟨hall [] e history rfl, fun later e' past hsplit =>
        hall (e :: later) e' past (congrArg (e :: ·) hsplit)⟩

end bbcom.histories
