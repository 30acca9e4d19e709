-- The subarray search of the protocol parser, against the plain meaning: the
-- least index at which the needle stands in the haystack.
import Mathlib

namespace bbcom.byte_search

open List

variable {α : Type}

/-! ## The plain meaning -/

/-- `needle` stands in `haystack` at index `i`. -/
def OccursAt (needle haystack : List α) (i : Nat) : Prop := needle <+: haystack.drop i

instance [DecidableEq α] (needle haystack : List α) (i : Nat) :
    Decidable (OccursAt needle haystack i) :=
  inferInstanceAs (Decidable (needle <+: haystack.drop i))

/-- The least index at or after `start` at which the needle stands. -/
def firstOccurrence [DecidableEq α] (needle haystack : List α) (start : Nat) : Option Nat :=
  (range' start (haystack.length + 1 - start)).find? (fun i => OccursAt needle haystack i)

variable {haystack needle : List α} {i : Nat}

theorem OccursAt.fits (h : OccursAt needle haystack i) (hn : needle ≠ []) :
    i + needle.length ≤ haystack.length := by
  have hl := h.length_le
  have hp := length_pos_of_ne_nil hn
  simp only [length_drop] at hl
  omega

/-- More items behind a haystack neither make nor break an occurrence inside it. -/
theorem occursAt_append (more : List α) (hi : i + needle.length ≤ haystack.length) :
    OccursAt needle (haystack ++ more) i ↔ OccursAt needle haystack i := by
  unfold OccursAt
  rw [drop_append_of_le_length (by omega)]
  constructor
  · intro h
    exact prefix_of_prefix_length_le h (prefix_append _ _) (by simp; omega)
  · intro h
    exact h.trans (prefix_append _ _)

theorem occursAt_drop {k : Nat} :
    OccursAt needle (haystack.drop k) i ↔ OccursAt needle haystack (k + i) := by
  unfold OccursAt
  rw [drop_drop]

theorem occursAt_iff_getElem :
    OccursAt needle haystack i ↔ ∀ j < needle.length, haystack[i + j]? = needle[j]? := by
  unfold OccursAt
  rw [prefix_iff_getElem?]
  constructor
  · intro h j hj
    have := h j hj
    rw [getElem?_drop] at this
    rw [this, getElem?_eq_getElem hj]
  · intro h j hj
    rw [getElem?_drop, h j hj, getElem?_eq_getElem hj]

variable [DecidableEq α]

variable {start : Nat}

theorem firstOccurrence_some (hn : needle ≠ []) :
    firstOccurrence needle haystack start = some i ↔ start ≤ i ∧ OccursAt needle haystack i ∧
        ∀ j, start ≤ j → j < i → ¬ OccursAt needle haystack j := by
  unfold firstOccurrence
  rw [find?_range'_eq_some]
  constructor
  · rintro ⟨h1, h2, h3⟩
    rw [mem_range'_1] at h2
    exact ⟨h2.1, by simpa using h1, fun j hj hji => by simpa using h3 j hj hji⟩
  · rintro ⟨h1, h2, h3⟩
    have hf := h2.fits hn
    exact ⟨by simpa using h2, by rw [mem_range'_1]; omega,
      fun j hj hji => by simpa using h3 j hj hji⟩

theorem firstOccurrence_none (hn : needle ≠ []) :
    firstOccurrence needle haystack start = none ↔
      ∀ j, start ≤ j → ¬ OccursAt needle haystack j := by
  unfold firstOccurrence
  rw [find?_range'_eq_none]
  constructor
  · intro h j hj ho
    have hf := ho.fits hn
    have := h j hj (by omega)
    simp [ho] at this
  · intro h j hj _
    simpa using h j hj

/-! ## The search of the code -/

/-- One turn of the outer loop: the first and the last item, then the items between. -/
def matchesAt (haystack needle : List α) (i : Nat) : Bool :=
  if haystack[i]? ≠ needle.head? ∨ haystack[i + needle.length - 1]? ≠ needle.getLast? then false
  else (range' 1 (needle.length - 2)).all (fun j => haystack[i + j]? = needle[j]?)

def indexOfArrayLikeLoop (haystack needle : List α) (last i : Nat) : Option Nat :=
  if i ≤ last then
    if matchesAt haystack needle i then some i
    else indexOfArrayLikeLoop haystack needle last (i + 1)
  else none
termination_by last + 1 - i

/-- `indexOfArrayLike`, where `none` stands for -1. -/
def indexOfArrayLike (haystack needle : List α) (start : Nat) : Option Nat :=
  if needle.length = 0 then some 0
  else if needle.length > haystack.length then none
  else indexOfArrayLikeLoop haystack needle (haystack.length - needle.length) start

theorem matchesAt_iff (hn : needle ≠ []) :
    matchesAt haystack needle i = true ↔ OccursAt needle haystack i := by
  have hp := length_pos_of_ne_nil hn
  have hlast : haystack[i + needle.length - 1]? = haystack[i + (needle.length - 1)]? := by
    congr 1
    omega
  rw [occursAt_iff_getElem]
  unfold matchesAt
  rw [head?_eq_getElem?, getLast?_eq_getElem?, hlast]
  split
  · rename_i hne
    simp only [Bool.false_eq_true, false_iff, not_forall]
    rcases hne with hne | hne
    · exact ⟨0, hp, by simpa using hne⟩
    · exact ⟨needle.length - 1, by omega, hne⟩
  · rename_i heq
    simp only [ne_eq, not_or, not_not] at heq
    simp only [all_eq_true, mem_range'_1, decide_eq_true_eq]
    constructor
    · intro h j hj
      by_cases h0 : j = 0
      · subst h0; simpa using heq.1
      · by_cases hl : j = needle.length - 1
        · subst hl; exact heq.2
        · exact h j (by omega)
    · intro h j hj
      exact h j (by omega)

theorem indexOfArrayLikeLoop_eq (hn : needle ≠ []) (hl : needle.length ≤ haystack.length)
    (i : Nat) :
    indexOfArrayLikeLoop haystack needle (haystack.length - needle.length) i =
      firstOccurrence needle haystack i := by
  rw [indexOfArrayLikeLoop]
  split
  · rename_i hi
    split
    · rename_i hm
      symm
      rw [firstOccurrence_some hn]
      exact ⟨Nat.le_refl i, (matchesAt_iff hn).mp hm, fun j h1 h2 => absurd h1 (by omega)⟩
    · rename_i hm
      rw [indexOfArrayLikeLoop_eq hn hl (i + 1)]
      have hno : ¬ OccursAt needle haystack i := fun ho => hm ((matchesAt_iff hn).mpr ho)
      rcases hf : firstOccurrence needle haystack (i + 1) with _ | k
      · symm
        rw [firstOccurrence_none hn] at hf ⊢
        intro j hj
        rcases Nat.eq_or_lt_of_le hj with rfl | hj
        · exact hno
        · exact hf j hj
      · symm
        rw [firstOccurrence_some hn] at hf ⊢
        obtain ⟨h1, h2, h3⟩ := hf
        refine ⟨by omega, h2, fun j hj hjk => ?_⟩
        rcases Nat.eq_or_lt_of_le hj with rfl | hj
        · exact hno
        · exact h3 j hj hjk
  · rename_i hi
    symm
    rw [firstOccurrence_none hn]
    intro j hj ho
    have := ho.fits hn
    omega
termination_by haystack.length - needle.length + 1 - i

/-- The search gives the least index at or after `start` at which a needle with an item
stands. -/
theorem indexOfArrayLike_eq (hn : needle ≠ []) (start : Nat) :
    indexOfArrayLike haystack needle start = firstOccurrence needle haystack start := by
  have hp := length_pos_of_ne_nil hn
  unfold indexOfArrayLike
  rw [if_neg (by omega)]
  split
  · symm
    rw [firstOccurrence_none hn]
    intro j _ ho
    have := ho.fits hn
    omega
  · exact indexOfArrayLikeLoop_eq hn (by omega) start

/-- Items that an earlier search ruled out need no second look. -/
theorem firstOccurrence_resume (hn : needle ≠ []) (h : ∀ j < start, ¬ OccursAt needle haystack j) :
    firstOccurrence needle haystack start = firstOccurrence needle haystack 0 := by
  rcases hf : firstOccurrence needle haystack 0 with _ | k
  · rw [firstOccurrence_none hn] at hf ⊢
    exact fun j _ => hf j (Nat.zero_le j)
  · rw [firstOccurrence_some hn] at hf ⊢
    obtain ⟨_, h2, h3⟩ := hf
    refine ⟨?_, h2, fun j _ hjk => h3 j (Nat.zero_le j) hjk⟩
    by_contra hk
    exact h k (by omega) h2

/-! ## A start that may lie before the haystack -/

/-- `indexOfArrayLike` from any `from`: the loop begins at `Math.max(0, from)`. -/
def indexOfArrayLikeFrom (haystack needle : List α) (start : Int) : Option Nat :=
  indexOfArrayLike haystack needle start.toNat

theorem indexOfArrayLikeFrom_some {start : Int} (hn : needle ≠ []) :
    indexOfArrayLikeFrom haystack needle start = some i ↔
      IsLeast {j : Nat | start ≤ j ∧ OccursAt needle haystack j} i := by
  unfold indexOfArrayLikeFrom
  rw [indexOfArrayLike_eq hn, firstOccurrence_some hn]
  constructor
  · rintro ⟨hstart, hoccurs, hleast⟩
    refine ⟨⟨by omega, hoccurs⟩, ?_⟩
    rintro j ⟨hj, hoccurs'⟩
    by_contra hlt
    exact hleast j (by omega) (by omega) hoccurs'
  · rintro ⟨⟨hstart, hoccurs⟩, hleast⟩
    refine ⟨by omega, hoccurs, ?_⟩
    intro j hj hlt hoccurs'
    have hle : i ≤ j := hleast ⟨by omega, hoccurs'⟩
    omega

theorem indexOfArrayLikeFrom_none {start : Int} (hn : needle ≠ []) :
    indexOfArrayLikeFrom haystack needle start = none ↔
      ∀ j : Nat, start ≤ j → ¬ OccursAt needle haystack j := by
  unfold indexOfArrayLikeFrom
  rw [indexOfArrayLike_eq hn, firstOccurrence_none hn]
  constructor
  · intro h j hj
    exact h j (by omega)
  · intro h j hj
    exact h j (by omega)

/-- A needle without items is answered before the start is looked at. -/
@[simp] theorem indexOfArrayLikeFrom_nil (haystack : List α) (start : Int) :
    indexOfArrayLikeFrom haystack [] start = some 0 := rfl

end bbcom.byte_search
