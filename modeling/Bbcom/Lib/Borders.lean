-- How much of a pattern a text ends with, and what one more item of the text makes of it:
-- the reasoning behind the search that never goes back in its text.
import Mathlib

namespace bbcom.borders

open List Nat

variable {α : Type*} {pattern text : List α} {item : α} {k m : Nat}

/-- The text ends with the first `k` items of the pattern. -/
def Ends (pattern text : List α) (k : Nat) : Prop :=
  k ≤ pattern.length ∧ pattern.take k <:+ text

/-- The most of the pattern that the text ends with. -/
structure Longest (pattern text : List α) (m : Nat) : Prop where
  ends : Ends pattern text m
  max : ∀ k, Ends pattern text k → k ≤ m

/-- The longest border of the first `k` items: the most of the pattern that they end with,
not counting themselves. -/
def Border (pattern : List α) (k m : Nat) : Prop := Longest pattern (pattern.take k).tail m

theorem ends_zero : Ends pattern text 0 := ⟨zero_le _, by simp⟩

theorem Ends.length_le (h : Ends pattern text k) : k ≤ text.length := by
  have hl := h.2.length_le
  rwa [length_take_of_le h.1] at hl

/-- The shorter of two ends is an end of the longer. -/
theorem Ends.nested (hk : Ends pattern text k) (hm : Ends pattern text m) (h : k ≤ m) :
    pattern.take k <:+ pattern.take m := by
  apply suffix_of_suffix_length_le hk.2 hm.2
  rw [length_take_of_le hk.1, length_take_of_le hm.1]
  exact h

/-- A strictly shorter end is an end of the longer one without its first item. -/
theorem Ends.border (hk : Ends pattern text k) (hm : Ends pattern text m) (h : k < m) :
    Ends pattern (pattern.take m).tail k := by
  refine ⟨hk.1, ?_⟩
  apply suffix_of_suffix_length_le (hk.nested hm (le_of_lt h)) (tail_suffix _)
  rw [length_tail, length_take_of_le hk.1, length_take_of_le hm.1]
  exact le_sub_one_of_lt h

/-- What the text's end ends with, the text ends with. -/
theorem Ends.of_border (hm : Ends pattern text m) (hk : Ends pattern (pattern.take m).tail k) :
    Ends pattern text k :=
  ⟨hk.1, (hk.2.trans (tail_suffix _)).trans hm.2⟩

theorem Border.lt (h : Border pattern k m) (hk : 0 < k) : m < k := by
  have hl := h.ends.length_le
  rw [length_tail, length_take] at hl
  omega

/-- One more item lengthens the ends that it continues, and makes no others. -/
theorem ends_concat :
    Ends pattern (text ++ [item]) (k + 1) ↔ pattern[k]? = some item ∧ Ends pattern text k := by
  unfold Ends
  constructor
  · rintro ⟨hk, hends⟩
    have hlt : k < pattern.length := hk
    rw [take_succ_eq_append_getElem hlt] at hends
    obtain ⟨hsuffix, hitem⟩ := (suffix_append_inj_of_length_eq (by simp)).mp hends
    refine ⟨?_, le_of_lt hlt, hsuffix⟩
    rw [List.getElem?_eq_getElem hlt]
    simpa using hitem
  · rintro ⟨hitem, hk, hsuffix⟩
    obtain ⟨hlt, hget⟩ := List.getElem?_eq_some_iff.mp hitem
    refine ⟨hlt, ?_⟩
    rw [take_succ_eq_append_getElem hlt, hget]
    exact suffix_append_self_iff.mpr hsuffix

/-- Nothing longer than `m` that the text ends with is continued by the item. -/
def Bounds (pattern text : List α) (item : α) (m : Nat) : Prop :=
  ∀ k, Ends pattern text k → pattern[k]? = some item → k ≤ m

theorem Longest.bounds (h : Longest pattern text m) (item : α) : Bounds pattern text item m :=
  fun k hk _ => h.max k hk

/-- Where the item does not continue an end, its border is the next to try. -/
theorem Bounds.fall (hm : Ends pattern text m) (hbounds : Bounds pattern text item m)
    (hitem : pattern[m]? ≠ some item) {m' : Nat} (hborder : Border pattern m m') :
    Bounds pattern text item m' := by
  intro k hk hcontinued
  have hlt : k < m := by
    apply lt_of_le_of_ne (hbounds k hk hcontinued)
    rintro rfl
    exact hitem hcontinued
  exact hborder.max k (hk.border hm hlt)

/-- Where the item continues the longest candidate, that candidate grows by one. -/
theorem Ends.grown (hm : Ends pattern text m) (hbounds : Bounds pattern text item m)
    (hitem : pattern[m]? = some item) : Longest pattern (text ++ [item]) (m + 1) where
  ends := ends_concat.mpr ⟨hitem, hm⟩
  max k hk := by
    cases k with
    | zero => exact zero_le _
    | succ k =>
      obtain ⟨hcontinued, hends⟩ := ends_concat.mp hk
      exact succ_le_succ (hbounds k hends hcontinued)

/-- Where not even the empty end is continued, nothing is. -/
theorem Longest.none (hbounds : Bounds pattern text item 0)
    (hitem : pattern[0]? ≠ some item) : Longest pattern (text ++ [item]) 0 where
  ends := ends_zero
  max k hk := by
    cases k with
    | zero => exact le_refl _
    | succ k =>
      obtain ⟨hcontinued, hends⟩ := ends_concat.mp hk
      obtain rfl : k = 0 := le_zero.mp (hbounds k hends hcontinued)
      exact absurd hcontinued hitem

/-- The border of one item is empty. -/
theorem border_one : Border pattern 1 0 where
  ends := ends_zero
  max k hk := by
    have hl := hk.length_le
    rw [length_tail, length_take] at hl
    omega

/-- The empty text ends with nothing of the pattern. -/
theorem longest_nil : Longest pattern [] 0 where
  ends := ends_zero
  max k hk := by simpa using hk.length_le

/-- The items after the first that a border is taken of grow at their end. -/
theorem tail_take_succ (hk : 0 < k) (hitem : pattern[k]? = some item) :
    (pattern.take (k + 1)).tail = (pattern.take k).tail ++ [item] := by
  obtain ⟨hlt, hget⟩ := List.getElem?_eq_some_iff.mp hitem
  rw [take_succ_eq_append_getElem hlt, hget, tail_append_of_ne_nil]
  intro hnil
  have hl := congrArg List.length hnil
  rw [length_take_of_le (le_of_lt hlt)] at hl
  exact absurd hl (ne_of_gt hk)

/-- The whole pattern stands somewhere in the text where some part of the text that begins it
ends with the whole pattern. -/
theorem infix_iff_ends :
    pattern <:+: text ↔ ∃ begun, begun <+: text ∧ Ends pattern begun pattern.length := by
  rw [ infix_iff_suffix_prefix]
  constructor
  · rintro ⟨begun, hsuffix, hprefix⟩
    exact ⟨begun, hprefix, le_refl _, by rwa [take_length]⟩
  · rintro ⟨begun, hprefix, -, hsuffix⟩
    rw [take_length] at hsuffix
    exact ⟨begun, hsuffix, hprefix⟩

/-! ## A text that comes in parts -/

/-- The last `count` items, or all where there are fewer. -/
def lastItems (count : Nat) (items : List α) : List α := items.drop (items.length - count)

theorem lastItems_suffix (count : Nat) (items : List α) : lastItems count items <:+ items :=
  drop_suffix _ _

@[simp] theorem length_lastItems (count : Nat) (items : List α) :
    (lastItems count items).length = min count items.length := by
  simp only [lastItems, length_drop]
  omega

/-- Who keeps the last items of a text has the last items of whatever it grows to. -/
theorem lastItems_append (count : Nat) (read more : List α) :
    lastItems count (lastItems count read ++ more) = lastItems count (read ++ more) := by
  have hkept : lastItems count read ++ more <:+ read ++ more :=
    suffix_append_self_iff.mpr (lastItems_suffix count read)
  have hlength : (lastItems count (lastItems count read ++ more)).length =
      (lastItems count (read ++ more)).length := by
    simp only [length_lastItems, length_append]
    omega
  apply List.IsSuffix.eq_of_length _ hlength
  apply suffix_of_suffix_length_le ((lastItems_suffix _ _).trans hkept) (lastItems_suffix _ _)
  exact le_of_eq hlength

/-- A pattern that the text read so far lacks is found in the text with more behind it exactly
where it is found in the few last items with more behind them. -/
theorem infix_append_iff_last {read more : List α} (hpattern : pattern ≠ [])
    (hread : ¬ pattern <:+: read) :
    pattern <:+: read ++ more ↔ pattern <:+: lastItems (pattern.length - 1) read ++ more := by
  constructor
  · intro h
    rw [infix_append_iff_ne_nil] at h
    rcases h with h | h | ⟨l₁, l₂, -, hl₂, rfl, hsuffix, hprefix⟩
    · exact absurd h hread
    · exact infix_append_of_infix_right h
    · rw [infix_append_iff]
      refine .inr (.inr ⟨l₁, l₂, rfl, ?_, hprefix⟩)
      apply suffix_of_suffix_length_le hsuffix (lastItems_suffix _ _)
      have hlength := hsuffix.length_le
      have hpos := length_pos_of_ne_nil hl₂
      simp only [length_lastItems, length_append]
      omega
  · intro h
    obtain ⟨left, hleft⟩ := lastItems_suffix (pattern.length - 1) read
    rw [← hleft, append_assoc]
    exact infix_append_of_infix_right h

end bbcom.borders
