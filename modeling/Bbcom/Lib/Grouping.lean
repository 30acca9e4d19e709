-- Grouping by extending the last group: a pass over a list that either grows the
-- group that it built last or opens a new one.
import Mathlib

namespace bbcom.grouping

open List

variable {α β γ : Type*}

/-! ## The pass -/

/-- The part of a grouping that changes from one pass to another: the group that one item
opens, and the last group with one more item where that group can take it. -/
structure Grouper (α β : Type*) where
  start : α → β
  extend : β → α → Option β

namespace Grouper

variable (g : Grouper α β)

def addItem (groups : List β) (item : α) : List β :=
  match groups.getLast? with
  | none => [g.start item]
  | some last =>
    match g.extend last item with
    | none => groups ++ [g.start item]
    | some grown => groups.dropLast ++ [grown]

def group (items : List α) : List β := items.foldl g.addItem []

/-! ## One item -/

/-- What one item does: it opens a group, or the last group takes it. -/
theorem addItem_cases (groups : List β) (item : α) :
    g.addItem groups item = groups ++ [g.start item] ∨
      ∃ earlier last grown, groups = earlier ++ [last] ∧ g.extend last item = some grown ∧
        g.addItem groups item = earlier ++ [grown] := by
  rcases eq_nil_or_concat groups with rfl | ⟨earlier, last, rfl⟩
  · exact .inl rfl
  · cases h : g.extend last item with
    | none => exact .inl (by simp [addItem, h])
    | some grown => exact .inr ⟨earlier, last, grown, by simp, h, by simp [addItem, h]⟩

theorem group_snoc (items : List α) (item : α) :
    g.group (items ++ [item]) = g.addItem (g.group items) item := by
  simp [group]

/-! ## The laws of a whole pass -/

/-- What holds of a fresh group and survives one more item holds of each group. The items
count that satisfy `ok`. -/
theorem group_forall (ok : α → Prop) {P : β → Prop} (hstart : ∀ item, ok item → P (g.start item))
    (hextend : ∀ last item grown, ok item → P last → g.extend last item = some grown → P grown)
    (items : List α) (hok : ∀ item ∈ items, ok item) : ∀ b ∈ g.group items, P b := by
  induction items using reverseRecOn with
  | nil =>
    intro b hb
    cases hb
  | append_singleton items item ih =>
    have ih := ih fun x hx => hok x (mem_append_left _ hx)
    have hitem : ok item := hok item (by simp)
    intro b hb
    rw [group_snoc] at hb
    rcases g.addItem_cases (g.group items) item with h | ⟨earlier, last, grown, hg, hext, h⟩
    · rw [h] at hb
      rcases mem_append.mp hb with hb | hb
      · exact ih b hb
      · rw [mem_singleton.mp hb]
        exact hstart item hitem
    · rw [h] at hb
      rw [hg] at ih
      rcases mem_append.mp hb with hb | hb
      · exact ih b (mem_append_left _ hb)
      · rw [mem_singleton.mp hb]
        exact hextend last item grown hitem (ih last (by simp)) hext

/-- No item is lost, doubled or moved. -/
theorem flatMap_group (content : β → List γ) (single : α → List γ)
    (hstart : ∀ item, content (g.start item) = single item)
    (hextend : ∀ last item grown, g.extend last item = some grown →
      content grown = content last ++ single item)
    (items : List α) : (g.group items).flatMap content = items.flatMap single := by
  induction items using reverseRecOn with
  | nil => rfl
  | append_singleton items item ih =>
    rw [group_snoc]
    rcases g.addItem_cases (g.group items) item with h | ⟨earlier, last, grown, hg, hext, h⟩
    · rw [h, flatMap_append, flatMap_append, ih]
      simp [hstart]
    · rw [hg] at ih
      rw [h, flatMap_append, flatMap_append, ← ih]
      simp [hextend last item grown hext]

end Grouper

end bbcom.grouping
