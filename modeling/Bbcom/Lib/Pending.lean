-- Tasks that are begun and end later, and the map that leads from a key to its unfinished task:
-- a key has one such task at most, as long as a task begins only where the map has none.
import Bbcom.Lib.OrderedMap

open bbcom.ordered_map bbcom.ordered_map.OrderedMap

namespace bbcom.pending_tasks

open List

variable {ρ κ : Type} [DecidableEq κ]

/-- `pending` holds the unfinished tasks, one for a key. A task is numbered by its place. -/
structure Linked (id : ρ → Nat) (key : ρ → κ) (Unfinished : ρ → Prop) (tasks : List ρ)
    (pending : OrderedMap κ Nat) : Prop where
  ids : (tasks.map id).Nodup
  below : ∀ task ∈ tasks, id task < tasks.length
  sound : ∀ k number, pending.get k = some number →
    ∃ task ∈ tasks, id task = number ∧ key task = k ∧ Unfinished task
  complete : ∀ task ∈ tasks, Unfinished task → pending.get (key task) = some (id task)

variable {id : ρ → Nat} {key : ρ → κ} {Unfinished : ρ → Prop} {tasks : List ρ}
  {pending : OrderedMap κ Nat}

namespace Linked

theorem start : Linked id key Unfinished ([] : List ρ) ([] : OrderedMap κ Nat) := by
  refine ⟨by simp, ?_, ?_, ?_⟩
  · simp
  · simp
  · simp

section

variable (h : Linked id key Unfinished tasks pending)
include h

theorem eq {first second : ρ} (hfirst : first ∈ tasks) (hsecond : second ∈ tasks)
    (hid : id first = id second) : first = second :=
  inj_on_of_nodup_map h.ids hfirst hsecond hid

/-- A key has one unfinished task. -/
theorem one {first second : ρ} (hfirst : first ∈ tasks) (hsecond : second ∈ tasks)
    (hun : Unfinished first) (hun' : Unfinished second) (hkey : key first = key second) :
    first = second := by
  have hpending := h.complete first hfirst hun
  rw [hkey, h.complete second hsecond hun'] at hpending
  exact h.eq hfirst hsecond (Option.some.inj hpending).symm

/-- What holds of the others as they are, and of one task changed, holds of all. -/
theorem forall_modify {task : ρ} (hmem : task ∈ tasks) {f : ρ → ρ} {P : ρ → ρ → Prop}
    (hothers : ∀ other ∈ tasks, id other ≠ id task → P other other) (hone : P task (f task)) :
    ∀ other ∈ tasks, P other (if id other = id task then f other else other) := by
  intro other hother
  by_cases hid : id other = id task
  · obtain rfl := h.eq hother hmem hid
    simpa using hone
  · simpa [hid] using hothers other hother hid

end

/-- Tasks that go on. -/
theorem map (h : Linked id key Unfinished tasks pending) {g : ρ → ρ}
    (hid : ∀ task ∈ tasks, id (g task) = id task) (hkey : ∀ task ∈ tasks, key (g task) = key task)
    (hun : ∀ task ∈ tasks, Unfinished (g task) ↔ Unfinished task) :
    Linked id key Unfinished (tasks.map g) pending := by
  have hids : (tasks.map g).map id = tasks.map id := by
    rw [map_map]
    exact map_congr_left hid
  refine ⟨hids ▸ h.ids, ?_, ?_, ?_⟩
  · intro _ hmap
    obtain ⟨task, hmem, rfl⟩ := mem_map.1 hmap
    rw [hid task hmem, length_map]
    exact h.below task hmem
  · intro k number hget
    obtain ⟨task, hmem, hnumber, hk, hunfinished⟩ := h.sound k number hget
    exact ⟨g task, mem_map_of_mem hmem, (hid task hmem).trans hnumber,
      (hkey task hmem).trans hk, (hun task hmem).2 hunfinished⟩
  · intro _ hmap hunfinished
    obtain ⟨task, hmem, rfl⟩ := mem_map.1 hmap
    rw [hid task hmem, hkey task hmem]
    exact h.complete task hmem ((hun task hmem).1 hunfinished)

/-- A task begins for a key that has none. -/
theorem begun (h : Linked id key Unfinished tasks pending) {task : ρ} (hid : id task = tasks.length)
    (hun : Unfinished task) (hnone : pending.get (key task) = none) :
    Linked id key Unfinished (tasks ++ [task]) (pending.set (key task) tasks.length) := by
  have hnew : ∀ other ∈ tasks, Unfinished other → key other ≠ key task := by
    intro other hmem hunfinished hkey
    rw [← hkey, h.complete other hmem hunfinished] at hnone
    cases hnone
  refine ⟨?_, ?_, ?_, ?_⟩
  · rw [map_append, map_singleton, nodup_append]
    refine ⟨h.ids, by simp, ?_⟩
    intro number hnumber other hother
    obtain ⟨old, hmem, rfl⟩ := mem_map.1 hnumber
    rw [mem_singleton.1 hother, hid]
    exact (h.below old hmem).ne
  · intro other hother
    rw [length_append]
    rcases mem_append.1 hother with hold | hbegun
    · exact Nat.lt_add_right _ (h.below other hold)
    · rw [mem_singleton.1 hbegun, hid]
      simp
  · intro k number hget
    by_cases hk : k = key task
    · subst hk
      rw [get_set_self] at hget
      exact ⟨task, mem_append_right _ (mem_singleton_self _),
        hid.trans (Option.some.inj hget), rfl, hun⟩
    · rw [get_set_of_ne _ _ hk] at hget
      obtain ⟨old, hmem, hrest⟩ := h.sound k number hget
      exact ⟨old, mem_append_left _ hmem, hrest⟩
  · intro other hother hunfinished
    rcases mem_append.1 hother with hold | hbegun
    · rw [get_set_of_ne _ _ (hnew other hold hunfinished)]
      exact h.complete other hold hunfinished
    · rw [mem_singleton.1 hbegun, get_set_self, hid]

/-- A task ends, and the map gives it up. -/
theorem ended (h : Linked id key Unfinished tasks pending) {task : ρ} (hmem : task ∈ tasks)
    (hun : Unfinished task) {f : ρ → ρ} (hid : id (f task) = id task)
    (hdone : ¬Unfinished (f task)) :
    Linked id key Unfinished (modifyKey id (id task) f tasks) (pending.delete (key task)) := by
  have hothers : ∀ other ∈ tasks, Unfinished (if id other = id task then f other else other) →
      id other ≠ id task ∧ key other ≠ key task := by
    intro other hother hnow
    have hne : id other ≠ id task := fun hsame => by
      obtain rfl := h.eq hother hmem hsame
      rw [if_pos rfl] at hnow
      exact hdone hnow
    rw [if_neg hne] at hnow
    exact ⟨hne, fun hkey => hne (congrArg id (h.one hother hmem hnow hun hkey))⟩
  have hids : ∀ other ∈ tasks, id (if id other = id task then f other else other) = id other :=
    h.forall_modify hmem (P := fun before after => id after = id before) (fun _ _ _ => rfl) hid
  refine ⟨?_, ?_, ?_, ?_⟩
  · have hsame : (modifyKey id (id task) f tasks).map id = tasks.map id := by
      unfold modifyKey
      rw [map_map]
      exact map_congr_left hids
    exact hsame ▸ h.ids
  · intro _ hmap
    obtain ⟨other, hother, rfl⟩ := mem_map.1 hmap
    change id (if id other = id task then f other else other) < (tasks.map _).length
    rw [hids other hother, length_map]
    exact h.below other hother
  · intro k number hget
    have hne : k ≠ key task := by
      rintro rfl
      rw [get_delete_self] at hget
      cases hget
    rw [get_delete_of_ne _ hne] at hget
    obtain ⟨other, hother, hnumber, hk, hunfinished⟩ := h.sound k number hget
    refine ⟨other, mem_map.2 ⟨other, hother, if_neg fun hsame => ?_⟩, hnumber, hk, hunfinished⟩
    rw [h.eq hother hmem hsame] at hk
    exact hne hk.symm
  · intro _ hmap hunfinished
    obtain ⟨other, hother, rfl⟩ := mem_map.1 hmap
    obtain ⟨hne, hkey⟩ := hothers other hother hunfinished
    rw [if_neg hne] at hunfinished ⊢
    rw [get_delete_of_ne _ hkey]
    exact h.complete other hother hunfinished

end Linked

end bbcom.pending_tasks
