-- Maps that keep the order in which their keys came in, and lists of records with a key: what
-- an update of one entry does to the entry, to the others, and to a sum over all.
import Mathlib

namespace bbcom.ordered_map

open List Option

/-! ## Maps -/

variable {κ α : Type} [DecidableEq κ]

/-- The entries, the oldest key first. -/
abbrev OrderedMap (κ α : Type) := List (κ × α)

namespace OrderedMap

def get (m : OrderedMap κ α) (key : κ) : Option α := (m.find? (·.1 = key)).map Prod.snd

/-- A key that is there keeps its place. -/
def set : OrderedMap κ α → κ → α → OrderedMap κ α
  | [], key, value => [(key, value)]
  | entry :: rest, key, value =>
    if entry.1 = key then (key, value) :: rest else entry :: set rest key value

def delete (m : OrderedMap κ α) (key : κ) : OrderedMap κ α := m.filter (·.1 ≠ key)

@[simp] theorem get_nil (key : κ) : get ([] : OrderedMap κ α) key = none := rfl

theorem get_cons (entry : κ × α) (m : OrderedMap κ α) (key : κ) :
    get (entry :: m) key = if entry.1 = key then some entry.2 else get m key := by
  by_cases h : entry.1 = key
  · simp [get, h]
  · simp [get, h]

@[simp] theorem get_set_self (m : OrderedMap κ α) (key : κ) (value : α) :
    get (set m key value) key = some value := by
  induction m with
  | nil => simp [set, get_cons]
  | cons entry m ih =>
    by_cases h : entry.1 = key
    · simp [set, h, get_cons]
    · simp [set, h, get_cons, ih]

variable {key : κ} {m : OrderedMap κ α}

variable {other : κ}

theorem get_set_of_ne (m : OrderedMap κ α) (value : α) (h : other ≠ key) :
    get (set m key value) other = get m other := by
  induction m with
  | nil => simp [set, get_cons, h.symm]
  | cons entry m ih =>
    by_cases hk : entry.1 = key
    · subst hk
      simp [set, get_cons, h.symm]
    · simp [set, hk, get_cons, ih]

theorem get_delete_self (m : OrderedMap κ α) (key : κ) : get (delete m key) key = none := by
  simp [get, delete]

/-- A new key goes to the end. -/
theorem set_of_get_eq_none (h : get m key = none) (value : α) :
    set m key value = m ++ [(key, value)] := by
  induction m with
  | nil => rfl
  | cons entry m ih =>
    rw [get_cons] at h
    by_cases hkey : entry.1 = key
    · simp [hkey] at h
    · rw [if_neg hkey] at h
      simp [set, hkey, ih h]

variable {value : α}

/-- A key that is set to what it has stays as it is. -/
theorem set_same (h : get m key = some value) : set m key value = m := by
  induction m with
  | nil => cases h
  | cons entry m ih =>
    rw [get_cons] at h
    by_cases hkey : entry.1 = key
    · simp only [hkey, if_true, some.injEq] at h
      simp [set, ← hkey, ← h]
    · rw [if_neg hkey] at h
      simp [set, hkey, ih h]

theorem get_delete_of_ne (m : OrderedMap κ α) (h : other ≠ key) :
    get (delete m key) other = get m other := by
  induction m with
  | nil => rfl
  | cons entry m ih =>
    unfold delete at ih ⊢
    by_cases hk : entry.1 = key
    · rw [filter_cons_of_neg (by simpa using hk), ih, get_cons,
        if_neg (fun e => h (e.symm.trans hk))]
    · rw [filter_cons_of_pos (by simpa using hk), get_cons, get_cons, ih]

/-- A key comes in once. -/
theorem keys_set (m : OrderedMap κ α) (key : κ) (value : α) (h : (m.map Prod.fst).Nodup) :
    ((set m key value).map Prod.fst).Nodup ∧
      ∀ k, k ∈ (set m key value).map Prod.fst ↔ k = key ∨ k ∈ m.map Prod.fst := by
  induction m with
  | nil => simp [set]
  | cons entry m ih =>
    rw [map_cons, nodup_cons] at h
    by_cases hk : entry.1 = key
    · subst hk
      simpa [set] using h
    · obtain ⟨hnodup, hmem⟩ := ih h.2
      refine ⟨?_, ?_⟩
      · simp only [set, hk, if_false, map_cons, nodup_cons]
        refine ⟨fun hin => ?_, hnodup⟩
        rcases (hmem entry.1).1 hin with e | hin
        · exact hk e
        · exact h.1 hin
      · intro k
        simp only [set, hk, if_false, map_cons, mem_cons, hmem k]
        tauto

variable {entry : κ × α}

theorem mem_set (h : entry ∈ set m key value) :
    entry = (key, value) ∨ entry ∈ m := by
  induction m with
  | nil => exact .inl (mem_singleton.1 h)
  | cons first m ih =>
    unfold set at h
    split at h
    · rcases mem_cons.1 h with rfl | h
      · exact .inl rfl
      · exact .inr (mem_cons_of_mem _ h)
    · rcases mem_cons.1 h with rfl | h
      · exact .inr mem_cons_self
      · exact (ih h).imp_right (mem_cons_of_mem _)

theorem get_eq_none : get m key = none ↔ key ∉ m.map Prod.fst := by
  simp only [get, map_eq_none_iff, List.find?_eq_none, decide_eq_true_eq, List.mem_map,
    not_exists, not_and]

theorem mem_of_get (h : get m key = some value) : (key, value) ∈ m := by
  obtain ⟨entry, hfind, rfl⟩ := map_eq_some_iff.1 h
  have hkey : entry.1 = key := by simpa using find?_some hfind
  exact hkey ▸ mem_of_find?_eq_some hfind

theorem get_of_mem (hkeys : (m.map Prod.fst).Nodup) (h : entry ∈ m) :
    get m entry.1 = some entry.2 := by
  induction m with
  | nil => cases h
  | cons first m ih =>
    rw [map_cons, nodup_cons] at hkeys
    rw [get_cons]
    rcases mem_cons.1 h with rfl | h
    · rw [if_pos rfl]
    · have hne : first.1 ≠ entry.1 := fun e => hkeys.1 (e ▸ mem_map_of_mem h)
      rw [if_neg hne]
      exact ih hkeys.2 h

/-- A sum over the values, after one of them was set. -/
theorem sum_set (m : OrderedMap κ α) (key : κ) (value : α) (g : α → ℤ) :
    ((set m key value).map fun entry => g entry.2).sum =
      (m.map fun entry => g entry.2).sum + g value - ((get m key).map g).getD 0 := by
  induction m with
  | nil => simp [set]
  | cons entry m ih =>
    by_cases hk : entry.1 = key
    · simp only [set, hk, if_true, get_cons, map_cons, sum_cons, map_some, getD_some]
      ring
    · simp only [set, hk, if_false, get_cons, map_cons, sum_cons, ih]
      ring

theorem delete_eq_self (h : key ∉ m.map Prod.fst) : delete m key = m := by
  apply filter_eq_self.2
  intro entry hentry
  have hne : entry.1 ≠ key := fun e => h (e ▸ mem_map_of_mem hentry)
  simpa using hne

theorem sum_delete (hkeys : (m.map Prod.fst).Nodup) (key : κ) (g : α → ℤ) :
    ((delete m key).map fun entry => g entry.2).sum =
      (m.map fun entry => g entry.2).sum - ((get m key).map g).getD 0 := by
  induction m with
  | nil => simp [delete]
  | cons entry m ih =>
    rw [map_cons, nodup_cons] at hkeys
    by_cases hk : entry.1 = key
    · subst hk
      have hrest : delete (entry :: m) entry.1 = m := by
        unfold delete
        rw [filter_cons_of_neg (by simp)]
        exact delete_eq_self hkeys.1
      rw [hrest, get_cons, if_pos rfl]
      simp
    · have hrest : delete (entry :: m) key = entry :: delete m key := by
        unfold delete
        rw [filter_cons_of_pos (by simpa using hk)]
      rw [hrest, get_cons, if_neg hk, map_cons, map_cons, sum_cons, sum_cons, ih hkeys.2]
      ring

theorem keys_delete (key : κ) (hkeys : (m.map Prod.fst).Nodup) :
    ((delete m key).map Prod.fst).Nodup ∧ get (delete m key) key = none := by
  refine ⟨hkeys.sublist (filter_sublist.map _), get_eq_none.2 fun hmem => ?_⟩
  obtain ⟨entry, hentry, hk⟩ := mem_map.1 hmem
  have hne := (mem_filter.1 hentry).2
  simp [hk] at hne

end OrderedMap

/-! ## Records with a key -/

variable {ρ : Type} (key : ρ → κ)

/-- Change the record of a key. -/
def modifyKey (k : κ) (f : ρ → ρ) (records : List ρ) : List ρ :=
  records.map fun r => if key r = k then f r else r

variable {key}

variable {f : ρ → ρ} {k : κ} {r : ρ} {records : List ρ}

theorem modifyKey_keys (hf : ∀ r, key r = k → key (f r) = k) (records : List ρ) :
    (modifyKey key k f records).map key = records.map key := by
  unfold modifyKey
  rw [List.map_map]
  apply map_congr_left
  intro r _
  by_cases h : key r = k
  · simp [h, hf r h]
  · simp [h]

theorem mem_modifyKey (h : r ∈ modifyKey key k f records) :
    (∃ old ∈ records, key old = k ∧ r = f old) ∨ (r ∈ records ∧ key r ≠ k) := by
  obtain ⟨old, hold, rfl⟩ := mem_map.1 h
  by_cases hk : key old = k
  · exact .inl ⟨old, hold, hk, by simp [hk]⟩
  · exact .inr ⟨by simpa [hk] using hold, by simp [hk]⟩

/-- With distinct keys, a record is what its key finds. -/
theorem find_of_mem (hkeys : (records.map key).Nodup) (h : r ∈ records) :
    records.find? (key · = key r) = some r := by
  induction records with
  | nil => cases h
  | cons first records ih =>
    rw [map_cons, nodup_cons] at hkeys
    rcases mem_cons.1 h with rfl | h
    · simp
    · have hne : key first ≠ key r := fun e => hkeys.1 (e ▸ mem_map_of_mem h)
      rw [find?_cons_of_neg (by simpa using hne)]
      exact ih hkeys.2 h

theorem find_mem (h : records.find? (key · = k) = some r) : r ∈ records ∧ key r = k :=
  ⟨mem_of_find?_eq_some h, by simpa using find?_some h⟩

/-- With distinct keys, a list is one record and the list without its key. -/
theorem perm_filter_key (hkeys : (records.map key).Nodup) (h : r ∈ records) :
    records.Perm (r :: records.filter (key · ≠ key r)) := by
  induction records with
  | nil => cases h
  | cons first records ih =>
    rw [map_cons, nodup_cons] at hkeys
    rcases mem_cons.1 h with rfl | h
    · have hrest : (r :: records).filter (key · ≠ key r) = records := by
        rw [filter_cons_of_neg (by simp), filter_eq_self]
        intro other hother
        have hne : key other ≠ key r := fun e => hkeys.1 (e ▸ mem_map_of_mem hother)
        simpa using hne
      rw [hrest]
    · have hne : key first ≠ key r := fun e => hkeys.1 (e ▸ mem_map_of_mem h)
      rw [filter_cons_of_pos (by simpa using hne)]
      exact ((ih hkeys.2 h).cons first).trans (Perm.swap r first _)

/-- With distinct keys, a change of one record leaves the others as they are. -/
theorem modifyKey_perm (hkeys : (records.map key).Nodup) (h : r ∈ records) (f : ρ → ρ) :
    (modifyKey key (key r) f records).Perm (f r :: records.filter (key · ≠ key r)) := by
  have hrest : (records.filter (key · ≠ key r)).map
      (fun r' => if key r' = key r then f r' else r') = records.filter (key · ≠ key r) := by
    rw [map_congr_left (g := id), List.map_id]
    intro other hother
    have hne : key other ≠ key r := by simpa using (mem_filter.1 hother).2
    simp [hne]
  have hmap := (perm_filter_key hkeys h).map fun r' => if key r' = key r then f r' else r'
  rw [map_cons, if_pos rfl, hrest] at hmap
  exact hmap

/-- Changing one record changes a sum by what the record changes. -/
theorem sum_modifyKey {g : ρ → ℤ} (hkeys : (records.map key).Nodup)
    (h : records.find? (key · = k) = some r) :
    ((modifyKey key k f records).map g).sum = (records.map g).sum + (g (f r) - g r) := by
  obtain ⟨hmem, hk⟩ := find_mem h
  clear h
  induction records with
  | nil => cases hmem
  | cons first records ih =>
    rw [map_cons, nodup_cons] at hkeys
    rcases mem_cons.1 hmem with rfl | hmem
    · have hrest : modifyKey key k f records = records := by
        refine (map_congr_left fun other hother => ?_).trans (map_id _)
        have hne : key other ≠ k := fun e => hkeys.1 (hk ▸ e ▸ mem_map_of_mem hother)
        simp [hne]
      have hcons : modifyKey key k f (r :: records) = f r :: modifyKey key k f records := by
        simp [modifyKey, hk]
      rw [hcons, hrest]
      simp only [map_cons, sum_cons]
      ring
    · have hne : key first ≠ k := fun e => hkeys.1 (e ▸ hk ▸ mem_map_of_mem hmem)
      have hcons : modifyKey key k f (first :: records) = first :: modifyKey key k f records := by
        simp [modifyKey, hne]
      rw [hcons]
      simp only [map_cons, sum_cons]
      rw [ih hkeys.2 hmem]
      ring

theorem find_modifyKey_self (hf : ∀ r, key r = k → key (f r) = k)
    (h : records.find? (key · = k) = some r) :
    (modifyKey key k f records).find? (key · = k) = some (f r) := by
  unfold modifyKey
  induction records with
  | nil => cases h
  | cons first records ih =>
    by_cases hk : key first = k
    · simp only [find?_cons, hk, decide_true, some.injEq] at h
      subst h
      simp [hk, hf]
    · rw [find?_cons_of_neg (by simpa using hk)] at h
      rw [map_cons, if_neg hk, find?_cons_of_neg (by simpa using hk)]
      exact ih h

theorem find_modifyKey_of_ne {other : κ} (hf : ∀ r, key r = k → key (f r) = k) (hne : other ≠ k)
    (records : List ρ) :
    (modifyKey key k f records).find? (key · = other) = records.find? (key · = other) := by
  unfold modifyKey
  induction records with
  | nil => rfl
  | cons first records ih =>
    rw [map_cons, find?_cons, find?_cons, ih]
    by_cases hk : key first = k
    · have hfirst : key first ≠ other := fun e => hne (e.symm.trans hk)
      simp [hk, hf first hk, hne.symm]
    · simp [hk]

end bbcom.ordered_map
