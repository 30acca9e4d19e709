-- Retention by key: of rows that carry an ordered key, those of the `limit` largest keys stay.
-- Pruning after every append keeps the same rows as one pruning at the end.
import Mathlib

namespace bbcom.retention

open List

variable {α κ : Type*} [LinearOrder κ]

/-- The `limit` largest of the distinct keys. -/
def newest (limit : Nat) (keys : List κ) : List κ :=
  (keys.dedup.mergeSort fun a b => decide (b ≤ a)).take limit

/-- The rows of the newest keys. -/
def retain (limit : Nat) (key : α → κ) (rows : List α) : List α :=
  rows.filter fun row => decide (key row ∈ newest limit (rows.map key))

/-! ## Which keys are the newest -/

variable {keys : List κ}

theorem mem_take_descending (h : keys.Pairwise (· > ·)) (limit : Nat) (k : κ) :
    k ∈ keys.take limit ↔ k ∈ keys ∧ (keys.filter (k < ·)).length < limit := by
  induction keys generalizing limit with
  | nil => simp
  | cons a keys ih =>
    obtain ⟨ha, hkeys⟩ := pairwise_cons.1 h
    cases limit with
    | zero => simp
    | succ limit =>
      rw [take_succ_cons, mem_cons, mem_cons, ih hkeys]
      by_cases hk : k = a
      · subst hk
        have hnone : keys.filter (k < ·) = [] := by
          apply filter_eq_nil_iff.2
          intro b hb
          simpa using (ha b hb).le
        simp [hnone]
      · by_cases hm : k ∈ keys
        · have hlt : k < a := ha k hm
          simp [hk, hm, hlt]
        · simp [hk, hm]

variable {k : κ}

/-- A key is among the newest when fewer than `limit` distinct keys are larger. -/
theorem mem_newest {limit : Nat} :
    k ∈ newest limit keys ↔ k ∈ keys ∧ (keys.toFinset.filter (k < ·)).card < limit := by
  have hperm := mergeSort_perm keys.dedup fun a b => decide (b ≤ a)
  have hnodup : (keys.dedup.mergeSort fun a b => decide (b ≤ a)).Nodup :=
    hperm.nodup_iff.2 keys.nodup_dedup
  have hsorted : (keys.dedup.mergeSort fun a b => decide (b ≤ a)).Pairwise (· > ·) := by
    have hle : (keys.dedup.mergeSort fun a b => decide (b ≤ a)).Pairwise
        fun a b => decide (b ≤ a) = true :=
      pairwise_mergeSort
        (fun a b c h1 h2 => by simp only [decide_eq_true_eq] at *; exact h2.trans h1)
        (fun a b => by simpa using le_total b a) keys.dedup
    apply (hle.and hnodup).imp
    intro a b h
    simp only [decide_eq_true_eq] at h
    exact lt_of_le_of_ne h.1 fun e => h.2 e.symm
  rw [newest, mem_take_descending hsorted, hperm.mem_iff, mem_dedup]
  have hcard : ((keys.dedup.mergeSort fun a b => decide (b ≤ a)).filter (k < ·)).length =
      (keys.toFinset.filter (k < ·)).card := by
    rw [(hperm.filter _).length_eq, ← toFinset_card_of_nodup (keys.nodup_dedup.filter _)]
    congr 1
    ext x
    simp
  rw [hcard]

variable (limit : Nat)

theorem card_newest (keys : List κ) : (newest limit keys).toFinset.card ≤ limit :=
  (toFinset_card_le _).trans (length_take_le _ _)

/-- The keys that are newer than one which is not among the newest are too many. -/
theorem full_of_not_mem_newest {limit : Nat} (hk : k ∈ keys) (h : k ∉ newest limit keys) :
    limit ≤ ((newest limit keys).toFinset.filter (k < ·)).card := by
  by_contra hlt
  push Not at hlt
  -- the smallest of the newer keys that fall out is itself one of the newest
  have hout : ∃ j ∈ keys, k < j ∧ j ∉ newest limit keys := by
    by_contra hall
    push Not at hall
    apply h
    refine mem_newest.2 ⟨hk, (Finset.card_le_card ?_).trans_lt hlt⟩
    intro j hj
    simp only [Finset.mem_filter, mem_toFinset] at hj ⊢
    exact ⟨hall j hj.1 hj.2, hj.2⟩
  obtain ⟨j, hj⟩ := hout
  have hne : (keys.toFinset.filter fun j => k < j ∧ j ∉ newest limit keys).Nonempty :=
    ⟨j, by simpa using hj⟩
  obtain ⟨top, htop, hmax⟩ := Finset.exists_max_image _ id hne
  simp only [Finset.mem_filter, mem_toFinset, id_eq] at htop hmax
  apply htop.2.2
  refine mem_newest.2 ⟨htop.1, (Finset.card_le_card ?_).trans_lt hlt⟩
  intro i hi
  simp only [Finset.mem_filter, mem_toFinset] at hi ⊢
  have hki := htop.2.1.trans hi.2
  by_cases hin : i ∈ newest limit keys
  · exact ⟨hin, hki⟩
  · exact absurd (hmax i ⟨hi.1, hki, hin⟩) (not_le.2 hi.2)

/-! ## Pruning as the rows come in -/

theorem mem_keys_retain {limit : Nat} {key : α → κ} {rows : List α} :
    k ∈ (retain limit key rows).map key ↔ k ∈ newest limit (rows.map key) := by
  constructor
  · rintro h
    obtain ⟨row, hrow, rfl⟩ := mem_map.1 h
    simpa using (mem_filter.1 hrow).2
  · intro h
    obtain ⟨row, hrow, rfl⟩ := mem_map.1 (mem_newest.1 h).1
    exact mem_map.2 ⟨row, mem_filter.2 ⟨hrow, by simpa using h⟩, rfl⟩

theorem mem_newest_retain_append {limit : Nat} {key : α → κ} {old new : List α} :
    k ∈ newest limit ((retain limit key old ++ new).map key) ↔
      k ∈ newest limit ((old ++ new).map key) := by
  have hsub : ∀ j, j ∈ ((retain limit key old ++ new).map key).toFinset →
      j ∈ ((old ++ new).map key).toFinset := by
    intro j hj
    simp only [map_append, toFinset_append, Finset.mem_union, mem_toFinset] at hj ⊢
    exact hj.imp_left fun h => (mem_newest.1 (mem_keys_retain.1 h)).1
  constructor
  · intro h
    obtain ⟨hk, hcard⟩ := mem_newest.1 h
    refine mem_newest.2 ⟨by simpa using hsub k (by simpa using hk), ?_⟩
    by_contra hfull
    push Not at hfull
    -- a larger key that was pruned stands under `limit` keys that were kept
    have hout : ∃ j ∈ ((old ++ new).map key).toFinset, k < j ∧
        j ∉ ((retain limit key old ++ new).map key).toFinset := by
      by_contra hall
      push Not at hall
      apply absurd (Finset.card_le_card (s := ((old ++ new).map key).toFinset.filter (k < ·))
        (t := ((retain limit key old ++ new).map key).toFinset.filter (k < ·)) ?_)
      · omega
      · intro j hj
        simp only [Finset.mem_filter] at hj ⊢
        exact ⟨hall j hj.1 hj.2, hj.2⟩
    obtain ⟨j, hj, hkj, hjout⟩ := hout
    simp only [map_append, toFinset_append, Finset.mem_union, mem_toFinset, not_or] at hj hjout
    have hjold : j ∈ old.map key := hj.resolve_right hjout.2
    have hfull := full_of_not_mem_newest hjold fun hin => hjout.1 (mem_keys_retain.2 hin)
    have hle : ((newest limit (old.map key)).toFinset.filter (j < ·)).card ≤
        (((retain limit key old ++ new).map key).toFinset.filter (k < ·)).card := by
      apply Finset.card_le_card
      intro i hi
      simp only [Finset.mem_filter, mem_toFinset, map_append, mem_append] at hi ⊢
      exact ⟨.inl (mem_keys_retain.2 hi.1), hkj.trans hi.2⟩
    omega
  · intro h
    obtain ⟨hk, hcard⟩ := mem_newest.1 h
    refine mem_newest.2 ⟨?_, (Finset.card_le_card ?_).trans_lt hcard⟩
    · simp only [map_append, mem_append] at hk ⊢
      refine hk.imp_left fun hold => mem_keys_retain.2 (mem_newest.2 ⟨hold, ?_⟩)
      refine (Finset.card_le_card ?_).trans_lt hcard
      intro j hj
      simp only [Finset.mem_filter, mem_toFinset, map_append, mem_append] at hj ⊢
      exact ⟨.inl hj.1, hj.2⟩
    · intro j hj
      simp only [Finset.mem_filter] at hj ⊢
      exact ⟨hsub j hj.1, hj.2⟩

variable (key : α → κ)

/-- Rows that were pruned before do not come back, and none is missed. -/
theorem retain_retain_append (old new : List α) :
    retain limit key (retain limit key old ++ new) = retain limit key (old ++ new) := by
  have hmem : ∀ row : α, (key row ∈ newest limit ((retain limit key old ++ new).map key)) =
      (key row ∈ newest limit ((old ++ new).map key)) :=
    fun row => propext mem_newest_retain_append
  have hold : (retain limit key old).filter
      (fun row => decide (key row ∈ newest limit ((old ++ new).map key))) =
      old.filter fun row => decide (key row ∈ newest limit ((old ++ new).map key)) := by
    rw [retain, filter_filter]
    apply filter_congr
    intro row hrow
    by_cases h : key row ∈ newest limit ((old ++ new).map key)
    · have hkept : key row ∈ newest limit (old.map key) := by
        refine mem_newest.2 ⟨mem_map_of_mem hrow, ?_⟩
        refine (Finset.card_le_card ?_).trans_lt (mem_newest.1 h).2
        intro j hj
        simp only [Finset.mem_filter, mem_toFinset, map_append, mem_append] at hj ⊢
        exact ⟨.inl hj.1, hj.2⟩
      simp only [h, hkept, decide_true, Bool.and_self]
    · simp only [h, decide_false, Bool.false_and]
  unfold retain at hold ⊢
  unfold retain at hmem
  simp only [hmem]
  rw [filter_append, hold, filter_append]

theorem retain_retain (rows : List α) :
    retain limit key (retain limit key rows) = retain limit key rows := by
  have := retain_retain_append limit key rows []
  simpa using this

/-- No more than `limit` keys stay. -/
theorem card_retain (rows : List α) : ((retain limit key rows).map key).toFinset.card ≤ limit := by
  refine (Finset.card_le_card ?_).trans (card_newest limit (rows.map key))
  intro k hk
  simp only [mem_toFinset] at hk ⊢
  exact mem_keys_retain.1 hk

end bbcom.retention
