-- Reading a list page by page. A page holds the next rows and says where to go on; who
-- follows these places gets every row once, in order, and comes to an end.
import Mathlib

namespace bbcom.paging

open List List

variable {κ π ρ φ ε : Type*}

/-! ## Following the places that the pages name -/

/-- Read on from a place until a page names no other; `none` where the fuel does not last. -/
def follow (read : Nat → κ → Except ε π) (next : π → Option κ) :
    Nat → Nat → κ → Option (Except ε (List π))
  | 0, _, _ => none
  | fuel + 1, n, place =>
    match read n place with
    | .error error => some (.error error)
    | .ok page =>
      match next page with
      | none => some (.ok [page])
      | some place' => (follow read next fuel (n + 1) place').map (·.map (page :: ·))

/-- What a page has to be at a place: all that is left, or some of it and then a place that
has the rest. -/
inductive Serves (known : κ → Prop) (left : κ → List ρ) (place : κ) (rows : List ρ) :
    Option κ → Prop
  | last (all : left place = rows) : Serves known left place rows none
  | more (place' : κ) (some_row : rows ≠ []) (split : left place = rows ++ left place')
      (reads_on : known place') : Serves known left place rows (some place')

variable {read : Nat → κ → Except ε π} {next : π → Option κ} {rows : π → List ρ}
  {known : κ → Prop} {left : κ → List ρ}

/-- Each page takes a row away from what is left, so the pages come to an end, and they are
all of it. -/
theorem follow_complete {Good : Nat → π → Prop}
    (hserves : ∀ n place, known place → ∃ page, read n place = .ok page ∧ Good n page ∧
      Serves known left place (rows page) (next page))
    {fuel n : Nat} {place : κ} (hknown : known place) (hfuel : (left place).length < fuel) :
    ∃ pages, follow read next fuel n place = some (.ok pages) ∧
      pages.flatMap rows = left place ∧ ∀ i page, pages[i]? = some page → Good (n + i) page := by
  induction fuel generalizing n place with
  | zero => exact absurd hfuel (Nat.not_lt_zero _)
  | succ fuel ih =>
    obtain ⟨page, hread, hgood, hpage⟩ := hserves n place hknown
    generalize hnext : next page = place' at hpage
    cases hpage with
    | last all =>
      refine ⟨[page], by simp only [follow, hread, hnext], by simpa using all.symm, ?_⟩
      intro i other hother
      obtain ⟨rfl, rfl⟩ : i = 0 ∧ page = other := by
        cases i with
        | zero => simpa using hother
        | succ i => simp at hother
      exact hgood
    | more place' some_row split reads_on =>
      have hlt : (left place').length < fuel := by
        have hpos := length_pos_of_ne_nil some_row
        rw [split, length_append] at hfuel
        omega
      obtain ⟨pages, hpages, hflat, hmem⟩ := @ih (n + 1) place' reads_on hlt
      refine ⟨page :: pages, ?_, ?_, ?_⟩
      · simp only [follow, hread, hnext, hpages, Option.map_some, Except.map]
      · rw [flatMap_cons, hflat, split]
      · intro i other hother
        cases i with
        | zero =>
          simp only [getElem?_cons_zero, Option.some.injEq] at hother
          exact hother ▸ hgood
        | succ i =>
          rw [getElem?_cons_succ] at hother
          exact Nat.add_right_comm n 1 i ▸ hmem i other hother

/-! ## Filling a page -/

/-- Take rows onto a page until one finds it full: the page, and that row. -/
def fill (full : List φ → Nat → ρ → Bool) (size : ρ → Nat) (convert : ρ → Except ε φ) :
    List φ → Nat → List ρ → Except ε (List φ × Option ρ)
  | page, _, [] => .ok (page, none)
  | page, bytes, row :: rest =>
    if full page bytes row then .ok (page, some row)
    else
      match convert row with
      | .error error => .error error
      | .ok item => fill full size convert (page ++ [item]) (bytes + size row) rest

/-- The rule of a page over some rows: what may stand on one, and that an empty page takes
every row. -/
structure PageRule (full : List φ → Nat → ρ → Bool) (size : ρ → Nat) (item : ρ → φ)
    (limit : Nat) (Fits : List φ → Nat → Prop) (source : List ρ) : Prop where
  empty : Fits [] 0
  grows : ∀ page bytes, ∀ row ∈ source, Fits page bytes → full page bytes row = false →
    Fits (page ++ [item row]) (bytes + size row)
  within : ∀ page bytes, Fits page bytes → page.length ≤ limit
  admits : ∀ row ∈ source, full [] 0 row = false

variable {full : List φ → Nat → ρ → Bool} {size : ρ → Nat} {convert : ρ → Except ε φ}
  {item : ρ → φ} {limit : Nat} {Fits : List φ → Nat → Prop} {source : List ρ}

theorem fill_from (hrule : PageRule full size item limit Fits source)
    (hconvert : ∀ row ∈ source, convert row = .ok (item row)) (rows : List ρ) :
    ∀ (page : List φ) (bytes : Nat), (∀ row ∈ rows, row ∈ source) → Fits page bytes →
      ∃ taken rest, rows = taken ++ rest ∧
        fill full size convert page bytes rows = .ok (page ++ taken.map item, rest.head?) ∧
        Fits (page ++ taken.map item) (bytes + (taken.map size).sum) ∧
        (∀ row ∈ rows.head?, full page bytes row = false → taken ≠ []) := by
  induction rows with
  | nil =>
    intro page bytes _ hfits
    exact ⟨[], [], rfl, by simp [fill], by simpa using hfits, by simp⟩
  | cons row rows ih =>
    intro page bytes hsub hfits
    have hrow : row ∈ source := hsub row mem_cons_self
    cases hfull : full page bytes row with
    | true =>
      refine ⟨[], row :: rows, rfl, by simp [fill, hfull], by simpa using hfits, ?_⟩
      intro first hfirst hopen
      simp only [head?_cons, Option.mem_def, Option.some.injEq] at hfirst
      rw [← hfirst, hfull] at hopen
      cases hopen
    | false =>
      have hgrown := hrule.grows page bytes row hrow hfits hfull
      obtain ⟨taken, rest, hsplit, hfill, htaken, _⟩ := ih _ _
        (fun other hother => hsub other (mem_cons_of_mem _ hother)) hgrown
      refine ⟨row :: taken, rest, by rw [hsplit, cons_append], ?_, ?_, by simp⟩
      · simp only [fill, hfull, Bool.false_eq_true, if_false, hconvert row hrow]
        simpa using hfill
      · simpa [Nat.add_assoc] using htaken

/-- A page of the first `limit + 1` rows is a page of all rows: the row behind the last one
that fits is enough to see that there are more. -/
theorem fill_page (hrule : PageRule full size item limit Fits source)
    (hconvert : ∀ row ∈ source, convert row = .ok (item row)) :
    ∃ taken rest, source = taken ++ rest ∧
      fill full size convert [] 0 (source.take (limit + 1)) = .ok (taken.map item, rest.head?) ∧
      Fits (taken.map item) (taken.map size).sum ∧ (source ≠ [] → taken ≠ []) := by
  obtain ⟨taken, rest, hsplit, hfill, hfits, hsome⟩ :=
    fill_from hrule hconvert (source.take (limit + 1)) [] 0
      (fun row hrow => mem_of_mem_take hrow) hrule.empty
  simp only [nil_append, Nat.zero_add] at hfill hfits
  have hlength := hrule.within _ _ hfits
  rw [length_map] at hlength
  refine ⟨taken, rest ++ source.drop (limit + 1), ?_, ?_, hfits, ?_⟩
  · rw [← append_assoc, ← hsplit, take_append_drop]
  · have hhead : (rest ++ source.drop (limit + 1)).head? = rest.head? := by
      cases rest with
      | cons row rest => rfl
      | nil =>
        -- nothing was left over, so the rows that were asked for were all there are
        have hall : (source.take (limit + 1)).length = taken.length := by simp [hsplit]
        rw [length_take] at hall
        have hend : source.length ≤ limit + 1 := by omega
        simp [drop_eq_nil_of_le hend]
    rw [hhead, hfill]
  · intro hne
    cases source with
    | nil => exact absurd rfl hne
    | cons row source =>
      exact hsome row (by simp) (hrule.admits row mem_cons_self)

/-! ## Two kinds of places -/

variable {ι : Type*}

/-- Rows with distinct keys, put in the order of the keys, stand in strict order. -/
theorem sorted_by_key [LinearOrder ι] {key : ρ → ι} {le : ρ → ρ → Bool}
    (hle : ∀ a b, le a b = true ↔ key a ≤ key b) {rows : List ρ} (hkeys : (rows.map key).Nodup) :
    (rows.mergeSort le).Pairwise (key · < key ·) := by
  have hsorted : (rows.mergeSort le).Pairwise fun a b => le a b = true := pairwise_mergeSort
      (fun a b c hab hbc => (hle a c).2 (((hle a b).1 hab).trans ((hle b c).1 hbc)))
      (fun a b => by simpa [hle] using le_total (key a) (key b)) rows
  have hdistinct : (rows.mergeSort le).Pairwise fun a b => key a ≠ key b :=
    pairwise_map.1 (((mergeSort_perm rows le).map key).nodup_iff.2 hkeys)
  apply (hsorted.and hdistinct).imp
  intro a b hab
  exact lt_of_le_of_ne ((hle a b).1 hab.1) hab.2

/-- A place by key: the rows from that key on. -/
theorem left_by_key [LinearOrder ι] {key : ρ → ι} {sorted : List ρ}
    (hsorted : sorted.Pairwise (key · < key ·)) {place : ι} {taken rest : List ρ} {row : ρ}
    (h : sorted.filter (place ≤ key ·) = taken ++ row :: rest) :
    sorted.filter (key row ≤ key ·) = row :: rest := by
  have hpart := h ▸ hsorted.filter (place ≤ key ·)
  obtain ⟨_, hrest, hbefore⟩ := pairwise_append.1 hpart
  obtain ⟨hrow, _⟩ := pairwise_cons.1 hrest
  have hplace : place ≤ key row := by
    have hmem : row ∈ sorted.filter (place ≤ key ·) := by simp [h]
    simpa using (mem_filter.1 hmem).2
  have hnarrow : sorted.filter (key row ≤ key ·) =
      (sorted.filter (place ≤ key ·)).filter (key row ≤ key ·) := by
    rw [filter_filter]
    apply filter_congr
    intro other _
    by_cases hle : key row ≤ key other
    · simp [hle, hplace.trans hle]
    · simp [hle]
  have htaken : taken.filter (key row ≤ key ·) = [] := by
    apply filter_eq_nil_iff.2
    intro other hother
    simpa using hbefore other hother row mem_cons_self
  have hall : (row :: rest).filter (key row ≤ key ·) = row :: rest := by
    apply filter_eq_self.2
    intro other hother
    rcases mem_cons.1 hother with rfl | hother
    · simp
    · simpa using (hrow other hother).le
  rw [hnarrow, h, filter_append, htaken, hall, nil_append]

variable {sorted taken rest : List ρ} {offset : Nat}

theorem length_by_offset (hoffset : offset ≤ sorted.length)
    (h : sorted.drop offset = taken ++ rest) :
    offset + taken.length + rest.length = sorted.length := by
  have hdrop := congrArg length h
  rw [length_drop, length_append] at hdrop
  omega

/-- A place by offset: the rows behind that many. -/
theorem serves_by_offset {f : ρ → φ} (hoffset : offset ≤ sorted.length)
    (h : sorted.drop offset = taken ++ rest) (htaken : sorted.drop offset ≠ [] → taken ≠ []) :
    Serves (· ≤ sorted.length) (fun place => (sorted.drop place).map f) offset (taken.map f)
      (rest.head?.map fun _ => offset + taken.length) := by
  cases rest with
  | nil => exact .last (by simp [h])
  | cons row rest =>
    refine .more (offset + taken.length) ?_ ?_ ?_
    · simpa using htaken (by simp [h])
    · rw [← drop_drop]
      simp only [h, drop_left, map_append]
    · have hlength := length_by_offset hoffset h
      rw [length_cons] at hlength
      omega

end bbcom.paging
