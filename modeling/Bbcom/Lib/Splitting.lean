-- Texts that are cut at runs of separators. The pieces hold in order what is no separator, and
-- words with separators between them are found again.
import Mathlib.Data.List.Basic

namespace bbcom.splitting

open List

variable {α : Type*} (sep : α → Bool)

/-- The pieces from some place on: with the one in hand, and whether the run of separators that
ended the last one goes on here. -/
def piecesFrom (piece : List α) (cut : Bool) : List α → List (List α)
  | [] => [piece]
  | a :: rest =>
    if sep a then if cut then piecesFrom piece true rest else piece :: piecesFrom [] true rest
    else piecesFrom (piece ++ [a]) false rest

/-- The pieces of a text, with one cut for each run of separators. -/
def pieces (text : List α) : List (List α) := piecesFrom sep [] false text

/-- A word that no separator stands in. -/
def IsWord (word : List α) : Prop := word ≠ [] ∧ ∀ a ∈ word, sep a = false

variable {sep}

theorem flatten_piecesFrom (piece : List α) (cut : Bool) (text : List α) :
    (piecesFrom sep piece cut text).flatten = piece ++ text.filter fun a => !sep a := by
  induction text generalizing piece cut with
  | nil => simp [piecesFrom]
  | cons a text ih =>
    unfold piecesFrom
    by_cases hsep : sep a
    · cases cut <;> simp [hsep, ih]
    · simp [hsep, ih]

theorem flatten_pieces (text : List α) : (pieces sep text).flatten = text.filter fun a => !sep a :=
  flatten_piecesFrom [] false text

variable {word : List α}

/-- A word comes to the piece in hand, and ends the run in front of it. -/
theorem piecesFrom_word (h : IsWord sep word) (piece : List α) (cut : Bool) (rest : List α) :
    piecesFrom sep piece cut (word ++ rest) = piecesFrom sep (piece ++ word) false rest := by
  obtain ⟨hsome, hword⟩ := h
  induction word generalizing piece cut with
  | nil => exact absurd rfl hsome
  | cons a word ih =>
    obtain ⟨ha, hrest⟩ := forall_mem_cons.1 hword
    rw [cons_append, piecesFrom, ha, if_neg Bool.false_ne_true]
    cases word with
    | nil => rfl
    | cons b word =>
      rw [ih _ _ (cons_ne_nil _ _) hrest, append_assoc]
      rfl

variable {words : List (List α)}

theorem piecesFrom_words {s : α} (hs : sep s = true) (hwords : ∀ word ∈ words, IsWord sep word)
    (piece : List α) :
    piecesFrom sep piece false (words.flatMap (s :: ·)) = piece :: words := by
  induction words generalizing piece with
  | nil => rfl
  | cons word words ih =>
    obtain ⟨hword, hrest⟩ := forall_mem_cons.1 hwords
    rw [flatMap_cons, cons_append, piecesFrom, if_pos hs, if_neg Bool.false_ne_true,
      piecesFrom_word hword, nil_append, ih hrest]

/-- Words with one separator between them. -/
theorem pieces_words {s : α} (hs : sep s = true)
    (hwords : ∀ other ∈ word :: words, IsWord sep other) :
    pieces sep (word ++ words.flatMap (s :: ·)) = word :: words := by
  obtain ⟨hword, hrest⟩ := forall_mem_cons.1 hwords
  unfold pieces
  rw [piecesFrom_word hword, nil_append, piecesFrom_words hs hrest]

/-- What both ends lose of separators makes no difference to the rest. -/
theorem filter_dropWhile_of_imp {p q : α → Bool} (h : ∀ a, p a = true → q a = false)
    (text : List α) : (text.dropWhile p).filter q = text.filter q := by
  induction text with
  | nil => rfl
  | cons a text ih =>
    rw [dropWhile_cons]
    split
    · rename_i hp
      rw [ih, filter_cons, if_neg (by simp [h a hp])]
    · rfl

end bbcom.splitting
