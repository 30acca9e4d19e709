-- Processes that hold tokens: while one process goes on, the others keep theirs.
import Mathlib.Data.List.Basic
import Mathlib.Data.List.Perm.Basic

namespace bbcom.tokens

open List

variable {π τ : Type*} (holds : π → List τ)

/-- The tokens of all the processes. -/
def held (procs : List π) : List τ := procs.flatMap holds

/-- The tokens that the others have while the process at `i` goes on. -/
def others (procs : List π) (i : Nat) : List τ := held holds (procs.eraseIdx i)

variable {holds}

variable {procs : List π} {i : Nat}

theorem held_perm {p : π} (h : procs[i]? = some p) :
    (held holds procs).Perm (holds p ++ others holds procs i) := by
  induction procs generalizing i with
  | nil => simp at h
  | cons q procs ih =>
    cases i with
    | zero =>
      rw [getElem?_cons_zero, Option.some.injEq] at h
      subst h
      exact .refl _
    | succ i =>
      rw [getElem?_cons_succ] at h
      have hrest := (ih h).append_left (holds q)
      refine hrest.trans ?_
      simp only [others, held, eraseIdx_cons_succ, flatMap_cons]
      rw [← append_assoc, ← append_assoc]
      exact perm_append_comm.append_right _

/-- The process that has gone on puts back what it holds now. -/
theorem held_set_perm (h : i < procs.length) (q : π) :
    (held holds (procs.set i q)).Perm (holds q ++ others holds procs i) := by
  have hget : (procs.set i q)[i]? = some q := by
    rw [getElem?_set_self h]
  have hothers : others holds (procs.set i q) i = others holds procs i := by
    unfold others
    rw [eraseIdx_set_eq]
  rw [← hothers]
  exact held_perm hget

/-- What another process holds is among the tokens of the others. -/
theorem mem_others {j : Nat} {q : π} (hother : j ≠ i) (h : procs[j]? = some q) {token : τ}
    (htoken : token ∈ holds q) :
    token ∈ others holds procs i :=
  mem_flatMap.2 ⟨q, mem_eraseIdx_iff_getElem?.2 ⟨j, hother, h⟩, htoken⟩

/-- A process that holds nothing begins. -/
theorem held_snoc {p : π} (h : holds p = []) :
    held holds (procs ++ [p]) = held holds procs := by
  simp [held, h]

end bbcom.tokens
