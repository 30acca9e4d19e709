-- The part of the JavaScript runtime that the TypeScript code rests on:
-- numbers, the errors that it throws, and typed byte arrays.
import Mathlib

namespace bbcom.js

open List

/-! ## Numbers -/

/-- A number of the language. `finite` holds the exact value of a double; the zero with a
minus sign stands apart, for the code that looks at the bits of a number. -/
inductive JsNumber
  | nan
  | infinity (negative : Bool)
  | negativeZero
  | finite (value : ℚ)
  deriving DecidableEq

/-- `Number.isFinite`. -/
def JsNumber.isFinite : JsNumber → Bool
  | .negativeZero | .finite _ => true
  | _ => false

/-- A number that `Number.isFinite` lets through. -/
abbrev FiniteNumber := { value : JsNumber // value.isFinite }

def FiniteNumber.toRat (n : FiniteNumber) : ℚ :=
  match n.val with
  | .finite q => q
  | _ => 0

/-- `values.filter((value) => Number.isFinite(value))`. -/
def finiteNumbers (values : List JsNumber) : List FiniteNumber :=
  values.filterMap fun value => if h : value.isFinite then some ⟨value, h⟩ else none

/-- `Math.trunc`. -/
def trunc (q : ℚ) : ℤ := q.num.tdiv q.den

/-- `Number.isInteger` with the two bounds that the range checks of the code put around
it. The value is the integer, for the code that goes on with it. -/
def integerBetween (value : JsNumber) (min max : Nat) : Option Nat :=
  match value with
  | .finite q =>
    if q.den = 1 ∧ (min : ℤ) ≤ q.num ∧ q.num ≤ (max : ℤ) then some q.num.toNat else none
  | .negativeZero => if min = 0 then some 0 else none
  | _ => none

theorem integerBetween_bounds {value : JsNumber} {min max n : Nat}
    (h : integerBetween value min max = some n) : min ≤ n ∧ n ≤ max := by
  unfold integerBetween at h
  split at h
  · split at h
    · rename_i q hq
      obtain ⟨_, h1, h2⟩ := hq
      cases h
      omega
    · cases h
  · split at h
    · cases h
      omega
    · cases h
  · cases h

/-! ## Errors -/

inductive JsError
  | typeError (message : String)
  | rangeError (message : String)
  deriving DecidableEq

/-- Code that throws nothing has thrown nothing on the way. -/
theorem bind_eq_ok {ε α β : Type} {x : Except ε α} {f : α → Except ε β} {b : β} :
    (x >>= f) = .ok b ↔ ∃ a, x = .ok a ∧ f a = .ok b := by
  cases x <;> simp [bind, Except.bind]

/-- What comes behind a check that has passed. -/
theorem passed {ε α : Type} {check : Except ε Unit} {rest : Unit → Except ε α} {a : α}
    (h : (check >>= rest) = .ok a) : rest () = .ok a := by
  obtain ⟨_, _, hrest⟩ := bind_eq_ok.1 h
  exact hrest

theorem map_eq_ok {ε α β : Type} {x : Except ε α} {f : α → β} {b : β} :
    (f <$> x) = .ok b ↔ ∃ a, x = .ok a ∧ f a = b := by
  cases x <;> simp [Functor.map, Except.map]

/-! ## Typed byte arrays

A `Uint8Array` has a fixed length. The functions below are its methods; each caller of
`set` keeps the written part inside the array. -/

abbrev Uint8Array := List UInt8

/-- `new Uint8Array(length)`: all zero. -/
def Uint8Array.zeros (length : Nat) : Uint8Array := replicate length 0

def Uint8Array.subarray (a : Uint8Array) (start end_ : Nat) : Uint8Array :=
  (a.take end_).drop start

def Uint8Array.set (a source : Uint8Array) (offset : Nat) : Uint8Array :=
  a.take offset ++ source ++ a.drop (offset + source.length)

/-- `a.copyWithin(0, start, end)`. -/
def Uint8Array.copyToFront (a : Uint8Array) (start end_ : Nat) : Uint8Array :=
  a.subarray start end_ ++ a.drop (a.subarray start end_).length

open Uint8Array

@[simp] theorem Uint8Array.length_zeros (n : Nat) : (zeros n).length = n := by
  simp [zeros]

variable (a : Uint8Array) (start end_ : Nat)

theorem Uint8Array.length_subarray (h : end_ ≤ a.length) :
    (a.subarray start end_).length = end_ - start := by
  simp [subarray, Nat.min_eq_left h]

theorem Uint8Array.length_set (a source : Uint8Array) (offset : Nat)
    (h : offset + source.length ≤ a.length) : (a.set source offset).length = a.length := by
  simp only [set, length_append, length_take, length_drop]
  omega

theorem Uint8Array.length_copyToFront (h : end_ ≤ a.length) :
    (a.copyToFront start end_).length = a.length := by
  have hs := length_subarray a start end_ h
  simp only [copyToFront, length_append, length_drop]
  omega

/-- What stands at the end of the valid bytes after a write there. -/
theorem Uint8Array.subarray_set (a source : Uint8Array) (start end_ : Nat) (hs : start ≤ end_)
    (h : end_ + source.length ≤ a.length) :
    (a.set source end_).subarray start (end_ + source.length) =
      a.subarray start end_ ++ source := by
  have hl : (a.take end_ ++ source).length = end_ + source.length := by
    simp only [length_append, length_take]
    omega
  unfold subarray set
  rw [← hl, take_left, drop_append_of_le_length (by simp; omega)]

theorem Uint8Array.subarray_copyToFront (h : end_ ≤ a.length) :
    (a.copyToFront start end_).subarray 0 (end_ - start) = a.subarray start end_ := by
  rw [← length_subarray a start end_ h]
  unfold copyToFront
  simp [subarray]

end bbcom.js
