-- Rounding to the nearest double, for results that neither overflow nor underflow: 53 bits of
-- a number, and of two neighbours that are equally near the even one.
import Mathlib

namespace bbcom.doubles

open Int

/-- The nearest integer, and the even one of two. -/
def nearestInt (q : ℚ) : ℤ :=
  if q - ⌊q⌋ < 1 / 2 then ⌊q⌋
  else if 1 / 2 < q - ⌊q⌋ then ⌊q⌋ + 1
  else if ⌊q⌋ % 2 = 0 then ⌊q⌋
  else ⌊q⌋ + 1

/-- The nearest double: the last of its 53 bits stands for `2 ^ lastBit x`. -/
def lastBit (x : ℚ) : ℤ := log 2 |x| - 52

def nearestDouble (x : ℚ) : ℚ :=
  if x = 0 then 0 else nearestInt (x / 2 ^ lastBit x) * 2 ^ lastBit x

theorem floor_le_nearestInt (q : ℚ) : ⌊q⌋ ≤ nearestInt q := by
  unfold nearestInt
  split_ifs <;> omega

@[simp] theorem nearestInt_intCast (n : ℤ) : nearestInt n = n := by
  simp [nearestInt]

/-- Rounding does not pass an integer, as long as integers are doubles. -/
theorem le_nearestDouble {n : ℤ} {x : ℚ} (hsmall : |x| < 2 ^ 53) (h : (n : ℚ) ≤ x) :
    (n : ℚ) ≤ nearestDouble x := by
  unfold nearestDouble
  split
  · rename_i hzero
    rwa [← hzero]
  · rename_i hne
    have hlog : log 2 |x| < 53 := by
      rw [← lt_zpow_iff_log_lt (by norm_num) (abs_pos.mpr hne)]
      exact_mod_cast hsmall
    obtain ⟨k, hk⟩ : ∃ k : ℕ, lastBit x = -(k : ℤ) := by
      refine ⟨(-lastBit x).toNat, ?_⟩
      unfold lastBit
      omega
    have hpos : (0 : ℚ) < 2 ^ k := by positivity
    rw [hk, zpow_neg, zpow_natCast, div_inv_eq_mul]
    have hscaled : n * 2 ^ k ≤ nearestInt (x * 2 ^ k) := by
      apply le_trans _ (floor_le_nearestInt _)
      rw [le_floor]
      push_cast
      exact mul_le_mul_of_nonneg_right h hpos.le
    have hcast : (n : ℚ) * 2 ^ k ≤ nearestInt (x * 2 ^ k) := by exact_mod_cast hscaled
    calc (n : ℚ) = n * 2 ^ k * (2 ^ k)⁻¹ := by field_simp
      _ ≤ nearestInt (x * 2 ^ k) * (2 ^ k)⁻¹ :=
        mul_le_mul_of_nonneg_right hcast (inv_nonneg.mpr hpos.le)

theorem nearestDouble_two_pow_53 : nearestDouble (2 ^ 53) = 2 ^ 53 := by
  have hlog : lastBit (2 ^ 53) = 1 := by
    have h : log 2 ((2 : ℚ) ^ (53 : ℤ)) = 53 := log_zpow (by norm_num) 53
    unfold lastBit
    rw [abs_of_nonneg (by positivity), show (2 : ℚ) ^ 53 = 2 ^ (53 : ℤ) by norm_cast, h]
    rfl
  unfold nearestDouble
  rw [if_neg (by positivity), hlog,
    show (2 : ℚ) ^ 53 / 2 ^ (1 : ℤ) = ((2 ^ 52 : ℤ) : ℚ) by norm_num, nearestInt_intCast]
  norm_num

/-- `q + 1` in doubles. -/
def plusOne (q : ℚ) : ℚ := nearestDouble (q + 1)

/-- The first integer that has no successor among the doubles. -/
theorem plusOne_two_pow_53 : plusOne (2 ^ 53) = 2 ^ 53 := by
  have hlog : lastBit (2 ^ 53 + 1) = 1 := by
    have hnat : Nat.log 2 (2 ^ 53 + 1) = 53 := by
      rw [Nat.log_eq_iff (by norm_num)]
      norm_num
    have h : log 2 ((2 ^ 53 + 1 : ℕ) : ℚ) = 53 := by
      rw [log_natCast, hnat]
      rfl
    unfold lastBit
    rw [abs_of_nonneg (by positivity),
      show (2 : ℚ) ^ 53 + 1 = ((2 ^ 53 + 1 : ℕ) : ℚ) by norm_num, h]
    rfl
  have hfloor : ⌊((2 : ℚ) ^ 53 + 1) / 2 ^ (1 : ℤ)⌋ = 2 ^ 52 := by
    rw [floor_eq_iff]
    norm_num
  have hhalf : nearestInt (((2 : ℚ) ^ 53 + 1) / 2 ^ (1 : ℤ)) = 2 ^ 52 := by
    unfold nearestInt
    rw [hfloor]
    norm_num
  unfold plusOne nearestDouble
  rw [if_neg (by positivity), hlog, hhalf]
  norm_num

/-- Up to the largest safe integer a double plus one is greater. -/
theorem lt_plusOne {q : ℚ} (hlow : -2 ^ 53 ≤ q) (hhigh : q ≤ 2 ^ 53 - 1) : q < plusOne q := by
  unfold plusOne
  rcases eq_or_lt_of_le hhigh with rfl | hlt
  · rw [show (2 : ℚ) ^ 53 - 1 + 1 = 2 ^ 53 by ring, nearestDouble_two_pow_53]
    norm_num
  · have hsmall : |q + 1| < 2 ^ 53 := by
      rw [abs_lt]
      constructor <;> linarith
    have hfloor : ((⌊q⌋ + 1 : ℤ) : ℚ) ≤ q + 1 := by
      push_cast
      linarith [floor_le q]
    calc q < ((⌊q⌋ + 1 : ℤ) : ℚ) := by
          push_cast
          exact lt_floor_add_one q
      _ ≤ nearestDouble (q + 1) := le_nearestDouble hsmall hfloor

end bbcom.doubles
