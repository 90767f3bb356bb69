import Mathlib.Algebra.Order.Round
import Mathlib.Algebra.Order.BigOperators.Group.List
import Mathlib.Data.Rat.Floor
import Mathlib.Tactic.FieldSimp
import Mathlib.Tactic.Linarith

/-!
# Decimal rounding

Rounding of exact quotients to a decimal place, ties away from zero.

## Main definitions

* `Rounding.halfUp` — to an integer
* `Rounding.quantize` — to a multiple of `1 / n`

## Main results

* `abs_quantize_sub_le` — how far a value moves
* `halfUp_eq_of_near` — a value that is nearer than every tie is rounded the same
* `abs_sum_quantize_sub_le` — how far a sum of rounded values is from the sum
-/

namespace Rounding

/-- The nearest integer, ties away from zero. -/
def halfUp (x : ℚ) : ℤ := if 0 ≤ x then round x else -round (-x)

theorem abs_halfUp_sub_le (x : ℚ) : |(halfUp x : ℚ) - x| ≤ 1 / 2 := by
  unfold halfUp
  split
  · rw [abs_sub_comm]
    exact abs_sub_round x
  · have hneg := abs_sub_round (-x)
    rw [Int.cast_neg, show -((round (-x) : ℤ) : ℚ) - x = -x - round (-x) by ring]
    exact hneg

theorem halfUp_of_nonneg {x : ℚ} (h : 0 ≤ x) : halfUp x = ⌊x + 1 / 2⌋ := by
  rw [halfUp, if_pos h, round_eq]

/-- A value that is nearer than every tie is rounded the same. -/
theorem halfUp_eq_of_near {x y : ℚ} (hx : 0 ≤ x) (hy : 0 ≤ y)
    (hnear : ∀ k : ℕ, x ≠ k + 1 / 2 → |y - x| < |x - (k + 1 / 2)|)
    (htie : ∀ k : ℕ, x = k + 1 / 2 → y = x) : halfUp y = halfUp x := by
  by_cases hex : ∃ k : ℕ, x = k + 1 / 2
  · obtain ⟨k, hk⟩ := hex
    rw [htie k hk]
  have hne : ∀ k : ℕ, x ≠ k + 1 / 2 := fun k hk => hex ⟨k, hk⟩
  rw [halfUp_of_nonneg hx, halfUp_of_nonneg hy]
  have hfloor : 0 ≤ ⌊x + 1 / 2⌋ := Int.floor_nonneg.mpr (by linarith)
  obtain ⟨k, hk⟩ := Int.eq_ofNat_of_zero_le hfloor
  obtain ⟨hlo, hhi⟩ := Int.floor_eq_iff.mp hk
  rw [Int.cast_natCast] at hlo hhi
  rw [hk, Int.floor_eq_iff, Int.cast_natCast]
  constructor
  · -- the tie below
    cases k with
    | zero =>
      rw [Nat.cast_zero]
      linarith
    | succ k =>
      have hlt := hnear k (hne k)
      push_cast at hlo ⊢
      rw [abs_of_nonneg (by linarith : (0 : ℚ) ≤ x - (k + 1 / 2))] at hlt
      linarith [(abs_lt.mp hlt).1]
  · -- the tie above
    have hlt := hnear k (hne k)
    rw [abs_of_nonpos (by linarith : x - (k + 1 / 2) ≤ 0)] at hlt
    linarith [(abs_lt.mp hlt).2]

/-- The nearest multiple of `1 / n`, ties away from zero. -/
def quantize (n : ℕ) (x : ℚ) : ℚ := halfUp (x * n) / n

variable {n : ℕ}

theorem abs_quantize_sub_le (hn : 0 < n) (x : ℚ) : |quantize n x - x| ≤ 1 / (2 * n) := by
  have hpos : (0 : ℚ) < n := by exact_mod_cast hn
  have hscale : quantize n x - x = ((halfUp (x * n) : ℚ) - x * n) / n := by
    unfold quantize
    field_simp
  rw [hscale, abs_div, abs_of_pos hpos, div_le_iff₀ hpos]
  calc |(halfUp (x * n) : ℚ) - x * n| ≤ 1 / 2 := abs_halfUp_sub_le _
    _ = 1 / (2 * n) * n := by field_simp

/-- A sum of rounded values is off by at most half a unit for each. -/
theorem abs_sum_quantize_sub_le (hn : 0 < n) (l : List ℚ) :
    |(l.map (quantize n)).sum - l.sum| ≤ l.length * (1 / (2 * n)) := by
  induction l with
  | nil => simp
  | cons x l ih =>
    have hx := abs_quantize_sub_le hn x
    rw [List.map_cons, List.sum_cons, List.sum_cons, List.length_cons]
    calc |quantize n x + (l.map (quantize n)).sum - (x + l.sum)|
        = |(quantize n x - x) + ((l.map (quantize n)).sum - l.sum)| := by ring_nf
      _ ≤ |quantize n x - x| + |(l.map (quantize n)).sum - l.sum| := abs_add_le _ _
      _ ≤ 1 / (2 * n) + l.length * (1 / (2 * n)) := add_le_add hx ih
      _ = ((l.length + 1 : ℕ) : ℚ) * (1 / (2 * n)) := by push_cast; ring

end Rounding
