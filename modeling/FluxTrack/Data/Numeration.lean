import Mathlib.Data.Nat.Notation
import Mathlib.Tactic.Ring

/-!
# Bijective numeration

Numerals in base `k` with the digits from `1` to `k` and no zero, the most significant digit first.

## Main definitions

* `Numeration.value`, `Numeration.digits` — the number of a numeral, and the numeral of a number

## Main results

* `value_digits` — a numeral stands for its number
* `mem_digits` — which digits there are
-/

namespace Numeration

variable {k n : ℕ}

/-- The number that digits write. -/
def value (k : ℕ) (ds : List ℕ) : ℕ := ds.foldl (fun n d => n * k + d) 0

theorem value_append_singleton (ds : List ℕ) (d : ℕ) :
    value k (ds ++ [d]) = value k ds * k + d := by
  rw [value, List.foldl_append]
  rfl

/-- The digits that write a number. -/
def digits (k : ℕ) : ℕ → List ℕ
  | 0 => []
  | n + 1 => digits k (n / k) ++ [n % k + 1]
  decreasing_by exact Nat.lt_succ_of_le (Nat.div_le_self n k)

theorem value_digits (n : ℕ) : value k (digits k n) = n := by
  induction n using digits.induct k with
  | case1 => rw [digits]; rfl
  | case2 n ih =>
    rw [digits, value_append_singleton, ih]
    have hdiv := Nat.div_add_mod' n k
    omega

theorem mem_digits (hk : 0 < k) {d : ℕ} (h : d ∈ digits k n) : 1 ≤ d ∧ d ≤ k := by
  induction n using digits.induct k with
  | case1 =>
    rw [digits] at h
    cases h
  | case2 n ih =>
    rw [digits, List.mem_append, List.mem_singleton] at h
    rcases h with h | rfl
    · exact ih h
    · exact ⟨Nat.le_add_left 1 _, Nat.mod_lt n hk⟩

end Numeration
