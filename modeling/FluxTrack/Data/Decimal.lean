import FluxTrack.Data.Rounding
import Mathlib.Data.Int.Log

/-!
# Decimal arithmetic to a number of digits

A quotient is rounded to so many significant digits, ties to even, before it is quantized to a
decimal place, ties away from zero. The first rounding moves a value by at most half a unit of
its last digit, and leaves alone a value that has no more digits. A quotient of small numbers that
is not a tie of the second rounding is further from one than that, so the second rounding comes
out as if there had been no first.

## Main definitions

* `Decimal.round`, `Decimal.div` — to significant digits
* `Decimal.quantize?` — to a decimal place, if the digits suffice

## Main results

* `abs_round_sub_le`, `round_of_digits` — how far a value moves, and which values stay
* `quantize?_div`, `quantize?_div_div` — quantized quotients are exact
-/

namespace Decimal

open Rounding

/-- The nearest integer, ties to even. -/
def halfEven (z : ℚ) : ℤ :=
  if 2 * Int.fract z < 1 then ⌊z⌋
  else if 1 < 2 * Int.fract z then ⌊z⌋ + 1
  else if Even ⌊z⌋ then ⌊z⌋ else ⌊z⌋ + 1

theorem abs_halfEven_sub_le (z : ℚ) : |(halfEven z : ℚ) - z| ≤ 1 / 2 := by
  have hz := Int.floor_add_fract z
  have hnonneg := Int.fract_nonneg z
  have hlt := Int.fract_lt_one z
  unfold halfEven
  split_ifs <;> push_cast <;> rw [abs_le] <;> constructor <;> linarith

theorem halfEven_intCast (k : ℤ) : halfEven (k : ℚ) = k := by
  rw [halfEven, Int.fract_intCast, Int.floor_intCast, mul_zero, if_pos one_pos]

theorem halfEven_nonneg {z : ℚ} (h : 0 ≤ z) : 0 ≤ halfEven z := by
  have hfloor := Int.floor_nonneg.mpr h
  unfold halfEven
  split_ifs <;> omega

/-- The exponent of the last of `p` significant digits. -/
def place (p : ℕ) (x : ℚ) : ℤ := Int.log 10 |x| + 1 - p

/-- The nearest value of `p` significant digits, ties to an even last digit. -/
def round (p : ℕ) (x : ℚ) : ℚ := halfEven (x / 10 ^ place p x) * 10 ^ place p x

/-- The quotient of two decimals. -/
def div (p : ℕ) (x y : ℚ) : ℚ := round p (x / y)

/-- A multiple of `1 / n`, unless it has more than `p` digits. -/
def quantize? (p n : ℕ) (x : ℚ) : Option ℚ :=
  if |halfUp (x * n)| < 10 ^ p then some (quantize n x) else none

section

variable {p q m j : ℕ} {x : ℚ}

theorem round_nonneg (h : 0 ≤ x) : 0 ≤ round p x := by
  have hpow : (0 : ℚ) < 10 ^ place p x := zpow_pos (by norm_num) _
  have hcoeff : (0 : ℚ) ≤ halfEven (x / 10 ^ place p x) := by
    exact_mod_cast halfEven_nonneg (div_nonneg h hpow.le)
  exact mul_nonneg hcoeff hpow.le

/-- The last digit is small against the value. -/
theorem zpow_place_le (h : 0 < x) : (10 : ℚ) ^ place (q + 1) x ≤ x / 10 ^ q := by
  have hlog := Int.zpow_log_le_self (b := 10) (by decide) h
  have hplace : place (q + 1) x = Int.log 10 x - q := by
    rw [place, abs_of_pos h]
    push_cast
    ring
  rw [hplace, zpow_sub₀ (by norm_num), zpow_natCast]
  exact div_le_div_of_nonneg_right (by exact_mod_cast hlog) (by positivity)

/-- A value moves by half a unit of its last digit at most. -/
theorem abs_round_sub_le (h : 0 ≤ x) : |round (q + 1) x - x| ≤ x * (1 / (2 * 10 ^ q)) := by
  rcases h.eq_or_lt with rfl | hpos
  · have hzero : halfEven 0 = 0 := by exact_mod_cast halfEven_intCast 0
    simp [round, hzero]
  have hpow : (0 : ℚ) < 10 ^ place (q + 1) x := zpow_pos (by norm_num) _
  have hscale : round (q + 1) x - x =
      ((halfEven (x / 10 ^ place (q + 1) x) : ℚ) - x / 10 ^ place (q + 1) x) *
        10 ^ place (q + 1) x := by
    rw [round, sub_mul, div_mul_cancel₀ _ hpow.ne']
  rw [hscale, abs_mul, abs_of_pos hpow]
  calc |(halfEven (x / 10 ^ place (q + 1) x) : ℚ) - x / 10 ^ place (q + 1) x| *
        10 ^ place (q + 1) x ≤ 1 / 2 * (x / 10 ^ q) :=
        mul_le_mul (abs_halfEven_sub_le _) (zpow_place_le hpos) hpow.le (by norm_num)
    _ = x * (1 / (2 * 10 ^ q)) := by field_simp

/-- A value of no more digits stays as it is. -/
theorem round_of_digits (hm : m < 10 ^ p) : round p ((m : ℚ) / 10 ^ j) = m / 10 ^ j := by
  rcases Nat.eq_zero_or_pos m with rfl | hpos
  · have hzero : halfEven 0 = 0 := by exact_mod_cast halfEven_intCast 0
    simp [round, hzero]
  have hx : (0 : ℚ) < (m : ℚ) / 10 ^ j := by positivity
  -- the last place is not before the last digit
  have hplace : place p ((m : ℚ) / 10 ^ j) ≤ -j := by
    have hlt : (m : ℚ) / 10 ^ j < (10 : ℕ) ^ ((p : ℤ) - j) := by
      rw [Nat.cast_ofNat, zpow_sub₀ (by norm_num), zpow_natCast, zpow_natCast]
      exact div_lt_div_of_pos_right (by exact_mod_cast hm) (by positivity)
    have hlog := (Int.lt_zpow_iff_log_lt (by decide) hx).mp hlt
    rw [place, abs_of_pos hx]
    omega
  obtain ⟨d, hd⟩ := Int.le.dest hplace
  have hcoeff : (m : ℚ) / 10 ^ j / 10 ^ place p ((m : ℚ) / 10 ^ j) = ((m * 10 ^ d : ℕ) : ℤ) := by
    have hexp : place p ((m : ℚ) / 10 ^ j) = -((d : ℤ) + j) := by omega
    rw [hexp, zpow_neg, zpow_add₀ (by norm_num), zpow_natCast, zpow_natCast]
    push_cast
    field_simp
  rw [round, hcoeff, halfEven_intCast, ← hcoeff, div_mul_cancel₀]
  exact (zpow_pos (by norm_num) _).ne'

end

/-! ### Quantized quotients -/

section

variable {a b c n q j : ℕ} {y δ : ℚ}

/-- A quotient that is no tie is at least half a part from one. -/
theorem le_abs_sub_tie (hb : 0 < b) {k : ℕ} (hne : (a : ℚ) / b * n ≠ k + 1 / 2) :
    1 / (2 * b) ≤ |(a : ℚ) / b * n - (k + 1 / 2)| := by
  have hb' : (0 : ℚ) < b := by exact_mod_cast hb
  have hparts : (a : ℚ) / b * n - (k + 1 / 2) =
      ((2 * a * n - (2 * k + 1) * b : ℤ) : ℚ) / (2 * b) := by
    push_cast
    field_simp
  have hint : (2 * a * n - (2 * k + 1) * b : ℤ) ≠ 0 := by
    intro hzero
    rw [hzero, Int.cast_zero, zero_div, sub_eq_zero] at hparts
    exact hne hparts
  have hone : (1 : ℚ) ≤ |((2 * a * n - (2 * k + 1) * b : ℤ) : ℚ)| := by
    exact_mod_cast Int.one_le_abs hint
  rw [hparts, abs_div, abs_of_pos (by positivity : (0 : ℚ) < 2 * b)]
  exact div_le_div_of_nonneg_right hone (by positivity)

/-- A value close to a quotient is rounded as the quotient is, if it is the quotient where this is
a tie. -/
theorem halfUp_mul_eq (hb : 0 < b) (hy : 0 ≤ y) (hnear : |y - a / b| ≤ a / b * δ)
    (hsmall : 2 * n * a * δ < 1) (htie : ∀ k : ℕ, (a : ℚ) / b * n = k + 1 / 2 → y = a / b) :
    halfUp (y * n) = halfUp ((a : ℚ) / b * n) := by
  have hb' : (0 : ℚ) < b := by exact_mod_cast hb
  refine halfUp_eq_of_near (by positivity) (by positivity) (fun k hne => ?_) fun k hk => ?_
  · -- the tie is further from the quotient than the value is
    refine lt_of_lt_of_le ?_ (le_abs_sub_tie hb hne)
    rw [← sub_mul, abs_mul, abs_of_nonneg (by positivity : (0 : ℚ) ≤ n)]
    calc |y - a / b| * n ≤ a / b * δ * n := mul_le_mul_of_nonneg_right hnear (by positivity)
      _ = 2 * n * a * δ / (2 * b) := by field_simp
      _ < 1 / (2 * b) := div_lt_div_of_pos_right hsmall (by positivity)
  · rw [htie k hk]

/-- The value of a tie has one digit behind the place. -/
theorem eq_of_tie (hb : 0 < b) {k : ℕ} (hk : (a : ℚ) / b * (10 ^ j : ℕ) = k + 1 / 2) :
    (a : ℚ) / b = ((5 * (2 * k + 1) : ℕ) : ℚ) / 10 ^ (j + 1) ∧
      5 * (2 * k + 1) ≤ 10 * (10 ^ j * a) := by
  have hb' : (0 : ℚ) < b := by exact_mod_cast hb
  constructor
  · rw [eq_div_iff (by positivity)]
    push_cast at hk ⊢
    rw [pow_succ]
    linarith
  · have hle : (a : ℚ) / b * (10 ^ j : ℕ) ≤ a * (10 ^ j : ℕ) :=
      mul_le_mul_of_nonneg_right (div_le_self (by positivity) (by exact_mod_cast hb))
        (by positivity)
    have hcast : (5 * (2 * k + 1) : ℚ) ≤ 10 * (10 ^ j * a) := by
      push_cast at hk hle
      linarith
    exact_mod_cast hcast

/-- A quotient that is small enough keeps its digits. -/
theorem abs_halfUp_lt (hb : 0 < b) (hsmall : 10 ^ j * a < 10 ^ q) :
    |halfUp ((a : ℚ) / b * (10 ^ j : ℕ))| < 10 ^ (q + 1) := by
  have hnonneg : (0 : ℚ) ≤ (a : ℚ) / b * (10 ^ j : ℕ) := by positivity
  have hle : (a : ℚ) / b * (10 ^ j : ℕ) ≤ a * (10 ^ j : ℕ) :=
    mul_le_mul_of_nonneg_right (div_le_self (by positivity) (by exact_mod_cast hb)) (by positivity)
  have hcast : (a : ℚ) * (10 ^ j : ℕ) < 10 ^ q := by
    rw [mul_comm]
    exact_mod_cast hsmall
  have hone : (1 : ℚ) ≤ 10 ^ q := one_le_pow₀ (by norm_num)
  rw [halfUp_of_nonneg hnonneg, abs_of_nonneg (Int.floor_nonneg.mpr (by linarith)), Int.floor_lt]
  push_cast at hle hcast ⊢
  rw [pow_succ]
  linarith

/-- A quotient that is close to the exact one is quantized as this is. -/
theorem quantize?_eq (hb : 0 < b) (hsmall : 10 ^ j * a < 10 ^ q)
    (hsame : halfUp (y * (10 ^ j : ℕ)) = halfUp ((a : ℚ) / b * (10 ^ j : ℕ))) :
    quantize? (q + 1) (10 ^ j) y = some (quantize (10 ^ j) ((a : ℚ) / b)) := by
  rw [quantize?, quantize, hsame, if_pos (abs_halfUp_lt hb hsmall)]
  rfl

/-- A quantized quotient is exact. -/
theorem quantize?_div (hb : 0 < b) (hsmall : 10 ^ j * a < 10 ^ q) :
    quantize? (q + 1) (10 ^ j) (div (q + 1) a b) = some (quantize (10 ^ j) ((a : ℚ) / b)) := by
  have hnonneg : (0 : ℚ) ≤ a / b := by positivity
  refine quantize?_eq hb hsmall ?_
  refine halfUp_mul_eq hb (round_nonneg hnonneg) (abs_round_sub_le hnonneg) ?_ fun k hk => ?_
  · have hcast : ((10 ^ j : ℕ) : ℚ) * a < 10 ^ q := by exact_mod_cast hsmall
    rw [mul_one_div, div_lt_one (by positivity)]
    linarith
  · -- a tie has few digits, and is not rounded before it is quantized
    obtain ⟨hvalue, hdigits⟩ := eq_of_tie hb hk
    rw [div, hvalue]
    exact round_of_digits (by rw [pow_succ]; omega)

/-- Two divisions move a value by less than thrice what one does. -/
theorem abs_div_div_sub_le (hb : 0 < b) (hc : 0 < c) :
    |div (q + 1) (div (q + 1) a b) c - a / ((b * c : ℕ) : ℚ)| ≤
      a / ((b * c : ℕ) : ℚ) * (3 * (1 / (2 * 10 ^ q))) := by
  have hb' : (0 : ℚ) < b := by exact_mod_cast hb
  have hc' : (0 : ℚ) < c := by exact_mod_cast hc
  have hunit : (1 : ℚ) / (2 * 10 ^ q) ≤ 1 := by
    rw [div_le_one (by positivity)]
    linarith [one_le_pow₀ (by norm_num : (1 : ℚ) ≤ 10) (n := q)]
  have hunit0 : (0 : ℚ) ≤ 1 / (2 * 10 ^ q) := by positivity
  have hx : (0 : ℚ) ≤ a / b := by positivity
  have hfirst := abs_round_sub_le (q := q) hx
  have hsecond := abs_round_sub_le (q := q) (div_nonneg (round_nonneg (p := q + 1) hx) hc'.le)
  generalize (1 : ℚ) / (2 * 10 ^ q) = u at *
  rw [Nat.cast_mul, ← div_div, div]
  -- the second division adds half a unit of what the first has made of the quotient
  have hfirst' : |div (q + 1) a b / c - a / b / c| ≤ a / b / c * u := by
    rw [← sub_div, abs_div, abs_of_pos hc', div_mul_eq_mul_div]
    exact div_le_div_of_nonneg_right hfirst hc'.le
  have hexact : (0 : ℚ) ≤ a / b / c := by positivity
  have hsquare : (a : ℚ) / b / c * (u * u) ≤ a / b / c * u :=
    mul_le_mul_of_nonneg_left (mul_le_of_le_one_left hunit0 hunit) hexact
  have hgrow : div (q + 1) a b / c * u ≤ (a / b / c + a / b / c * u) * u :=
    mul_le_mul_of_nonneg_right (by linarith [(abs_le.mp hfirst').2]) hunit0
  calc |round (q + 1) (div (q + 1) a b / c) - a / b / c|
      ≤ |round (q + 1) (div (q + 1) a b / c) - div (q + 1) a b / c| +
        |div (q + 1) a b / c - a / b / c| := abs_sub_le _ _ _
    _ ≤ div (q + 1) a b / c * u + a / b / c * u := add_le_add hsecond hfirst'
    _ ≤ a / b / c * (3 * u) := by linarith

/-- A quotient that is divided again and quantized is exact. -/
theorem quantize?_div_div (hb : 0 < b) (hc : 0 < c) (hsmall : 3 * (10 ^ j * a) < 10 ^ q) :
    quantize? (q + 1) (10 ^ j) (div (q + 1) (div (q + 1) a b) c) =
      some (quantize (10 ^ j) ((a : ℚ) / ((b * c : ℕ) : ℚ))) := by
  have hbc : 0 < b * c := Nat.mul_pos hb hc
  have hnonneg : (0 : ℚ) ≤ a / b := by positivity
  refine quantize?_eq hbc (by omega) ?_
  refine halfUp_mul_eq hbc (round_nonneg (div_nonneg (round_nonneg hnonneg) (by positivity)))
    (abs_div_div_sub_le hb hc) ?_ fun k hk => ?_
  · have hcast : 3 * (((10 ^ j : ℕ) : ℚ) * a) < 10 ^ q := by exact_mod_cast hsmall
    rw [mul_one_div, mul_div_assoc', div_lt_one (by positivity)]
    linarith
  · -- the first quotient is a multiple of the tie, with as many places
    obtain ⟨hvalue, hdigits⟩ := eq_of_tie hbc hk
    have hc' : (c : ℚ) ≠ 0 := by exact_mod_cast hc.ne'
    have hfirst : (a : ℚ) / b = ((c * (5 * (2 * k + 1)) : ℕ) : ℚ) / 10 ^ (j + 1) := by
      rw [Nat.cast_mul, mul_div_assoc, ← hvalue, Nat.cast_mul]
      field_simp
    have hkept : c * (5 * (2 * k + 1)) < 10 ^ (q + 1) := by
      have hle : (a : ℚ) / b ≤ a := div_le_self (by positivity) (by exact_mod_cast hb)
      rw [hfirst, div_le_iff₀ (by positivity)] at hle
      have hle' : c * (5 * (2 * k + 1)) ≤ a * 10 ^ (j + 1) := by exact_mod_cast hle
      rw [pow_succ] at hle' ⊢
      nlinarith
    rw [div, div, hfirst, round_of_digits hkept, ← hfirst, div_div, ← Nat.cast_mul, hvalue]
    exact round_of_digits (by rw [pow_succ]; omega)

end

end Decimal
