import FluxTrack.Data.Decimal
import FluxTrack.Scheduling.RoomReporting

/-!
# The figures in decimal arithmetic

The source divides decimals of 28 digits before it rounds a figure. For counts and seconds below
`10 ^ 20` the digits suffice: the figures are those of the exact quotients.

## Main definitions

* `pctByDecimals`, `hoursPctByDecimals`, `hoursByDecimals`, `avgMinutesByDecimals` — the figures as
  computed

## Main results

* `decimal_figures_exact` — they are the rounded quotients
* `pctByDecimals_eq_pct` and the like — they are the figures of the reports
-/

namespace FluxTrack

open Rounding

/-- `getcontext().prec`, which nothing in the source changes. -/
def precision : ℕ := 28

/-- `int` of a decimal drops the places. -/
def intOfDecimal (x : ℚ) : ℤ := x.num.tdiv x.den

@[simp]
theorem intOfDecimal_intCast (k : ℤ) : intOfDecimal k = k := by simp [intOfDecimal]

/-- `_pct`, `none` where `quantize` raises. -/
def pctByDecimals (held scheduled : ℤ) : Option ℤ :=
  if scheduled = 0 then some 0
  else (Decimal.quantize? precision 1 (Decimal.div precision (100 * held : ℤ) scheduled)).map
    intOfDecimal

/-- `_hours_pct`. -/
def hoursPctByDecimals (usedSeconds availableSeconds : ℤ) : Option ℤ :=
  if availableSeconds = 0 ∨ availableSeconds ≤ 0 then some 0
  else (Decimal.quantize? precision 1
    (Decimal.div precision (100 * usedSeconds : ℤ) availableSeconds)).map intOfDecimal

/-- `_hours`. -/
def hoursByDecimals (seconds : ℤ) : Option ℚ :=
  Decimal.quantize? precision 10 (Decimal.div precision seconds 3600)

/-- `_avg_minutes`. -/
def avgMinutesByDecimals (totalSeconds heldWithStart : ℤ) : Option ℚ :=
  if heldWithStart = 0 then some 0
  else Decimal.quantize? precision 10
    (Decimal.div precision (Decimal.div precision totalSeconds heldWithStart) 60)

section

variable {a b : ℕ}

/-- A percentage has enough digits. -/
theorem quantize_percentage (ha : a < 10 ^ 20) (hb : 0 < b) :
    (Decimal.quantize? precision 1 (Decimal.div precision (100 * a : ℤ) (b : ℤ))).map
      intOfDecimal = some (halfUp ((100 * a : ℚ) / b)) := by
  have hquotient := Decimal.quantize?_div (a := 100 * a) (b := b) (j := 0) (q := 27) hb
    (by omega)
  push_cast [pow_zero] at hquotient ⊢
  rw [precision, hquotient, Option.map_some, quantize, Nat.cast_one, mul_one, div_one,
    intOfDecimal_intCast]

theorem pctByDecimals_eq (ha : a < 10 ^ 20) (hb : 0 < b) :
    pctByDecimals a b = some (halfUp ((100 * a : ℚ) / b)) := by
  rw [pctByDecimals, if_neg (by omega)]
  exact quantize_percentage ha hb

theorem hoursPctByDecimals_eq (ha : a < 10 ^ 20) (hb : 0 < b) :
    hoursPctByDecimals a b = some (halfUp ((100 * a : ℚ) / b)) := by
  rw [hoursPctByDecimals, if_neg (by omega)]
  exact quantize_percentage ha hb

theorem hoursByDecimals_eq (ha : a < 10 ^ 20) :
    hoursByDecimals a = some (quantize 10 ((a : ℚ) / 3600)) := by
  have hquotient := Decimal.quantize?_div (a := a) (b := 3600) (j := 1) (q := 27) (by decide)
    (by omega)
  push_cast [pow_one] at hquotient
  rw [hoursByDecimals, precision, Int.cast_natCast]
  exact hquotient

theorem avgMinutesByDecimals_eq (ha : a < 10 ^ 20) (hb : 0 < b) :
    avgMinutesByDecimals a b = some (quantize 10 ((a : ℚ) / (60 * b))) := by
  have hquotient := Decimal.quantize?_div_div (a := a) (b := b) (c := 60) (j := 1) (q := 27) hb
    (by decide) (by omega)
  push_cast [pow_one] at hquotient
  rw [avgMinutesByDecimals, if_neg (by omega), precision, Int.cast_natCast, Int.cast_natCast,
    mul_comm (60 : ℚ)]
  exact hquotient

/-! ### The figures of the reports -/

theorem pctByDecimals_eq_pct (ha : a < 10 ^ 20) : pctByDecimals a b = some (pct a b) := by
  rcases Nat.eq_zero_or_pos b with rfl | hb
  · rfl
  · rw [pctByDecimals_eq ha hb, pct, if_neg hb.ne']
    push_cast
    rfl

theorem hoursPctByDecimals_eq_hoursPct (ha : a < 10 ^ 20) :
    hoursPctByDecimals a b = some (hoursPct a b) := by
  rcases Nat.eq_zero_or_pos b with rfl | hb
  · rfl
  · rw [hoursPctByDecimals_eq ha hb, hoursPct, if_neg (by omega)]
    push_cast
    rfl

theorem hoursByDecimals_eq_hours (ha : a < 10 ^ 20) : hoursByDecimals a = some (hours a) := by
  rw [hoursByDecimals_eq ha, hours, Int.cast_natCast]

theorem avgMinutesByDecimals_eq_avgMinutes (ha : a < 10 ^ 20) :
    avgMinutesByDecimals a b = some (avgMinutes a b) := by
  rcases Nat.eq_zero_or_pos b with rfl | hb
  · rfl
  · rw [avgMinutesByDecimals_eq ha hb, avgMinutes, if_neg hb.ne', div_div, mul_comm (60 : ℚ),
      Int.cast_natCast]

/-- The figures are the exact quotients, rounded half up. -/
theorem decimal_figures_exact (ha : a < 10 ^ 20) (hb : 0 < b) :
    pctByDecimals a b = some (halfUp ((100 * a : ℚ) / b)) ∧
      hoursPctByDecimals a b = some (halfUp ((100 * a : ℚ) / b)) ∧
      hoursByDecimals a = some (quantize 10 ((a : ℚ) / 3600)) ∧
      avgMinutesByDecimals a b = some (quantize 10 ((a : ℚ) / (60 * b))) :=
  ⟨pctByDecimals_eq ha hb, hoursPctByDecimals_eq ha hb, hoursByDecimals_eq ha,
    avgMinutesByDecimals_eq ha hb⟩

/-- One in eight is a tie of the percentages. -/
theorem decimal_figures_exact_eighth :
    pctByDecimals (1 : ℕ) (8 : ℕ) = some (halfUp ((100 * (1 : ℕ) : ℚ) / (8 : ℕ))) ∧
      halfUp ((100 * (1 : ℕ) : ℚ) / (8 : ℕ)) = 13 := by
  refine ⟨(decimal_figures_exact (a := 1) (b := 8) (by decide) (by decide)).1, ?_⟩
  rw [halfUp_of_nonneg (by norm_num)]
  norm_num

end

end FluxTrack
