import FluxTrack.Scheduling.RoomReporting
import Mathlib.Data.List.MinMax

/-!
# The saturation ranking

`block_saturation` of `scheduling/reporting.py`: the heat grid reduced along the days, one row
for each block. A row adds up the hours the cells show, and its percentage is that of these
sums, so that the ranking agrees with the grid it stands next to.

## Main definitions

* `decimalHoursPct` — `_hours_pct` of decimal hours
* `HeatRow.load` — the row of a block
* `Db.blockSaturation` — the ranking
-/

namespace FluxTrack

/-- `_hours_pct`, as it is called on sums of decimal hours. -/
def decimalHoursPct (usedHours availableHours : ℚ) : ℤ :=
  if availableHours ≤ 0 then 0 else Rounding.halfUp (100 * usedHours / availableHours)

/-- The percentage of whole seconds is that of the same time in hours. -/
theorem decimalHoursPct_seconds (used available : ℤ) :
    decimalHoursPct (used / 3600) (available / 3600) = hoursPct used available := by
  unfold decimalHoursPct hoursPct
  have hsign : (available : ℚ) / 3600 ≤ 0 ↔ available ≤ 0 := by
    rw [div_le_iff₀ (by norm_num), zero_mul]
    exact Int.cast_nonpos
  by_cases hzero : available ≤ 0
  · rw [if_pos (hsign.mpr hzero), if_pos hzero]
  · rw [if_neg fun h => hzero (hsign.mp h), if_neg hzero, ← mul_div_assoc,
      div_div_div_cancel_right₀ (by norm_num)]
    push_cast
    rfl

/-- `BlockLoad`. -/
structure BlockLoad where
  block : CampusBlock
  usedHours : ℚ
  bookedHours : ℚ
  availableHours : ℚ
  utilizationPct : ℤ
  sessionCount : ℤ
  peakDay : Option ℕ
  deriving DecidableEq

/-- The row of a block: the sums over its cells, and the first of the busiest days unless
all of them show no use. -/
def HeatRow.load (row : HeatRow) : BlockLoad :=
  let used := (row.cells.map HeatCell.usedHours).sum
  let booked := (row.cells.map HeatCell.bookedHours).sum
  let available := (row.cells.map HeatCell.availableHours).sum
  { block := row.block
    usedHours := used
    bookedHours := booked
    availableHours := available
    utilizationPct := decimalHoursPct used available
    sessionCount := (row.cells.map HeatCell.sessionCount).sum
    peakDay := (row.cells.argmax HeatCell.usedHours).bind fun busiest =>
      if 0 < busiest.usedHours then some busiest.day else none }

/-- The order of the ranking: the higher percentage, then the earlier block. -/
def BlockLoad.before (a b : BlockLoad) : Prop :=
  b.utilizationPct < a.utilizationPct ∨
    a.utilizationPct = b.utilizationPct ∧ a.block.start.ticks ≤ b.block.start.ticks

instance : DecidableRel BlockLoad.before := fun _ _ =>
  inferInstanceAs (Decidable (_ ∨ _))

/-- `block_saturation`. -/
def Db.blockSaturation (db : Db) (scope : ReportScope) : List BlockLoad :=
  match db.roomHeatGrid scope with
  | none => []
  | some grid => (grid.map HeatRow.load).insertionSort BlockLoad.before

end FluxTrack
