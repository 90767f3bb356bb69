import FluxTrack.Data.Quantiles
import FluxTrack.Scheduling.RoomReporting

/-!
# The shades of the heat grid

`_annotate_heat_steps` of `web/ifo.py`: every timetabled cell of the heat grid gets a step of the
ramp, by the rank of its percentage among the percentages of the grid that are not zero.

## Main definitions

* `usedPercentages`, `stepByValue` — the percentages, and the step of each
* `annotateHeatSteps`, `Db.heatGridCard` — `_annotate_heat_steps`, `_heat_grid_card`

## Main results

* `stepOf_eq_bucket` — the step of a percentage is its bucket
* `lookup_stepByValue` — the percentages that have a step
-/

namespace FluxTrack

/-- `HEAT_STEPS`. -/
def heatSteps : ℕ := 4

/-- A cell that is timetabled and not at zero percent. -/
def HeatCell.inUse (c : HeatCell) : Bool := c.timetabled && c.utilizationPct != 0

/-- `used`. -/
def usedPercentages (grid : List HeatRow) : List ℤ :=
  (((grid.flatMap HeatRow.cells).filter HeatCell.inUse).map
    HeatCell.utilizationPct).insertionSort (· ≤ ·)

/-- The step of a percentage; the ceiling is that of the floor of negatives. -/
def stepOf (used : List ℤ) (value : ℤ) : ℤ :=
  let rank : ℤ := used.idxOf value + used.count value
  max 1 (min heatSteps (-(-rank * heatSteps).fdiv used.length))

/-- `step_by_value`. -/
def stepByValue (used : List ℤ) : List (ℤ × ℤ) :=
  used.foldl (fun steps value =>
    if (steps.lookup value).isSome then steps else steps ++ [(value, stepOf used value)]) []

/-- A cell with its step. -/
structure SteppedCell where
  cell : HeatCell
  step : Option ℤ
  deriving DecidableEq

/-- A row with the steps of its cells. -/
structure SteppedRow where
  block : CampusBlock
  cells : List SteppedCell
  deriving DecidableEq

/-- `cell.step`. -/
def HeatCell.stepIn (steps : List (ℤ × ℤ)) (c : HeatCell) : SteppedCell :=
  ⟨c, if c.timetabled then some ((steps.lookup c.utilizationPct).getD 0) else none⟩

/-- `_annotate_heat_steps`. -/
def annotateHeatSteps (grid : List HeatRow) : List SteppedRow :=
  let steps := stepByValue (usedPercentages grid)
  grid.map fun row => ⟨row.block, row.cells.map (HeatCell.stepIn steps)⟩

/-- `_heat_grid_card`. -/
def Db.heatGridCard (db : Db) (scope : ReportScope) : Option (List SteppedRow) :=
  (db.roomHeatGrid scope).map annotateHeatSteps

/-! ### The steps -/

section

variable {used : List ℤ} {v : ℤ}

/-- The floor of a negative quotient is the ceiling, negated. -/
theorem neg_fdiv_neg {t : ℕ} (ht : 0 < t) (x : ℕ) : -(-(x : ℤ)).fdiv t = (x ⌈/⌉ t : ℕ) := by
  have ht' : (0 : ℤ) < t := Int.natCast_pos.mpr ht
  rw [Int.fdiv_eq_ediv_of_nonneg _ ht'.le]
  -- both are the least number whose multiple reaches the numerator
  have hle : ∀ k : ℤ, -(-(x : ℤ) / t) ≤ k ↔ (x : ℤ) ≤ t * k := by
    intro k
    rw [neg_le, Int.le_ediv_iff_mul_le ht', neg_mul, neg_le_neg_iff, mul_comm]
  apply le_antisymm
  · rw [hle]
    exact_mod_cast (ceilDiv_le_iff_le_mul ht).mp (le_refl (x ⌈/⌉ t))
  · have hself := (hle _).mp (le_refl (-(-(x : ℤ) / t)))
    have hnonneg : 0 ≤ -(-(x : ℤ) / t) := by
      by_contra hneg
      have hlt : (t : ℤ) * -(-(x : ℤ) / t) < 0 :=
        mul_neg_of_pos_of_neg ht' (not_le.mp hneg)
      omega
    obtain ⟨k, hk⟩ := Int.eq_ofNat_of_zero_le hnonneg
    rw [hk] at hself ⊢
    exact_mod_cast (ceilDiv_le_iff_le_mul ht).mpr (by exact_mod_cast hself)

/-- The step of a percentage is its bucket among the percentages; the two bounds change nothing. -/
theorem stepOf_eq_bucket (hsorted : used.Pairwise (· ≤ ·)) (hv : v ∈ used) :
    stepOf used v = Quantiles.bucket heatSteps used v := by
  have hrank : (used.idxOf v + used.count v : ℤ) = Quantiles.rank used v := by
    exact_mod_cast Quantiles.idxOf_add_count_eq_rank hsorted hv
  have hceil : -(-(Quantiles.rank used v : ℤ) * heatSteps).fdiv used.length =
      Quantiles.bucket heatSteps used v := by
    rw [neg_mul, ← Nat.cast_mul]
    exact neg_fdiv_neg (List.length_pos_of_mem hv) _
  have hpos := Quantiles.bucket_pos (m := heatSteps) (by decide) hv
  have hle : Quantiles.bucket heatSteps used v ≤ heatSteps := Quantiles.bucket_le hv
  rw [stepOf, hrank, hceil]
  omega

/-- A percentage has a step exactly if a cell shows it. -/
theorem lookup_stepByValue (used : List ℤ) (v : ℤ) :
    (stepByValue used).lookup v = if v ∈ used then some (stepOf used v) else none := by
  -- after a part of the list, the entries are those of the values in it
  have hfold : ∀ (l done : List ℤ) (steps : List (ℤ × ℤ)),
      (∀ w, steps.lookup w = if w ∈ done then some (stepOf used w) else none) →
      (l.foldl (fun steps value => if (steps.lookup value).isSome then steps
        else steps ++ [(value, stepOf used value)]) steps).lookup v =
        if v ∈ done ++ l then some (stepOf used v) else none := by
    intro l
    induction l with
    | nil =>
      intro done steps hsteps
      rw [List.append_nil]
      exact hsteps v
    | cons x l ih =>
      intro done steps hsteps
      rw [List.foldl_cons, List.append_cons done x l]
      refine ih (done ++ [x]) _ fun w => ?_
      rw [hsteps x]
      by_cases hx : x ∈ done
      · have hsame : w ∈ done ++ [x] ↔ w ∈ done := by
          rw [List.mem_append, List.mem_singleton]
          exact or_iff_left_of_imp fun h => h ▸ hx
        rw [if_pos hx, Option.isSome_some, if_pos rfl, hsteps w, if_congr hsame rfl rfl]
      · rw [if_neg hx, Option.isSome_none, if_neg Bool.false_ne_true, List.lookup_append, hsteps w]
        by_cases hw : w ∈ done
        · rw [if_pos hw, if_pos (List.mem_append_left _ hw), Option.some_or]
        · rw [if_neg hw, Option.none_or, List.lookup_cons]
          by_cases hwx : w = x
          · subst hwx
            simp
          · simp [hwx, hw, beq_false_of_ne hwx]
  have hall := hfold used [] [] fun w => by simp
  rwa [List.nil_append] at hall

end

end FluxTrack
