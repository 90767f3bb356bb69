import FluxTrack.Theorems.Saturation
import FluxTrack.Web.HeatSteps

/-!
# The ramp of the heat grid

The steps of the heat grid are those of the ranks: no step where there is no timetable, the lowest
for zero percent, and the other four in the order of the percentages, each group of them with no
more than its share of the cells.

## Main definitions

* `RankRamp` — cells whose steps are a ramp by rank
* `ProperGrid` — a grid without negative percentages

## Main results

* `annotateHeatSteps_ramp` — the steps of the grid are such a ramp
-/

namespace FluxTrack

/-- The cell is timetabled and not at zero percent. -/
def SteppedCell.inUse (c : SteppedCell) : Bool := c.cell.inUse

/-- The steps of the cells are a ramp by rank. Below zero percent, where no grid of a database has a
cell, the order says nothing about zero percent. -/
structure RankRamp (cells : List SteppedCell) : Prop where
  absent : ∀ c ∈ cells, c.step = none ↔ c.cell.timetabled = false
  idle : ∀ c ∈ cells, c.step = some 0 ↔ c.cell.timetabled = true ∧ c.cell.utilizationPct = 0
  used : ∀ c ∈ cells, c.inUse = true ↔ ∃ k : ℕ, c.step = some (k : ℤ) ∧ 1 ≤ k ∧ k ≤ 4
  tied : ∀ a ∈ cells, ∀ b ∈ cells, a.cell.timetabled = true → b.cell.timetabled = true →
    a.cell.utilizationPct = b.cell.utilizationPct → a.step = b.step
  ordered : ∀ a ∈ cells, ∀ b ∈ cells, a.cell.utilizationPct < b.cell.utilizationPct →
    b.cell.utilizationPct ≠ 0 → ∀ i j, a.step = some i → b.step = some j → i ≤ j
  top : ∀ c ∈ cells, c.inUse = true →
    (∀ b ∈ cells, b.inUse = true → b.cell.utilizationPct ≤ c.cell.utilizationPct) →
    c.step = some 4
  share : ∀ k : ℕ, k ∈ [1, 2, 3] →
    4 * cells.countP (fun c => c.inUse && c.step.any fun step => decide (step ≤ (k : ℤ))) ≤
      k * cells.countP SteppedCell.inUse

/-- The grid has no negative percentage. -/
def ProperGrid (grid : List HeatRow) : Prop :=
  ∀ row ∈ grid, ∀ c ∈ row.cells, 0 ≤ c.utilizationPct

section

variable {grid : List HeatRow} {c : HeatCell}

theorem mem_usedPercentages {v : ℤ} :
    v ∈ usedPercentages grid ↔
      ∃ c ∈ grid.flatMap HeatRow.cells, c.inUse = true ∧ c.utilizationPct = v := by
  rw [usedPercentages, List.mem_insertionSort, List.mem_map]
  simp only [List.mem_filter, and_assoc]

/-- The percentages are those of the cells in use, in another order. -/
theorem usedPercentages_perm (grid : List HeatRow) :
    (usedPercentages grid).Perm (((grid.flatMap HeatRow.cells).filter HeatCell.inUse).map
      HeatCell.utilizationPct) :=
  List.perm_insertionSort _ _

theorem pairwise_usedPercentages (grid : List HeatRow) :
    (usedPercentages grid).Pairwise (· ≤ ·) :=
  List.pairwise_insertionSort _ _

/-- The cells of the annotated grid, in order. -/
theorem cells_annotateHeatSteps (grid : List HeatRow) :
    (annotateHeatSteps grid).flatMap SteppedRow.cells = (grid.flatMap HeatRow.cells).map
      (HeatCell.stepIn (stepByValue (usedPercentages grid))) := by
  rw [annotateHeatSteps, List.flatMap_map, List.map_flatMap]

/-- The step of a cell. -/
def HeatCell.stepOn (grid : List HeatRow) (c : HeatCell) : Option ℤ :=
  (c.stepIn (stepByValue (usedPercentages grid))).step

theorem stepOn_of_not_timetabled (h : c.timetabled = false) : c.stepOn grid = none := by
  rw [HeatCell.stepOn, HeatCell.stepIn, h]
  rfl

theorem stepOn_of_idle (h : c.timetabled = true) (hzero : c.utilizationPct = 0) :
    c.stepOn grid = some 0 := by
  have hnot : (0 : ℤ) ∉ usedPercentages grid := by
    rw [mem_usedPercentages]
    rintro ⟨b, -, huse, hb⟩
    simp [HeatCell.inUse, hb] at huse
  rw [HeatCell.stepOn, HeatCell.stepIn, h, if_pos rfl, hzero, lookup_stepByValue, if_neg hnot]
  rfl

/-- A cell in use has the bucket of its percentage. -/
theorem stepOn_of_inUse (hc : c ∈ grid.flatMap HeatRow.cells) (h : c.inUse = true) :
    c.stepOn grid =
      some (Quantiles.bucket heatSteps (usedPercentages grid) c.utilizationPct : ℤ) := by
  have hmem : c.utilizationPct ∈ usedPercentages grid := mem_usedPercentages.mpr ⟨c, hc, h, rfl⟩
  have htimetabled : c.timetabled = true := (Bool.and_eq_true_iff.mp h).1
  rw [HeatCell.stepOn, HeatCell.stepIn, htimetabled, if_pos rfl, lookup_stepByValue, if_pos hmem,
    Option.getD_some, stepOf_eq_bucket (pairwise_usedPercentages grid) hmem]

/-- The three kinds of cells. -/
theorem stepOn_cases (hc : c ∈ grid.flatMap HeatRow.cells) :
    c.timetabled = false ∧ c.stepOn grid = none ∨
    c.timetabled = true ∧ c.utilizationPct = 0 ∧ c.stepOn grid = some 0 ∨
    c.inUse = true ∧ c.stepOn grid =
      some (Quantiles.bucket heatSteps (usedPercentages grid) c.utilizationPct : ℤ) := by
  cases htimetabled : c.timetabled with
  | false => exact .inl ⟨rfl, stepOn_of_not_timetabled htimetabled⟩
  | true =>
    by_cases hzero : c.utilizationPct = 0
    · exact .inr (.inl ⟨rfl, hzero, stepOn_of_idle htimetabled hzero⟩)
    · have huse : c.inUse = true := by
        rw [HeatCell.inUse, htimetabled, Bool.true_and]
        exact bne_iff_ne.mpr hzero
      exact .inr (.inr ⟨huse, stepOn_of_inUse hc huse⟩)

/-- The bucket of a cell in use is one of the four. -/
theorem bucket_mem_steps (hc : c ∈ grid.flatMap HeatRow.cells) (h : c.inUse = true) :
    1 ≤ Quantiles.bucket heatSteps (usedPercentages grid) c.utilizationPct ∧
      Quantiles.bucket heatSteps (usedPercentages grid) c.utilizationPct ≤ 4 := by
  have hmem : c.utilizationPct ∈ usedPercentages grid := mem_usedPercentages.mpr ⟨c, hc, h, rfl⟩
  exact ⟨Quantiles.bucket_pos (by decide) hmem, Quantiles.bucket_le hmem⟩

/-- The cells in use with a low step are the percentages in a low bucket. -/
theorem countP_stepOn_le (grid : List HeatRow) (k : ℕ) :
    (grid.flatMap HeatRow.cells).countP
        (fun c => c.inUse && (c.stepOn grid).any fun step => decide (step ≤ (k : ℤ))) =
      (usedPercentages grid).countP fun v =>
        decide (Quantiles.bucket heatSteps (usedPercentages grid) v ≤ k) := by
  rw [(usedPercentages_perm grid).countP_eq, List.countP_map, List.countP_filter]
  refine List.countP_congr fun c hc => ?_
  cases huse : c.inUse with
  | false => simp
  | true =>
    rw [stepOn_of_inUse hc huse]
    simp

theorem length_usedPercentages (grid : List HeatRow) :
    (usedPercentages grid).length = (grid.flatMap HeatRow.cells).countP HeatCell.inUse := by
  rw [(usedPercentages_perm grid).length_eq, List.length_map, List.countP_eq_length_filter]

theorem stepOn_eq_none_iff (hc : c ∈ grid.flatMap HeatRow.cells) :
    c.stepOn grid = none ↔ c.timetabled = false := by
  rcases stepOn_cases hc with ⟨hoff, hstep⟩ | ⟨hon, -, hstep⟩ | ⟨huse, hstep⟩
  · exact iff_of_true hstep hoff
  · rw [hstep, hon]
    simp
  · rw [hstep, (Bool.and_eq_true_iff.mp huse).1]
    simp

theorem stepOn_eq_zero_iff (hc : c ∈ grid.flatMap HeatRow.cells) :
    c.stepOn grid = some 0 ↔ c.timetabled = true ∧ c.utilizationPct = 0 := by
  rcases stepOn_cases hc with ⟨hoff, hstep⟩ | ⟨hon, hzero, hstep⟩ | ⟨huse, hstep⟩
  · rw [hstep, hoff]
    simp
  · exact iff_of_true hstep ⟨hon, hzero⟩
  · have hbucket := (bucket_mem_steps hc huse).1
    have hpct := bne_iff_ne.mp (Bool.and_eq_true_iff.mp huse).2
    refine iff_of_false (fun hsome => ?_) fun hidle => hpct hidle.2
    rw [hstep, Option.some.injEq] at hsome
    omega

/-- The other four steps are for the cells in use. -/
theorem inUse_iff_stepOn (hc : c ∈ grid.flatMap HeatRow.cells) :
    c.inUse = true ↔ ∃ k : ℕ, c.stepOn grid = some (k : ℤ) ∧ 1 ≤ k ∧ k ≤ 4 := by
  rcases stepOn_cases hc with ⟨hoff, hstep⟩ | ⟨-, hzero, hstep⟩ | ⟨huse, hstep⟩
  · rw [hstep, HeatCell.inUse, hoff]
    simp
  · -- the step is none of the four
    rw [hstep, HeatCell.inUse, hzero, bne_self_eq_false, Bool.and_false]
    refine iff_of_false Bool.false_ne_true ?_
    rintro ⟨k, hk, hpos, -⟩
    rw [Option.some.injEq] at hk
    omega
  · exact iff_of_true huse ⟨_, hstep, bucket_mem_steps hc huse⟩

/-- A higher percentage has no lower step. -/
theorem stepOn_mono {a b : HeatCell} (ha : a ∈ grid.flatMap HeatRow.cells)
    (hb : b ∈ grid.flatMap HeatRow.cells) (hpct : a.utilizationPct < b.utilizationPct)
    (hne : b.utilizationPct ≠ 0) {i j : ℤ} (hi : a.stepOn grid = some i)
    (hj : b.stepOn grid = some j) : i ≤ j := by
  rcases stepOn_cases hb with ⟨-, hstepb⟩ | ⟨-, hzero, -⟩ | ⟨huseb, hstepb⟩
  · rw [hstepb] at hj
    cases hj
  · exact absurd hzero hne
  obtain rfl := Option.some.inj (hstepb.symm.trans hj)
  rcases stepOn_cases ha with ⟨-, hstepa⟩ | ⟨-, -, hstepa⟩ | ⟨husea, hstepa⟩
  · rw [hstepa] at hi
    cases hi
  · -- zero percent has the lowest step
    obtain rfl := Option.some.inj (hstepa.symm.trans hi)
    exact Int.natCast_nonneg _
  · obtain rfl := Option.some.inj (hstepa.symm.trans hi)
    exact_mod_cast Quantiles.bucket_mono (mem_usedPercentages.mpr ⟨a, ha, husea, rfl⟩)
      (mem_usedPercentages.mpr ⟨b, hb, huseb, rfl⟩) hpct.le

/-- The greatest percentage has the last step. -/
theorem stepOn_of_max (hc : c ∈ grid.flatMap HeatRow.cells) (huse : c.inUse = true)
    (hmax : ∀ b ∈ grid.flatMap HeatRow.cells, b.inUse = true →
      b.utilizationPct ≤ c.utilizationPct) : c.stepOn grid = some 4 := by
  have hmem : c.utilizationPct ∈ usedPercentages grid := mem_usedPercentages.mpr ⟨c, hc, huse, rfl⟩
  rw [stepOn_of_inUse hc huse, Quantiles.bucket_of_max hmem]
  · rfl
  · intro v hv
    obtain ⟨b, hb, huseb, rfl⟩ := mem_usedPercentages.mp hv
    exact hmax b hb huseb

theorem rankRamp_annotateHeatSteps (grid : List HeatRow) :
    RankRamp ((annotateHeatSteps grid).flatMap SteppedRow.cells) := by
  rw [cells_annotateHeatSteps]
  constructor
  · exact List.forall_mem_map.mpr fun c hc => stepOn_eq_none_iff hc
  · exact List.forall_mem_map.mpr fun c hc => stepOn_eq_zero_iff hc
  · exact List.forall_mem_map.mpr fun c hc => inUse_iff_stepOn hc
  · refine List.forall_mem_map.mpr fun a _ => List.forall_mem_map.mpr fun b _ hona honb hpct => ?_
    change a.timetabled = true at hona
    change b.timetabled = true at honb
    change a.utilizationPct = b.utilizationPct at hpct
    simp only [HeatCell.stepIn, hona, honb, hpct]
  · exact List.forall_mem_map.mpr fun a ha => List.forall_mem_map.mpr fun b hb hpct hne _ _ =>
      stepOn_mono ha hb hpct hne
  · exact List.forall_mem_map.mpr fun c hc huse hmax =>
      stepOn_of_max hc huse (List.forall_mem_map.mp hmax)
  · intro k _
    rw [List.countP_map, List.countP_map]
    change 4 * (grid.flatMap HeatRow.cells).countP
        (fun c => c.inUse && (c.stepOn grid).any fun step => decide (step ≤ (k : ℤ))) ≤
      k * (grid.flatMap HeatRow.cells).countP HeatCell.inUse
    rw [countP_stepOn_le, ← length_usedPercentages]
    exact Quantiles.mul_countP_bucket_le heatSteps k _

theorem map_annotateHeatSteps (grid : List HeatRow) :
    ((annotateHeatSteps grid).map fun row =>
      (⟨row.block, row.cells.map SteppedCell.cell⟩ : HeatRow)) = grid := by
  rw [annotateHeatSteps, List.map_map]
  refine List.map_id'' (fun row => ?_) grid
  simp only [Function.comp_apply, List.map_map]
  exact congrArg (HeatRow.mk row.block) (List.map_id _)

end

theorem hoursPct_nonneg {used available : ℤ} (h : 0 ≤ used) : 0 ≤ hoursPct used available := by
  unfold hoursPct
  split
  · exact le_refl 0
  · rename_i hpos
    have hquot : (0 : ℚ) ≤ (100 * used : ℤ) / (available : ℚ) :=
      div_nonneg (by exact_mod_cast mul_nonneg (by decide) h) (by exact_mod_cast (not_le.mp hpos).le)
    rw [Rounding.halfUp_of_nonneg hquot]
    exact Int.floor_nonneg.mpr (by positivity)

/-- The grid of a database has no negative percentage. -/
theorem properGrid_roomHeatGrid {db : Db} {scope : ReportScope} {grid : List HeatRow}
    (h : db.roomHeatGrid scope = some grid) : ProperGrid grid := by
  obtain ⟨blocks, hladder, rfl⟩ := Option.map_eq_some_iff.mp h
  intro row hrow c hc
  obtain ⟨p, -, rfl⟩ := List.mem_map.mp hrow
  obtain ⟨day, -, rfl⟩ := List.mem_map.mp hc
  exact hoursPct_nonneg
    (heatAcc_used_nonneg (fun b hb => weight_pos_of_ladder hladder hb) db scope _)

/-- The steps of a grid are a ramp by rank on its cells, and no grid of a database has a negative
percentage. -/
theorem annotateHeatSteps_ramp :
    (∀ grid : List HeatRow,
      RankRamp ((annotateHeatSteps grid).flatMap SteppedRow.cells) ∧
      ((annotateHeatSteps grid).map fun row =>
        (⟨row.block, row.cells.map SteppedCell.cell⟩ : HeatRow)) = grid) ∧
    ∀ (db : Db) (scope : ReportScope) (grid : List HeatRow),
      db.roomHeatGrid scope = some grid → ProperGrid grid :=
  ⟨fun grid => ⟨rankRamp_annotateHeatSteps grid, map_annotateHeatSteps grid⟩,
    fun _ _ _ => properGrid_roomHeatGrid⟩

end FluxTrack
