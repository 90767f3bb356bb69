import FluxTrack.Data.First
import FluxTrack.Scheduling.BlockSaturation
import FluxTrack.Theorems.HeatGrid
import FluxTrack.Theorems.RoomCapacity

/-!
# The saturation ranking and the exact figures

The ranking is reduced from what the cells of the heat grid show, and the cells show tenths of
an hour. A day with less than three minutes of use counts as unused, and each figure of a row
is within seven half tenths of the exact one. Where all cells hold whole tenths of an hour
nothing is lost.

## Main definitions

* `Db.exactUsed`, `Db.exactBooked` — the seconds behind a cell
* `Db.ExactLoad` — a row with the figures of the exact seconds
* `Db.LoadOfGrid` — a row with the figures of the grid
* `Db.RanksGrid` — the ranking of these rows

## Main results

* `hours_of_nonneg` — hours are whole tenths, from half a tenth up
* `blockSaturation_eq` — the ranking row by row
* `blockSaturation_ranks_grid`
-/

namespace FluxTrack

open Calendar Relational

/-- The used seconds of a block on a weekday. -/
def Db.exactUsed (db : Db) (scope : ReportScope) (block : CampusBlock) (day : ℕ) : ℤ :=
  (db.heatTally scope).used
    (blockIndex ((db.campusBlockLadder scope.term).getD []) block.start, day)

/-- The booked seconds of a block on a weekday. -/
def Db.exactBooked (db : Db) (scope : ReportScope) (block : CampusBlock) (day : ℕ) : ℤ :=
  (db.heatTally scope).booked
    (blockIndex ((db.campusBlockLadder scope.term).getD []) block.start, day)

/-- The sessions of a block on a weekday. -/
def Db.exactSessions (db : Db) (scope : ReportScope) (block : CampusBlock) (day : ℕ) : ℤ :=
  (db.heatTally scope).sessions
    (blockIndex ((db.campusBlockLadder scope.term).getD []) block.start, day)

/-- A figure added up over the weekdays. -/
def weekSum {M : Type*} [AddMonoid M] (figure : ℕ → M) : M := (weekdays.map figure).sum

/-- The row shows what the exact seconds of its block make. -/
structure Db.ExactLoad (db : Db) (scope : ReportScope) (load : BlockLoad) : Prop where
  utilizationPct : load.utilizationPct =
    hoursPct (weekSum (db.exactUsed scope load.block))
      (weekSum (db.availableSeconds scope load.block))
  unused : load.peakDay = none ↔ weekSum (db.exactUsed scope load.block) = 0
  peak : ∀ day, load.peakDay = some day →
    ∀ d ∈ weekdays, db.exactUsed scope load.block d ≤ db.exactUsed scope load.block day

/-- The row shows what the hours in the cells of its block make. -/
structure Db.LoadOfGrid (db : Db) (scope : ReportScope) (load : BlockLoad) : Prop where
  usedHours : load.usedHours = weekSum fun day => hours (db.exactUsed scope load.block day)
  bookedHours : load.bookedHours = weekSum fun day => hours (db.exactBooked scope load.block day)
  availableHours : load.availableHours =
    weekSum fun day => hours (db.availableSeconds scope load.block day)
  sessionCount : load.sessionCount = weekSum (db.exactSessions scope load.block)
  utilizationPct : load.utilizationPct = decimalHoursPct load.usedHours load.availableHours
  /-- A day with less than three minutes of use shows none. -/
  unused : load.peakDay = none ↔ ∀ day ∈ weekdays, db.exactUsed scope load.block day < 180
  /-- The peak is the first of the days that show most use, and no day has a tenth of an hour
  more. -/
  peak : ∀ day, load.peakDay = some day →
    Search.First (fun d => ∀ d' ∈ weekdays, hours (db.exactUsed scope load.block d') ≤
      hours (db.exactUsed scope load.block d)) weekdays day ∧
    ∀ d ∈ weekdays, db.exactUsed scope load.block d < db.exactUsed scope load.block day + 360
  usedError : |load.usedHours - weekSum (db.exactUsed scope load.block) / 3600| ≤ 7 / 20
  availableError :
    |load.availableHours - weekSum (db.availableSeconds scope load.block) / 3600| ≤ 7 / 20
  /-- Whole tenths of an hour are shown as they are. -/
  exact : (∀ day ∈ weekdays, 360 ∣ db.exactUsed scope load.block day ∧
    360 ∣ db.availableSeconds scope load.block day) → db.ExactLoad scope load

/-- The ranking has a row for each block of the timetable, made from the grid, in order. -/
structure Db.RanksGrid (db : Db) (scope : ReportScope) : Prop where
  blocks : ((db.blockSaturation scope).map BlockLoad.block).Perm
    ((db.campusBlockLadder scope.term).getD [])
  loads : ∀ load ∈ db.blockSaturation scope, db.LoadOfGrid scope load
  ordered : (db.blockSaturation scope).Pairwise BlockLoad.before

/-! ### Hours -/

section

variable {a b s : ℤ}

/-- Whole tenths of an hour, from half a tenth up. -/
def tenths (s : ℤ) : ℤ := (s + 180) / 360

theorem hours_of_nonneg (h : 0 ≤ s) : hours s = (tenths s : ℚ) / 10 := by
  have hsplit : (s : ℚ) / 3600 * (10 : ℕ) = (s : ℚ) / 360 := by
    push_cast
    ring
  have hnonneg : (0 : ℚ) ≤ (s : ℚ) / 360 :=
    div_nonneg (Int.cast_nonneg h) (by norm_num)
  have hfloor : ⌊(s : ℚ) / 360 + 1 / 2⌋ = tenths s := by
    have hsum : (s : ℚ) / 360 + 1 / 2 = ((s + 180 : ℤ) : ℚ) / (360 : ℕ) := by
      push_cast
      ring
    rw [hsum, Rat.floor_intCast_div_natCast]
    rfl
  rw [hours, Rounding.quantize, hsplit, Rounding.halfUp_of_nonneg hnonneg, hfloor]
  norm_num

theorem hours_le_hours_iff (ha : 0 ≤ a) (hb : 0 ≤ b) : hours a ≤ hours b ↔ tenths a ≤ tenths b := by
  rw [hours_of_nonneg ha, hours_of_nonneg hb, div_le_div_iff_of_pos_right (by norm_num)]
  exact Int.cast_le

theorem hours_pos_iff (h : 0 ≤ s) : 0 < hours s ↔ 180 ≤ s := by
  rw [hours_of_nonneg h, div_pos_iff_of_pos_right (by norm_num), Int.cast_pos, tenths]
  omega

theorem lt_add_of_hours_le (ha : 0 ≤ a) (hb : 0 ≤ b) (h : hours a ≤ hours b) : a < b + 360 := by
  rw [hours_le_hours_iff ha hb, tenths, tenths] at h
  omega

/-- Whole tenths of an hour are shown as they are. -/
theorem hours_of_dvd (hs : 0 ≤ s) (h : 360 ∣ s) : hours s = (s : ℚ) / 3600 := by
  obtain ⟨k, rfl⟩ := h
  have htenths : tenths (360 * k) = k := by
    rw [tenths]
    omega
  rw [hours_of_nonneg hs, htenths]
  push_cast
  ring

/-- The shown hours of a week are off by half a tenth for each day. -/
theorem abs_weekSum_hours_sub_le (figure : ℕ → ℤ) :
    |(weekSum fun day => hours (figure day)) - (weekSum figure : ℤ) / 3600| ≤ 7 / 20 := by
  have herror := Rounding.abs_sum_quantize_sub_le (n := 10) (by decide)
    (weekdays.map fun day => (figure day : ℚ) / 3600)
  have hsum : (weekdays.map fun day => (figure day : ℚ) / 3600).sum =
      (weekSum figure : ℤ) / 3600 := by
    rw [weekSum]
    induction weekdays with
    | nil => simp
    | cons day days ih => simp [ih, add_div]
  rw [List.map_map, hsum, List.length_map] at herror
  refine herror.trans (le_of_eq ?_)
  have hlength : weekdays.length = 7 := rfl
  rw [hlength]
  norm_num

theorem weekSum_hours_of_dvd {figure : ℕ → ℤ} (hnonneg : ∀ day, 0 ≤ figure day)
    (h : ∀ day ∈ weekdays, 360 ∣ figure day) :
    (weekSum fun day => hours (figure day)) = (weekSum figure : ℤ) / 3600 := by
  unfold weekSum
  revert h
  induction weekdays with
  | nil => simp
  | cons day days ih =>
    intro h
    rw [List.map_cons, List.sum_cons, ih fun d hd => h d (List.mem_cons_of_mem day hd),
      hours_of_dvd (hnonneg day) (h day List.mem_cons_self), List.map_cons, List.sum_cons,
      Int.cast_add, add_div]

end

/-! ### The rows -/

section

variable {db : Db} {scope : ReportScope} {blocks : List CampusBlock} {acc : HeatAcc}
  {s : Session} {block : CampusBlock} {day : ℕ}

/-- A session adds no negative time to a cell. -/
theorem nonneg_used_add (h : ∀ b ∈ blocks, 0 < b.weight) (hacc : ∀ k, 0 ≤ acc.used k) :
    ∀ k, 0 ≤ (acc.add db blocks s).used k := by
  unfold HeatAcc.add
  by_cases hfly : s.contribution.inFlight = true
  · rw [if_pos hfly]
    exact hacc
  · rw [if_neg hfly]
    refine Tally.nonneg_postAll hacc fun p hp => ?_
    refine nonneg_distribute s.contribution_nonneg.2 (fun w hw => ?_) p.2 (List.of_mem_zip hp).2
    obtain ⟨b, hb, rfl⟩ := List.mem_map.mp hw
    exact h b (List.mem_filter.mp hb).1

/-- No cell of a grid over blocks with a weight has negative time. -/
theorem heatAcc_used_nonneg (h : ∀ b ∈ blocks, 0 < b.weight) (db : Db) (scope : ReportScope)
    (k : ℕ × ℕ) : 0 ≤ (db.heatAcc scope blocks).used k := by
  have hfold : ∀ (l : List Session) (acc : HeatAcc), (∀ k, 0 ≤ acc.used k) →
      ∀ k, 0 ≤ (l.foldl (HeatAcc.add db blocks) acc).used k := by
    intro l
    induction l with
    | nil => exact fun acc h => h
    | cons s l ih => exact fun acc hacc => ih _ (nonneg_used_add h hacc)
  exact hfold _ _ (fun _ => le_refl 0) k

theorem exactUsed_nonneg (db : Db) (scope : ReportScope) (block : CampusBlock) (day : ℕ) :
    0 ≤ db.exactUsed scope block day := by
  unfold Db.exactUsed Db.heatTally
  refine heatAcc_used_nonneg ?_ db scope _
  cases hladder : db.campusBlockLadder scope.term with
  | none => exact fun b hb => absurd hb List.not_mem_nil
  | some blocks => exact fun b hb => weight_pos_of_ladder hladder hb

theorem availableSeconds_nonneg (h : 0 ≤ block.durationSeconds) :
    0 ≤ db.availableSeconds scope block day := by
  unfold Db.availableSeconds
  split
  · exact mul_nonneg (mul_nonneg (Int.natCast_nonneg _) (Int.natCast_nonneg _)) h
  · exact le_refl 0

/-- The blocks of a ladder are at their indices. -/
theorem blockIndex_of_mem_zipIdx (h : db.campusBlockLadder scope.term = some blocks)
    {p : CampusBlock × ℕ} (hp : p ∈ blocks.zipIdx) : blockIndex blocks p.1.start = p.2 := by
  obtain ⟨hlt, hget⟩ := List.mem_zipIdx' hp
  have hlt' : p.2 < (blocks.map CampusBlock.start).length := by rwa [List.length_map]
  have hstart : p.1.start = (blocks.map CampusBlock.start)[p.2] := by
    rw [List.getElem_map, ← hget]
  rw [blockIndex, hstart]
  exact (nodup_ladder_starts h).idxOf_getElem p.2 hlt'

/-- The row of a block, from its exact seconds. -/
def Db.gridLoad (db : Db) (scope : ReportScope) (block : CampusBlock) : BlockLoad :=
  let used := weekSum fun day => hours (db.exactUsed scope block day)
  let available := weekSum fun day => hours (db.availableSeconds scope block day)
  { block := block
    usedHours := used
    bookedHours := weekSum fun day => hours (db.exactBooked scope block day)
    availableHours := available
    utilizationPct := decimalHoursPct used available
    sessionCount := weekSum (db.exactSessions scope block)
    peakDay := (weekdays.argmax fun day => hours (db.exactUsed scope block day)).bind fun day =>
      if 0 < hours (db.exactUsed scope block day) then some day else none }

/-- The ranking has a row for each block of the ladder, from its seconds. -/
theorem blockSaturation_eq (db : Db) (scope : ReportScope) : db.blockSaturation scope =
    (((db.campusBlockLadder scope.term).getD []).map (db.gridLoad scope)).insertionSort
      BlockLoad.before := by
  rw [Db.blockSaturation, Db.roomHeatGrid]
  cases hladder : db.campusBlockLadder scope.term with
  | none => rfl
  | some blocks =>
    rw [Option.map_some]
    dsimp only
    congr 1
    rw [List.map_map, Option.getD_some]
    -- a row of the grid is found by its index, a load by the start of its block
    have hrow : ∀ p ∈ blocks.zipIdx, (HeatRow.load ∘ fun p : CampusBlock × ℕ =>
        ⟨p.1, weekdays.map fun day => db.heatCell scope (db.heatAcc scope blocks) p.2 p.1 day⟩) p =
          (db.gridLoad scope ∘ Prod.fst) p := by
      intro p hp
      have hindex := blockIndex_of_mem_zipIdx hladder hp
      have htally : db.heatTally scope = db.heatAcc scope blocks := by
        rw [Db.heatTally, hladder, Option.getD_some]
      have hkey : blockIndex ((db.campusBlockLadder scope.term).getD []) p.1.start = p.2 := by
        rw [hladder, Option.getD_some, hindex]
      have hsessions : db.exactSessions scope p.1 =
          fun day => (db.heatAcc scope blocks).sessions (p.2, day) := by
        funext day
        rw [Db.exactSessions, htally, hkey]
      simp only [Function.comp_apply, HeatRow.load, Db.gridLoad, weekSum, List.map_map,
        Search.argmax_map, Option.bind_map, Db.exactUsed, Db.exactBooked, hsessions, htally, hkey]
      rfl
    rw [List.map_congr_left hrow, ← List.map_map, List.zipIdx_map_fst]

/-- The peak of a row is the first of the days that show most use. -/
theorem gridLoad_peakDay_eq_some (h : (db.gridLoad scope block).peakDay = some day) :
    Search.First (fun d => ∀ d' ∈ weekdays, hours (db.exactUsed scope block d') ≤
      hours (db.exactUsed scope block d)) weekdays day := by
  obtain ⟨d, hd, hsome⟩ := Option.bind_eq_some_iff.mp h
  split at hsome
  · cases hsome
    exact Search.first_of_argmax hd
  · cases hsome

/-- A row has no peak exactly when no day shows any use. -/
theorem gridLoad_peakDay_eq_none_iff : (db.gridLoad scope block).peakDay = none ↔
    ∀ day ∈ weekdays, db.exactUsed scope block day < 180 := by
  have hpos : ∀ d, 0 < hours (db.exactUsed scope block d) ↔ 180 ≤ db.exactUsed scope block d :=
    fun d => hours_pos_iff (exactUsed_nonneg db scope block d)
  obtain ⟨busiest, hbusiest⟩ : ∃ busiest,
      (weekdays.argmax fun day => hours (db.exactUsed scope block day)) = some busiest := by
    refine Option.ne_none_iff_exists'.mp fun hnone => ?_
    exact absurd (List.argmax_eq_none.mp hnone) (by decide)
  obtain ⟨hmem, hmax, -⟩ := List.argmax_eq_some_iff.mp hbusiest
  rw [Db.gridLoad]
  dsimp only
  rw [hbusiest, Option.bind_some, ite_eq_right_iff]
  constructor
  · intro hnone d hd
    -- the busiest day shows no use, and this day no more
    have hidle : ¬ 0 < hours (db.exactUsed scope block busiest) := fun h => by cases hnone h
    by_contra hlong
    exact hidle (((hpos d).mpr (not_lt.mp hlong)).trans_le (hmax d hd))
  · intro hall h
    exact absurd ((hpos busiest).mp h) (not_le.mpr (hall busiest hmem))

/-- Over a week, nothing is used exactly when no day is used. -/
theorem weekSum_exactUsed_eq_zero_iff : weekSum (db.exactUsed scope block) = 0 ↔
    ∀ day ∈ weekdays, db.exactUsed scope block day = 0 := by
  unfold weekSum
  constructor
  · intro hzero d hd
    refine List.all_zero_of_le_zero_le_of_sum_eq_zero (fun a ha => ?_) hzero
      (List.mem_map_of_mem hd)
    obtain ⟨d', -, rfl⟩ := List.mem_map.mp ha
    exact exactUsed_nonneg db scope block d'
  · intro hall
    refine List.sum_eq_zero fun a ha => ?_
    obtain ⟨d, hd, rfl⟩ := List.mem_map.mp ha
    exact hall d hd

/-- A row whose cells hold whole tenths of an hour shows the exact figures. -/
theorem exactLoad_gridLoad (hblock : 0 ≤ block.durationSeconds)
    (h : ∀ day ∈ weekdays, 360 ∣ db.exactUsed scope block day ∧
      360 ∣ db.availableSeconds scope block day) :
    db.ExactLoad scope (db.gridLoad scope block) where
  utilizationPct := by
    rw [Db.gridLoad]
    dsimp only
    rw [weekSum_hours_of_dvd (exactUsed_nonneg db scope block) fun d hd => (h d hd).1,
      weekSum_hours_of_dvd (fun _ => availableSeconds_nonneg hblock) fun d hd => (h d hd).2,
      decimalHoursPct_seconds]
  unused := by
    change _ ↔ weekSum (db.exactUsed scope block) = 0
    rw [gridLoad_peakDay_eq_none_iff]
    constructor
    · intro hshort
      refine weekSum_exactUsed_eq_zero_iff.mpr fun d hd => ?_
      -- less than half a tenth in whole tenths is nothing
      have hnonneg := exactUsed_nonneg db scope block d
      obtain ⟨k, hk⟩ := (h d hd).1
      have hlt := hshort d hd
      omega
    · intro hzero d hd
      have hnone : db.exactUsed scope block d = 0 := weekSum_exactUsed_eq_zero_iff.mp hzero d hd
      rw [hnone]
      decide
  peak day hpeak d hd := by
    have hfirst := gridLoad_peakDay_eq_some hpeak
    have hle := hfirst.prop d hd
    rw [hours_of_dvd (exactUsed_nonneg _ _ _ _) (h d hd).1,
      hours_of_dvd (exactUsed_nonneg _ _ _ _) (h day hfirst.mem).1,
      div_le_div_iff_of_pos_right (by norm_num)] at hle
    exact Int.cast_le.mp hle

/-- The row of a block is made from the hours in its cells. -/
theorem loadOfGrid_gridLoad (hblock : 0 ≤ block.durationSeconds) :
    db.LoadOfGrid scope (db.gridLoad scope block) where
  usedHours := rfl
  bookedHours := rfl
  availableHours := rfl
  sessionCount := rfl
  utilizationPct := rfl
  unused := gridLoad_peakDay_eq_none_iff
  peak _ hpeak :=
    have hfirst := gridLoad_peakDay_eq_some hpeak
    ⟨hfirst, fun d hd => lt_add_of_hours_le (exactUsed_nonneg _ _ _ _) (exactUsed_nonneg _ _ _ _)
      (hfirst.prop d hd)⟩
  usedError := abs_weekSum_hours_sub_le _
  availableError := abs_weekSum_hours_sub_le _
  exact := exactLoad_gridLoad hblock

end

/-! ### The ranking -/

instance : IsTrans BlockLoad BlockLoad.before where
  trans a b c hab hbc := by
    rcases hab with hab | ⟨hab, hab'⟩
    · rcases hbc with hbc | ⟨hbc, -⟩
      · exact .inl (hbc.trans hab)
      · exact .inl (hbc ▸ hab)
    · rcases hbc with hbc | ⟨hbc, hbc'⟩
      · exact .inl (hab ▸ hbc)
      · exact .inr ⟨hab.trans hbc, hab'.trans hbc'⟩

instance : Std.Total BlockLoad.before where
  total a b := by
    unfold BlockLoad.before
    omega

/-- The ranking is made from the grid. -/
theorem blockSaturation_ranks_grid (db : Db) (scope : ReportScope) : db.RanksGrid scope where
  blocks := by
    rw [blockSaturation_eq]
    refine ((List.perm_insertionSort _ _).map _).trans ?_
    rw [List.map_map]
    exact (List.map_id _).symm ▸ List.Perm.refl _
  loads load hload := by
    rw [blockSaturation_eq, List.mem_insertionSort] at hload
    obtain ⟨block, hblock, rfl⟩ := List.mem_map.mp hload
    refine loadOfGrid_gridLoad ?_
    cases hladder : db.campusBlockLadder scope.term with
    | none =>
      rw [hladder] at hblock
      exact absurd hblock List.not_mem_nil
    | some blocks =>
      rw [hladder, Option.getD_some] at hblock
      obtain ⟨sched, -, rfl⟩ := (mem_campusBlockLadder hladder).mp hblock
      exact blockDurationSeconds_nonneg _
  ordered := by
    rw [blockSaturation_eq]
    exact List.pairwise_insertionSort _ _

namespace Campus

/-- The nine o'clock class of the Monday, left after a minute and forty seconds. -/
def brieflyHeld : Db :=
  { campus with
    sessions := campus.sessions.update (fun s => s.id == 1) fun s =>
      (s.checkIn (wallClock monday 9 5 0) .qrScan).checkOut (wallClock monday 9 6 40) }

/-- The second class at nine o'clock on Tuesdays instead. -/
def twoDays : Db :=
  { timetable with
    schedules := ⟨[
      ⟨1, 1, "CS1", "A", 30, 1, 1, 0, hour 9, hour 10, .f2f, .active⟩,
      ⟨2, 1, "CS2", "B", 30, 2, 1, 1, hour 9, hour 10, .f2f, .active⟩], by decide⟩ }

/-- Both classes left after a quarter of an hour, the one on Tuesday ten seconds later. -/
def twoDaysHeld : Db :=
  let born := ((materializeTerm term monday 2 false 0).run twoDays).2
  { born with
    sessions := (born.sessions.update (fun s => s.id == 1) fun s =>
        (s.checkIn (wallClock monday 9 0 0) .qrScan).checkOut (wallClock monday 9 16 40)).update
      (fun s => s.id == 2) fun s =>
        (s.checkIn (wallClock (monday + 1) 9 0 0) .qrScan).checkOut
          (wallClock (monday + 1) 9 16 50) }

end Campus

open Campus in
/-- The block that was used for less than two minutes has no peak day. Where both days show
three tenths of an hour, the ranking has 30 percent for 28 and the peak on the first day. -/
theorem blockSaturation_misses_exact :
    (¬ ∀ (db : Db) (scope : ReportScope), ∀ load ∈ db.blockSaturation scope,
      (load.peakDay = none ↔ weekSum (db.exactUsed scope load.block) = 0)) ∧
    (¬ ∀ (db : Db) (scope : ReportScope), ∀ load ∈ db.blockSaturation scope,
      load.utilizationPct = hoursPct (weekSum (db.exactUsed scope load.block))
        (weekSum (db.availableSeconds scope load.block))) ∧
    ¬ ∀ (db : Db) (scope : ReportScope), ∀ load ∈ db.blockSaturation scope,
      ∀ day, load.peakDay = some day →
        ∀ d ∈ weekdays, db.exactUsed scope load.block d ≤ db.exactUsed scope load.block day := by
  have hbrief : ∃ load ∈ brieflyHeld.blockSaturation ⟨some 1, monday, monday, none, none⟩,
      load.peakDay = none ∧ weekSum (brieflyHeld.exactUsed
        ⟨some 1, monday, monday, none, none⟩ load.block) = 100 := by
    decide +kernel
  have htwo : ∃ load ∈ twoDaysHeld.blockSaturation ⟨some 1, monday, monday + 1, none, none⟩,
      load.utilizationPct = 30 ∧ load.peakDay = some 0 ∧
      weekSum (twoDaysHeld.exactUsed ⟨some 1, monday, monday + 1, none, none⟩ load.block) = 2010 ∧
      weekSum (twoDaysHeld.availableSeconds
        ⟨some 1, monday, monday + 1, none, none⟩ load.block) = 7200 ∧
      twoDaysHeld.exactUsed ⟨some 1, monday, monday + 1, none, none⟩ load.block 0 <
        twoDaysHeld.exactUsed ⟨some 1, monday, monday + 1, none, none⟩ load.block 1 := by
    decide +kernel
  obtain ⟨load, hload, hnone, hsum⟩ := hbrief
  obtain ⟨load', hload', hpct, hpeak, hused, havailable, hlater⟩ := htwo
  refine ⟨fun h => ?_, fun h => ?_, fun h => ?_⟩
  · have hzero := (h _ _ load hload).mp hnone
    rw [hsum] at hzero
    exact absurd hzero (by decide)
  · have hexact := h _ _ load' hload'
    rw [hpct, hused, havailable] at hexact
    exact absurd hexact (by decide +kernel)
  · exact absurd (h _ _ load' hload' 0 hpeak 1 (by decide)) (not_le.mpr hlater)

end FluxTrack
