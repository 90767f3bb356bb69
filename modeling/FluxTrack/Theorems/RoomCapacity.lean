import FluxTrack.Data.Fibers
import FluxTrack.Scheduling.RoomReporting
import Mathlib.Algebra.BigOperators.Ring.List

/-!
# The capacity behind the heat grid and the campus card

The grid prices a cell by its weekday: rooms, times the weekday's dates in the window, times
the length of the block. The card walks over the dates and adds up the cells of each. It is
the same double sum, by weekday and block or by date.

## Main definitions

* `Db.availableSeconds` — the capacity of a cell before it is rounded
* `Db.daySeconds` — the timetabled seconds of a weekday, in one room

## Main results

* `cellSeconds_eq_sum` — the walk over the dates
* `daySeconds_eq_sum` — a weekday block by block
* `capacity_agrees`
-/

namespace FluxTrack

open Calendar Relational

/-- The available seconds of a cell of the heat grid. -/
def Db.availableSeconds (db : Db) (scope : ReportScope) (block : CampusBlock) (day : ℕ) : ℤ :=
  if (db.timetabledCells scope.term).any fun c => c.day == day && c.start == block.start then
    db.physicalRooms.length * scope.occurrences day * block.durationSeconds
  else 0

/-- The seconds that are timetabled on a weekday. -/
def Db.daySeconds (db : Db) (term : Option ℕ) (day : ℕ) : ℤ :=
  (((db.timetabledCells term).filter fun c => c.day == day).map TimetabledCell.durationSeconds).sum

section

variable {db : Db} {scope : ReportScope} {term : Option ℕ}

/-! ### By date -/

/-- The walk over the dates adds up the seconds of each. -/
theorem cellSeconds_eq_sum (db : Db) (scope : ReportScope) :
    (db.rangeCellShape scope).cellSeconds =
      (scope.days.map fun d => db.daySeconds scope.term (weekday d)).sum := by
  have hfold : ∀ (days : List ℤ) (shape : RangeCellShape),
      (days.foldl (fun shape day =>
        let cells := (db.timetabledCells scope.term).filter fun c => c.day == weekday day
        if cells.isEmpty then shape
        else ⟨shape.teachingDays + 1, shape.cellCount + cells.length,
          shape.cellSeconds + (cells.map TimetabledCell.durationSeconds).sum⟩)
          shape).cellSeconds =
        shape.cellSeconds + (days.map fun d => db.daySeconds scope.term (weekday d)).sum := by
    intro days
    -- the walk adds to any shape it starts from
    induction days with
    | nil => exact fun shape => (add_zero _).symm
    | cons d days ih =>
      intro shape
      rw [List.foldl_cons, ih, List.map_cons, List.sum_cons]
      dsimp only
      split
      · rename_i hempty
        rw [Db.daySeconds, List.isEmpty_iff.mp hempty]
        simp
      · exact add_assoc _ _ _
  exact (hfold scope.days ⟨0, 0, 0⟩).trans (zero_add _)

/-- The dates of a window by weekday. -/
theorem sum_occurrences (scope : ReportScope) (f : ℕ → ℤ) :
    (weekdays.map fun day => scope.occurrences day * f day).sum =
      (scope.days.map fun d => f (weekday d)).sum := by
  have hday : ∀ d ∈ scope.days, weekday d ∈ weekdays := by
    intro d _
    refine List.mem_range.mpr ?_
    unfold weekday
    omega
  rw [← Fibers.sum_fibers_of_forall_mem (f := weekday) (fun d => f (weekday d))
    List.nodup_range hday]
  congr 1
  refine List.map_congr_left fun day _ => ?_
  -- on all dates of one weekday `f` is the same
  have hconst : (scope.days.filter fun d => weekday d == day).map (fun d => f (weekday d)) =
      (scope.days.filter fun d => weekday d == day).map fun _ => f day :=
    List.map_congr_left fun d hd => by rw [eq_of_beq (List.mem_filter.mp hd).2]
  rw [hconst, List.map_const', List.sum_replicate, nsmul_eq_mul]
  rfl

/-! ### By block -/

theorem nodup_ladder_starts {blocks : List CampusBlock} (h : db.campusBlockLadder term = some blocks) :
    (blocks.map CampusBlock.start).Nodup := by
  unfold Db.campusBlockLadder at h
  split at h
  · cases h
  · cases h
    rw [List.map_map]
    exact ((List.perm_insertionSort _ _).map _).nodup_iff.mpr
      (by simpa [Function.comp_def, Db.blockAt] using List.nodup_dedup _)

/-- A cell is a start time of the timetable on a weekday, with the block of that time. -/
theorem mem_timetabledCells {blocks : List CampusBlock}
    (h : db.campusBlockLadder term = some blocks) {c : TimetabledCell}
    (hc : c ∈ db.timetabledCells term) :
    c.durationSeconds = (db.blockAt term c.start).durationSeconds ∧
      c.start ∈ blocks.map CampusBlock.start := by
  obtain ⟨p, hp, rfl⟩ := List.mem_map.mp hc
  rw [List.mem_insertionSort, List.mem_dedup] at hp
  obtain ⟨sched, hsched, rfl⟩ := List.mem_map.mp hp
  have hblock : db.blockAt term sched.startTime ∈ blocks :=
    (mem_campusBlockLadder h).mpr ⟨sched, hsched, rfl⟩
  refine ⟨?_, List.mem_map_of_mem hblock⟩
  rw [h, Option.getD_some]
  -- the first block found under a start time is the block of that time
  cases hfind : blocks.find? fun b => b.start == sched.startTime with
  | none =>
    exact absurd (beq_self_eq_true _) (List.find?_eq_none.mp hfind _ hblock)
  | some b =>
    have hsame : b.start = sched.startTime := by simpa using List.find?_some hfind
    obtain ⟨other, -, rfl⟩ := (mem_campusBlockLadder h).mp (List.mem_of_find?_eq_some hfind)
    rw [show other.startTime = sched.startTime from hsame]
    rfl

theorem nodup_timetabledCells_slots (db : Db) (term : Option ℕ) :
    ((db.timetabledCells term).map fun c => (c.day, c.start)).Nodup := by
  rw [Db.timetabledCells, List.map_map]
  exact ((List.perm_insertionSort _ _).map _).nodup_iff.mpr
    (by simpa [Function.comp_def] using List.nodup_dedup _)

/-- A block is timetabled on a weekday by one cell or by none. -/
theorem sum_slot {blocks : List CampusBlock} (h : db.campusBlockLadder term = some blocks)
    {block : CampusBlock} (hblock : block ∈ blocks) (day : ℕ) :
    ((((db.timetabledCells term).filter fun c => c.day == day).filter
        fun c => c.start == block.start).map TimetabledCell.durationSeconds).sum =
      if (db.timetabledCells term).any fun c => c.day == day && c.start == block.start then
        block.durationSeconds
      else 0 := by
  obtain ⟨sched, -, rfl⟩ := (mem_campusBlockLadder h).mp hblock
  rw [List.filter_filter]
  have hone : (((db.timetabledCells term).filter fun c =>
      c.start == (db.blockAt term sched.startTime).start && c.day == day).map
        fun c => (c.day, c.start)).Nodup :=
    (nodup_timetabledCells_slots db term).sublist (List.filter_sublist.map _)
  have hall : ∀ c ∈ (db.timetabledCells term).filter (fun c =>
      c.start == (db.blockAt term sched.startTime).start && c.day == day),
      c ∈ db.timetabledCells term ∧ c.start = sched.startTime ∧ c.day = day := by
    intro c hc
    obtain ⟨hmem, hsel⟩ := List.mem_filter.mp hc
    simp only [Bool.and_eq_true, beq_iff_eq] at hsel
    exact ⟨hmem, hsel⟩
  -- no two cells share a weekday and a start, so that there is at most one
  cases hcells : (db.timetabledCells term).filter
      fun c => c.start == (db.blockAt term sched.startTime).start && c.day == day with
  | nil =>
    have hnone : ¬ ((db.timetabledCells term).any fun c =>
        c.day == day && c.start == (db.blockAt term sched.startTime).start) = true := by
      rw [List.any_eq_true]
      rintro ⟨c, hc, hsel⟩
      rw [Bool.and_comm] at hsel
      exact List.filter_eq_nil_iff.mp hcells c hc hsel
    rw [if_neg hnone]
    rfl
  | cons c rest =>
    rw [hcells] at hone hall
    obtain ⟨hc, hstart, hday⟩ := hall c List.mem_cons_self
    have hrest : rest = [] := by
      refine List.eq_nil_iff_forall_not_mem.mpr fun c' hc' => ?_
      obtain ⟨-, hstart', hday'⟩ := hall c' (List.mem_cons_of_mem c hc')
      have hslot : (c.day, c.start) = (c'.day, c'.start) := by rw [hday, hstart, hday', hstart']
      exact (List.nodup_cons.mp hone).1 (List.mem_map.mpr ⟨c', hc', hslot.symm⟩)
    have hany : ((db.timetabledCells term).any fun c =>
        c.day == day && c.start == (db.blockAt term sched.startTime).start) = true :=
      List.any_eq_true.mpr ⟨c, hc, by rw [hday, hstart]; simp [Db.blockAt]⟩
    rw [if_pos hany, hrest, List.map_singleton, List.sum_singleton,
      (mem_timetabledCells h hc).1, hstart]

/-- A weekday block by block. -/
theorem daySeconds_eq_sum (db : Db) (term : Option ℕ) (day : ℕ) :
    db.daySeconds term day = (((db.campusBlockLadder term).getD []).map fun block =>
      if (db.timetabledCells term).any fun c => c.day == day && c.start == block.start then
        block.durationSeconds
      else 0).sum := by
  cases h : db.campusBlockLadder term with
  | none =>
    have hcells : db.timetabledCells term = [] := by
      rw [Db.timetabledCells, activeSchedules_of_ladder_none h]
      rfl
    rw [Db.daySeconds, hcells]
    rfl
  | some blocks =>
    -- the cells of the weekday are grouped by start, and every start is that of a block
    rw [Option.getD_some, Db.daySeconds, ← Fibers.sum_fibers_of_forall_mem
      (f := TimetabledCell.start) _ (nodup_ladder_starts h) fun c hc =>
        (mem_timetabledCells h (List.mem_filter.mp hc).1).2, List.map_map]
    congr 1
    exact List.map_congr_left fun block hblock => sum_slot h hblock day

end

/-- The available hours of the cells of the grid are the rounded available seconds, and these
add up to the capacity of the campus card. -/
theorem capacity_agrees (db : Db) (scope : ReportScope) :
    ((db.roomHeatGrid scope).map fun rows =>
        rows.map fun row => row.cells.map HeatCell.availableHours) =
      (db.campusBlockLadder scope.term).map (fun blocks => blocks.map fun block =>
        weekdays.map fun day => hours (db.availableSeconds scope block day)) ∧
    (((db.campusBlockLadder scope.term).getD []).map fun block =>
        (weekdays.map fun day => db.availableSeconds scope block day).sum).sum =
      db.physicalRooms.length * (db.rangeCellShape scope).cellSeconds := by
  constructor
  · -- without a ladder there is no grid
    cases h : db.campusBlockLadder scope.term with
    | none =>
      rw [Db.roomHeatGrid, h]
      rfl
    | some blocks =>
      rw [Db.roomHeatGrid, h, Option.map_some, Option.map_some, Option.map_some, List.map_map]
      refine congrArg some ?_
      have hcells : ∀ p : CampusBlock × ℕ, (weekdays.map fun day =>
          db.heatCell scope (db.heatAcc scope blocks) p.2 p.1 day).map HeatCell.availableHours =
            weekdays.map fun day => hours (db.availableSeconds scope p.1 day) := by
        intro p
        rw [List.map_map]
        rfl
      calc blocks.zipIdx.map (fun p => (weekdays.map fun day =>
            db.heatCell scope (db.heatAcc scope blocks) p.2 p.1 day).map HeatCell.availableHours)
          = blocks.zipIdx.map (fun p =>
              weekdays.map fun day => hours (db.availableSeconds scope p.1 day)) :=
            List.map_congr_left fun p _ => hcells p
        _ = (blocks.zipIdx.map Prod.fst).map fun block =>
              weekdays.map fun day => hours (db.availableSeconds scope block day) := by
            rw [List.map_map]
            rfl
        _ = blocks.map fun block =>
              weekdays.map fun day => hours (db.availableSeconds scope block day) := by
            rw [List.zipIdx_map_fst]
  · have hday : ∀ day, (((db.campusBlockLadder scope.term).getD []).map fun block =>
        db.availableSeconds scope block day).sum =
          db.physicalRooms.length * (scope.occurrences day * db.daySeconds scope.term day) := by
      intro day
      rw [daySeconds_eq_sum, ← mul_assoc, ← List.sum_map_mul_left]
      congr 1
      refine List.map_congr_left fun block _ => ?_
      rw [Db.availableSeconds, mul_ite, mul_zero]
    rw [Fibers.sum_map_sum_comm, List.map_congr_left fun day _ => hday day,
      List.sum_map_mul_left, sum_occurrences, cellSeconds_eq_sum]

end FluxTrack
