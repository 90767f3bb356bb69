import FluxTrack.Data.Tally
import FluxTrack.Scheduling.Materialization
import FluxTrack.Scheduling.Reporting

/-!
# Room utilization reports

The room aggregates of `scheduling/reporting.py`: the campus card, which adds up the
booked and the used time of the physical rooms, and the heat grid, which splits the
same time over the weekdays and the blocks of the day. The blocks are read off the
timetable: one for each start time of an active schedule.

## Main definitions

* `Db.campusBlockLadder`, `Db.timetabledCells`, `Db.rangeCellShape` — the capacity
* `Session.contribution` — `_session_contribution`
* `Db.roomUtilization` — the campus card
* `distribute`, `Db.roomHeatGrid` — the heat grid

## Main results

* `sum_distribute`, `nonneg_distribute` — a split loses nothing
* `mem_campusBlockLadder` — the blocks of a ladder
-/

namespace FluxTrack

open Calendar Relational

/-! ### Figures -/

/-- `max(0, int(delta.total_seconds()))`. -/
def wholeSeconds (delta : ℤ) : ℤ := max 0 (totalSeconds delta)

theorem wholeSeconds_nonneg (delta : ℤ) : 0 ≤ wholeSeconds delta := le_max_left _ _

/-- `_hours`. -/
def hours (seconds : ℤ) : ℚ := Rounding.quantize 10 (seconds / 3600)

/-- Hours that are published one by one add up to the hours published for their sum, up
to half a tenth for each figure. -/
theorem abs_sum_hours_sub_le (l : List ℤ) :
    |(l.map hours).sum - hours l.sum| ≤ 1 / 20 * l.length + 1 / 20 := by
  have hsum : (l.map fun s : ℤ => (s : ℚ) / 3600).sum = (l.sum : ℚ) / 3600 := by
    induction l with
    | nil => simp
    | cons s l ih => simp [ih, add_div]
  have hparts := Rounding.abs_sum_quantize_sub_le (n := 10) (by decide)
    (l.map fun s : ℤ => (s : ℚ) / 3600)
  have hwhole := Rounding.abs_quantize_sub_le (n := 10) (by decide) ((l.sum : ℚ) / 3600)
  rw [List.map_map, hsum, List.length_map] at hparts
  rw [abs_sub_comm] at hwhole
  calc |(l.map hours).sum - hours l.sum|
      = |((l.map hours).sum - (l.sum : ℚ) / 3600) + ((l.sum : ℚ) / 3600 - hours l.sum)| := by
        ring_nf
    _ ≤ |(l.map hours).sum - (l.sum : ℚ) / 3600| + |(l.sum : ℚ) / 3600 - hours l.sum| :=
        abs_add_le _ _
    _ ≤ l.length * (1 / (2 * (10 : ℕ))) + 1 / (2 * (10 : ℕ)) := add_le_add hparts hwhole
    _ = 1 / 20 * l.length + 1 / 20 := by push_cast; ring

/-- `_hours_pct`. -/
def hoursPct (usedSeconds availableSeconds : ℤ) : ℤ :=
  if availableSeconds ≤ 0 then 0
  else Rounding.halfUp ((100 * usedSeconds : ℤ) / availableSeconds)

/-! ### Capacity -/

/-- `Room.is_virtual` as the queries read it: the collation of the code column does not
distinguish case. -/
def Room.isVirtual (r : Room) : Bool := r.code.toList.head?.any fun c => c == 'V' || c == 'v'

/-- `CampusBlock`. -/
structure CampusBlock where
  start : TimeOfDay
  durationSeconds : ℤ
  deriving DecidableEq

/-- `TimetabledCell`. -/
structure TimetabledCell where
  day : ℕ
  start : TimeOfDay
  durationSeconds : ℤ
  deriving DecidableEq

/-- `_span_seconds`. -/
def spanSeconds (s e : TimeOfDay) : ℤ := wholeSeconds (e.ticks - s.ticks)

/-- `_block_duration_seconds`: the most frequent span, of these the longest. -/
def blockDurationSeconds (spans : List (TimeOfDay × TimeOfDay)) : ℤ :=
  let durations := spans.map fun p => spanSeconds p.1 p.2
  let top := (durations.map fun d => durations.count d).foldr max 0
  (durations.filter fun d => durations.count d == top).foldr max 0

theorem blockDurationSeconds_nonneg (spans : List (TimeOfDay × TimeOfDay)) :
    0 ≤ blockDurationSeconds spans := by
  have hfold : ∀ l : List ℤ, 0 ≤ l.foldr max 0 := by
    intro l
    induction l with
    | nil => exact le_refl 0
    | cons d l ih => exact ih.trans (le_max_right _ _)
  exact hfold _

namespace Db

/-- `_physical_rooms`. -/
def physicalRooms (db : Db) : List Room :=
  db.rooms.rows.filter fun r => !r.isVirtual && !r.outOfService

/-- `_active_schedules`. -/
def activeSchedules (db : Db) (term : Option ℕ) : List Schedule :=
  db.schedules.rows.filter fun s => some s.term == term && s.status == .active

/-- The block that begins at a start time of the timetable. -/
def blockAt (db : Db) (term : Option ℕ) (start : TimeOfDay) : CampusBlock :=
  ⟨start, blockDurationSeconds
    (((db.activeSchedules term).filter fun s => s.startTime == start).map
      fun s => (s.startTime, s.endTime))⟩

/-- `campus_block_ladder`: one block for each start time, in order. -/
def campusBlockLadder (db : Db) (term : Option ℕ) : Option (List CampusBlock) :=
  if (db.activeSchedules term).isEmpty then none
  else some
    ((((db.activeSchedules term).map Schedule.startTime).dedup.insertionSort
      fun a b => a.ticks ≤ b.ticks).map (db.blockAt term))

/-- `timetabled_cells`: the weekday and start time pairs of the timetable, in order. -/
def timetabledCells (db : Db) (term : Option ℕ) : List TimetabledCell :=
  let blocks := (db.campusBlockLadder term).getD []
  (((db.activeSchedules term).map fun s => (s.dayOfWeek, s.startTime)).dedup.insertionSort
      fun a b => a.1 < b.1 ∨ a.1 = b.1 ∧ a.2.ticks ≤ b.2.ticks).map
    fun p => ⟨p.1, p.2, ((blocks.find? fun b => b.start == p.2).map
      CampusBlock.durationSeconds).getD 0⟩

/-- The sessions of a room report: those of the scope that are held in a room. -/
def roomSessions (db : Db) (scope : ReportScope) : List Session :=
  (db.scopedSessions { scope with department := none } none).filter
    fun s => !(db.room s.room).isVirtual

end Db

/-- The last day of a report. -/
def ReportScope.lastDay (scope : ReportScope) : ℤ :=
  scope.asOf.elim scope.finish fun d => min scope.finish d

/-- The days of a report. -/
def ReportScope.days (scope : ReportScope) : List ℤ := dateRange scope.start (scope.lastDay + 1)

/-- `RangeCellShape`. -/
structure RangeCellShape where
  teachingDays : ℕ
  cellCount : ℕ
  cellSeconds : ℤ
  deriving DecidableEq

/-- `_range_cell_shape`: walk over the days and add up the cells of each. -/
def Db.rangeCellShape (db : Db) (scope : ReportScope) : RangeCellShape :=
  scope.days.foldl (fun shape day =>
    let cells := (db.timetabledCells scope.term).filter fun c => c.day == weekday day
    if cells.isEmpty then shape
    else ⟨shape.teachingDays + 1, shape.cellCount + cells.length,
      shape.cellSeconds + (cells.map TimetabledCell.durationSeconds).sum⟩) ⟨0, 0, 0⟩

/-! ### The time a session contributes -/

/-- What a session adds to a room report. -/
structure Contribution where
  booked : ℤ
  used : ℤ
  inFlight : Bool
  deriving DecidableEq

/-- `_session_contribution`: the used time is clamped to the scheduled slot. -/
def Session.contribution (s : Session) : Contribution :=
  if s.status = .cancelled then ⟨0, 0, false⟩
  else if s.actualStart.isSome ∧ s.actualEnd.isNone ∧ s.status = .active then ⟨0, 0, true⟩
  else
    let booked := wholeSeconds (s.scheduledEnd - s.scheduledStart)
    if s.status = .absent then ⟨booked, 0, false⟩
    else
      match s.actualStart, s.actualEnd with
      | some actualStart, some actualEnd =>
        ⟨booked, wholeSeconds (min actualEnd s.scheduledEnd - max actualStart s.scheduledStart),
          false⟩
      | _, _ => ⟨booked, 0, false⟩

theorem Session.contribution_nonneg (s : Session) :
    0 ≤ s.contribution.booked ∧ 0 ≤ s.contribution.used := by
  unfold Session.contribution
  split
  · exact ⟨le_refl 0, le_refl 0⟩
  · split
    · exact ⟨le_refl 0, le_refl 0⟩
    · split
      · exact ⟨wholeSeconds_nonneg _, le_refl 0⟩
      · split
        · exact ⟨wholeSeconds_nonneg _, wholeSeconds_nonneg _⟩
        · exact ⟨wholeSeconds_nonneg _, le_refl 0⟩

/-! ### The campus card -/

/-- The accumulators of `room_utilization`. -/
structure RoomTotals where
  bookedSeconds : ℤ
  usedSeconds : ℤ
  absentSeconds : ℤ
  unusedHeldSeconds : ℤ
  inFlight : ℕ
  absentSessions : ℕ
  earlyEndSessions : ℕ
  overrunSessions : ℕ
  earlyArrivalSessions : ℕ
  deriving DecidableEq

/-- Add one when a condition holds. -/
def bump (c : Bool) (n : ℕ) : ℕ := if c then n + 1 else n

/-- One round of the loop of `room_utilization`. -/
def RoomTotals.add (t : RoomTotals) (s : Session) : RoomTotals :=
  let c := s.contribution
  if c.inFlight then { t with inFlight := t.inFlight + 1 }
  else
    { bookedSeconds := t.bookedSeconds + c.booked
      usedSeconds := t.usedSeconds + c.used
      absentSeconds := if s.status = .absent then t.absentSeconds + c.booked else t.absentSeconds
      unusedHeldSeconds :=
        if s.status.isHeld then t.unusedHeldSeconds + max 0 (c.booked - c.used)
        else t.unusedHeldSeconds
      inFlight := t.inFlight
      absentSessions := bump (s.status == .absent) t.absentSessions
      earlyEndSessions := bump s.endedEarly t.earlyEndSessions
      overrunSessions :=
        bump (s.actualEnd.any fun e => decide (s.scheduledEnd < e)) t.overrunSessions
      earlyArrivalSessions :=
        bump (s.actualStart.any fun b => decide (b < s.scheduledStart)) t.earlyArrivalSessions }

/-- The accumulators before the loop. -/
def RoomTotals.zero : RoomTotals := ⟨0, 0, 0, 0, 0, 0, 0, 0, 0⟩

/-- The accumulators after the loop. -/
def Db.roomTotals (db : Db) (scope : ReportScope) : RoomTotals :=
  (db.roomSessions scope).foldl RoomTotals.add .zero

/-- `RoomUtilization`. -/
structure RoomUtilization where
  physicalRooms : ℕ
  blocksPerDay : ℕ
  teachingDays : ℕ
  timetabledCells : ℕ
  availableHours : ℚ
  bookedHours : ℚ
  usedHours : ℚ
  wastedHours : ℚ
  absentHours : ℚ
  unusedHeldHours : ℚ
  utilizationPct : ℤ
  bookingPct : ℤ
  inFlight : ℕ
  earlyEndSessions : ℕ
  absentSessions : ℕ
  overrunSessions : ℕ
  earlyArrivalSessions : ℕ
  deriving DecidableEq

/-- `room_utilization`. -/
def Db.roomUtilization (db : Db) (scope : ReportScope) : RoomUtilization :=
  let shape := db.rangeCellShape scope
  let available := db.physicalRooms.length * shape.cellSeconds
  let t := db.roomTotals scope
  { physicalRooms := db.physicalRooms.length
    blocksPerDay := ((db.campusBlockLadder scope.term).getD []).length
    teachingDays := shape.teachingDays
    timetabledCells := shape.cellCount
    availableHours := hours available
    bookedHours := hours t.bookedSeconds
    usedHours := hours t.usedSeconds
    wastedHours := hours (t.absentSeconds + t.unusedHeldSeconds)
    absentHours := hours t.absentSeconds
    unusedHeldHours := hours t.unusedHeldSeconds
    utilizationPct := hoursPct t.usedSeconds available
    bookingPct := hoursPct t.bookedSeconds available
    inFlight := t.inFlight
    earlyEndSessions := t.earlyEndSessions
    absentSessions := t.absentSessions
    overrunSessions := t.overrunSessions
    earlyArrivalSessions := t.earlyArrivalSessions }

/-! ### Splitting a session over blocks -/

/-- `parts[-1] += x`. -/
def addLast (x : ℤ) : List ℤ → List ℤ
  | [] => []
  | [a] => [a + x]
  | a :: b :: l => a :: addLast x (b :: l)

/-- `_distribute`: the floor of each share, and the remainder to the last. -/
def distribute (total : ℤ) (weights : List ℤ) : List ℤ :=
  match weights with
  | [] => []
  | [_] => [total]
  | _ =>
    let span := if weights.sum = 0 then 1 else weights.sum
    let parts := weights.map fun w => (total * w).fdiv span
    addLast (total - parts.sum) parts

section

variable {x total : ℤ} {l weights : List ℤ}

@[simp] theorem length_addLast : (addLast x l).length = l.length := by
  induction l using addLast.induct with
  | case1 => rfl
  | case2 a => rfl
  | case3 a b l ih => simpa [addLast] using ih

theorem sum_addLast (h : l ≠ []) : (addLast x l).sum = l.sum + x := by
  induction l using addLast.induct with
  | case1 => exact absurd rfl h
  | case2 a => simp [addLast]
  | case3 a b l ih =>
    rw [addLast, List.sum_cons, List.sum_cons, ih (List.cons_ne_nil b l), add_assoc]

theorem nonneg_addLast (hx : 0 ≤ x) (hl : ∀ a ∈ l, 0 ≤ a) : ∀ a ∈ addLast x l, 0 ≤ a := by
  induction l using addLast.induct with
  | case1 => exact hl
  | case2 a =>
    intro b hb
    rw [List.mem_singleton.mp hb]
    exact add_nonneg (hl a List.mem_cons_self) hx
  | case3 a b l ih =>
    intro c hc
    rcases List.mem_cons.mp hc with rfl | hc
    · exact hl c List.mem_cons_self
    · exact ih (fun d hd => hl d (List.mem_cons_of_mem a hd)) c hc

@[simp] theorem length_distribute : (distribute total weights).length = weights.length := by
  unfold distribute
  split
  · rfl
  · rfl
  · simp

/-- The parts add up to the whole. -/
theorem sum_distribute (h : weights ≠ []) : (distribute total weights).sum = total := by
  unfold distribute
  split
  · exact absurd rfl h
  · simp
  · rw [sum_addLast (by simpa using h)]
    omega

/-- The floors of the shares do not exceed the whole. -/
theorem sum_floors_le (hpos : 0 < weights.sum) :
    (weights.map fun w => (total * w).fdiv weights.sum).sum ≤ total := by
  have hmul : ∀ (span : ℤ) (l : List ℤ), 0 < span →
      span * (l.map fun w => (total * w).fdiv span).sum ≤ total * l.sum := by
    intro span l hspan
    induction l with
    | nil => simp
    | cons w l ih =>
      have hfloor : span * (total * w).fdiv span ≤ total * w := by
        rw [Int.fdiv_eq_ediv_of_nonneg _ hspan.le]
        exact Int.mul_ediv_self_le hspan.ne'
      rw [List.map_cons, List.sum_cons, List.sum_cons, mul_add, mul_add]
      exact add_le_add hfloor ih
  have hle := hmul weights.sum weights hpos
  rw [mul_comm total] at hle
  exact le_of_mul_le_mul_left hle hpos

/-- The parts of a non-negative whole are non-negative. -/
theorem nonneg_distribute (htotal : 0 ≤ total) (hw : ∀ w ∈ weights, 0 < w) :
    ∀ a ∈ distribute total weights, 0 ≤ a := by
  unfold distribute
  split
  · exact fun a ha => absurd ha List.not_mem_nil
  · intro a ha
    rw [List.mem_singleton.mp ha]
    exact htotal
  · rename_i hnil _
    have hpos : 0 < weights.sum := List.sum_pos _ hw hnil
    rw [if_neg hpos.ne']
    refine nonneg_addLast ?_ fun a ha => ?_
    · have hle : (weights.map fun w => (total * w).fdiv weights.sum).sum ≤ total :=
        sum_floors_le hpos
      omega
    · obtain ⟨w, hwmem, rfl⟩ := List.mem_map.mp ha
      exact Int.fdiv_nonneg (mul_nonneg htotal (hw w hwmem).le) hpos.le

end

/-! ### The heat grid -/

/-- The weekdays, Monday to Sunday. -/
def weekdays : List ℕ := List.range 7

/-- `_weekday_occurrences(...).get(day, 0)`. -/
def ReportScope.occurrences (scope : ReportScope) (day : ℕ) : ℕ :=
  (scope.days.filter fun d => weekday d == day).length

/-- The accumulators of `room_heat_grid`, by block index and weekday. -/
structure HeatAcc where
  used : Tally (ℕ × ℕ)
  booked : Tally (ℕ × ℕ)
  sessions : Tally (ℕ × ℕ)
  rooms : ℕ × ℕ → List ℕ

/-- The accumulators before the loop. -/
def HeatAcc.zero : HeatAcc := ⟨.zero, .zero, .zero, fun _ => []⟩

/-- The blocks whose start lies in the slot of a schedule. -/
def occupiedBlocks (blocks : List CampusBlock) (sched : Schedule) : List CampusBlock :=
  blocks.filter fun b =>
    decide (sched.startTime.ticks ≤ b.start.ticks) && decide (b.start.ticks < sched.endTime.ticks)

/-- `b.duration_seconds or 1`. -/
def CampusBlock.weight (b : CampusBlock) : ℤ := if b.durationSeconds = 0 then 1 else b.durationSeconds

/-- `block_index[start]`. -/
def blockIndex (blocks : List CampusBlock) (start : TimeOfDay) : ℕ :=
  (blocks.map CampusBlock.start).idxOf start

/-- The cells a session falls into. -/
def heatCells (blocks : List CampusBlock) (sched : Schedule) : List (ℕ × ℕ) :=
  (occupiedBlocks blocks sched).map fun b => (blockIndex blocks b.start, sched.dayOfWeek)

/-- One round of the loop of `room_heat_grid`: split the time of the session over the
blocks it occupies. -/
def HeatAcc.add (db : Db) (blocks : List CampusBlock) (acc : HeatAcc) (s : Session) : HeatAcc :=
  let sched := db.scheduleOf s
  let c := s.contribution
  if c.inFlight then acc
  else
    let cells := heatCells blocks sched
    let weights := (occupiedBlocks blocks sched).map CampusBlock.weight
    { used := acc.used.postAll (cells.zip (distribute c.used weights))
      booked := acc.booked.postAll (cells.zip (distribute c.booked weights))
      sessions := acc.sessions.postAll (cells.map fun k => (k, 1))
      rooms := fun k => if k ∈ cells then (acc.rooms k).insert s.room else acc.rooms k }

/-- The accumulators after the loop. -/
def Db.heatAcc (db : Db) (scope : ReportScope) (blocks : List CampusBlock) : HeatAcc :=
  (db.roomSessions scope).foldl (HeatAcc.add db blocks) .zero

/-- `HeatCell`. -/
structure HeatCell where
  day : ℕ
  usedHours : ℚ
  bookedHours : ℚ
  availableHours : ℚ
  utilizationPct : ℤ
  sessionCount : ℤ
  roomCount : ℕ
  timetabled : Bool
  deriving DecidableEq

/-- `HeatRow`. -/
structure HeatRow where
  block : CampusBlock
  cells : List HeatCell
  deriving DecidableEq

/-- The cell of a block on a weekday. -/
def Db.heatCell (db : Db) (scope : ReportScope) (acc : HeatAcc) (i : ℕ) (block : CampusBlock)
    (day : ℕ) : HeatCell :=
  let timetabled := (db.timetabledCells scope.term).any fun c => c.day == day && c.start == block.start
  let available : ℤ :=
    if timetabled then db.physicalRooms.length * scope.occurrences day * block.durationSeconds else 0
  { day := day
    usedHours := hours (acc.used (i, day))
    bookedHours := hours (acc.booked (i, day))
    availableHours := hours available
    utilizationPct := hoursPct (acc.used (i, day)) available
    sessionCount := acc.sessions (i, day)
    roomCount := (acc.rooms (i, day)).length
    timetabled := timetabled }

/-- `room_heat_grid`: a row for each block, a cell for each weekday; nothing without a
timetable. -/
def Db.roomHeatGrid (db : Db) (scope : ReportScope) : Option (List HeatRow) :=
  (db.campusBlockLadder scope.term).map fun blocks =>
    let acc := db.heatAcc scope blocks
    blocks.zipIdx.map fun p =>
      ⟨p.1, weekdays.map fun day => db.heatCell scope acc p.2 p.1 day⟩

/-- The cells of a grid over so many blocks. -/
def gridKeys (blocks : ℕ) : List (ℕ × ℕ) := (List.range blocks).product weekdays

/-! ### The ladder -/

section

variable {db : Db} {scope : ReportScope} {term : Option ℕ} {blocks : List CampusBlock}
  {sched : Schedule}

/-- The blocks of a ladder are those of the active schedules. -/
theorem mem_campusBlockLadder (h : db.campusBlockLadder term = some blocks) {b : CampusBlock} :
    b ∈ blocks ↔ ∃ sched ∈ db.activeSchedules term, db.blockAt term sched.startTime = b := by
  unfold Db.campusBlockLadder at h
  split at h
  · cases h
  · cases h
    rw [List.mem_map]
    constructor
    · rintro ⟨start, hstart, rfl⟩
      rw [List.mem_insertionSort, List.mem_dedup] at hstart
      obtain ⟨sched, hsched, rfl⟩ := List.mem_map.mp hstart
      exact ⟨sched, hsched, rfl⟩
    · rintro ⟨sched, hsched, rfl⟩
      refine ⟨sched.startTime, ?_, rfl⟩
      rw [List.mem_insertionSort, List.mem_dedup]
      exact List.mem_map_of_mem hsched

/-- A block of the ladder has a positive weight. -/
theorem weight_pos_of_ladder (h : db.campusBlockLadder term = some blocks) {b : CampusBlock}
    (hb : b ∈ blocks) : 0 < b.weight := by
  obtain ⟨sched, -, rfl⟩ := (mem_campusBlockLadder h).mp hb
  have hnonneg : 0 ≤ (db.blockAt term sched.startTime).durationSeconds :=
    blockDurationSeconds_nonneg _
  unfold CampusBlock.weight
  split
  · exact one_pos
  · rename_i hne
    exact lt_of_le_of_ne hnonneg (Ne.symm hne)

/-- Every active schedule starts with a block of the ladder. -/
theorem exists_block_of_active (h : db.campusBlockLadder term = some blocks)
    (hsched : sched ∈ db.activeSchedules term) : ∃ b ∈ blocks, b.start = sched.startTime :=
  ⟨db.blockAt term sched.startTime, (mem_campusBlockLadder h).mpr ⟨sched, hsched, rfl⟩, rfl⟩

/-- Without a ladder there is no active schedule. -/
theorem activeSchedules_of_ladder_none (h : db.campusBlockLadder term = none) :
    db.activeSchedules term = [] := by
  unfold Db.campusBlockLadder at h
  split at h
  · exact List.isEmpty_iff.mp ‹_›
  · cases h

/-- The schedule of a session in a room report is an active one of the term. -/
theorem scheduleOf_mem_activeSchedules {s : Session} (hs : s ∈ db.roomSessions scope) :
    db.scheduleOf s ∈ db.activeSchedules scope.term := by
  have hin := (Db.mem_scopedSessions.mp (List.mem_filter.mp hs).1).2
  simp only [Db.inScope, Bool.and_eq_true] at hin
  obtain ⟨sched, hget, hsel⟩ := (Option.any_eq_true _ _).mp hin.1.1.1.2
  have hof : db.scheduleOf s = sched := by
    rw [Db.scheduleOf, hget]
    rfl
  rw [hof]
  exact List.mem_filter.mpr ⟨(Table.get?_eq_some_iff.mp hget).1, hsel⟩

/-- A class of positive length on a weekday occupies a block of the ladder. -/
theorem occupiedBlocks_ne_nil (h : db.campusBlockLadder term = some blocks)
    (hsched : sched ∈ db.activeSchedules term)
    (hlen : sched.startTime.ticks < sched.endTime.ticks) : occupiedBlocks blocks sched ≠ [] := by
  obtain ⟨b, hb, hstart⟩ := exists_block_of_active h hsched
  refine List.ne_nil_of_mem (List.mem_filter.mpr ⟨hb, ?_⟩)
  simp [hstart, hlen]

/-- The cells a session falls into are cells of the grid. -/
theorem mem_gridKeys_of_heatCells (hday : sched.dayOfWeek < 7) {k : ℕ × ℕ}
    (hk : k ∈ heatCells blocks sched) : k ∈ gridKeys blocks.length := by
  obtain ⟨b, hb, rfl⟩ := List.mem_map.mp hk
  have hstart : b.start ∈ blocks.map CampusBlock.start :=
    List.mem_map_of_mem (List.mem_filter.mp hb).1
  have hindex := List.idxOf_lt_length_of_mem hstart
  rw [List.length_map] at hindex
  exact List.pair_mem_product.mpr ⟨List.mem_range.mpr hindex, List.mem_range.mpr hday⟩

theorem nodup_gridKeys (n : ℕ) : (gridKeys n).Nodup :=
  List.nodup_range.product List.nodup_range

end

end FluxTrack
