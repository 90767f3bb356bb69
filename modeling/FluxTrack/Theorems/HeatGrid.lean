import FluxTrack.Scheduling.RoomReporting
import FluxTrack.System

/-!
# The heat grid and the campus card

Both reports fold over the same sessions. The card adds the time of a session to one
total, the grid splits it over the cells the session occupies. The split loses
nothing, and every session of a proper timetable occupies a cell, so the cells add up
to the card; the published figures differ by the rounding only.

## Main definitions

* `Db.ProperTimetable` — the classes of a term have a length and a weekday
* `Db.heatTally` — the accumulators behind the grid

## Main results

* `heatGrid_reconciles`
-/

namespace FluxTrack

open Calendar Relational

/-- Every active schedule of the term ends after it starts, on one of seven weekdays. -/
def Db.ProperTimetable (db : Db) (term : Option ℕ) : Prop :=
  ∀ sched ∈ db.activeSchedules term,
    sched.startTime.ticks < sched.endTime.ticks ∧ sched.dayOfWeek < 7

instance (db : Db) (term : Option ℕ) : Decidable (db.ProperTimetable term) :=
  inferInstanceAs (Decidable (∀ sched ∈ db.activeSchedules term, _ ∧ _))

/-! ### One session -/

section

variable {db : Db} {term : Option ℕ} {blocks : List CampusBlock} {acc : HeatAcc} {t : RoomTotals}
  {s : Session}

/-- The parts of a session's time are posted to cells of the grid and add up to it. -/
theorem postings_distribute (h : db.campusBlockLadder term = some blocks)
    (hproper : db.ProperTimetable term) {sched : Schedule} (hsched : sched ∈ db.activeSchedules term)
    (total : ℤ) :
    let posts := (heatCells blocks sched).zip
      (distribute total ((occupiedBlocks blocks sched).map CampusBlock.weight))
    (∀ p ∈ posts, p.1 ∈ gridKeys blocks.length) ∧ (posts.map Prod.snd).sum = total ∧
      (0 ≤ total → ∀ p ∈ posts, 0 ≤ p.2) := by
  obtain ⟨hlen, hday⟩ := hproper sched hsched
  have hne : (occupiedBlocks blocks sched).map CampusBlock.weight ≠ [] := fun heq =>
    occupiedBlocks_ne_nil h hsched hlen (List.map_eq_nil_iff.mp heq)
  refine ⟨fun p hp => ?_, ?_, fun htotal p hp => ?_⟩
  · exact mem_gridKeys_of_heatCells hday (List.of_mem_zip hp).1
  · rw [List.map_snd_zip (by simp [heatCells]), sum_distribute hne]
  · refine nonneg_distribute htotal (fun w hw => ?_) p.2 (List.of_mem_zip hp).2
    obtain ⟨b, hb, rfl⟩ := List.mem_map.mp hw
    exact weight_pos_of_ladder h (List.mem_filter.mp hb).1

/-- The grid and the card agree so far: the cells add up to the totals, and none is
negative. -/
structure Reconciled (n : ℕ) (acc : HeatAcc) (t : RoomTotals) : Prop where
  used : acc.used.total (gridKeys n) = t.usedSeconds
  booked : acc.booked.total (gridKeys n) = t.bookedSeconds
  usedNonneg : ∀ k, 0 ≤ acc.used k
  bookedNonneg : ∀ k, 0 ≤ acc.booked k

theorem reconciled_zero (n : ℕ) : Reconciled n .zero .zero where
  used := Tally.total_zero
  booked := Tally.total_zero
  usedNonneg _ := le_refl 0
  bookedNonneg _ := le_refl 0

/-- A session is added to both alike. -/
theorem Reconciled.add (h : db.campusBlockLadder term = some blocks)
    (hproper : db.ProperTimetable term) (hs : db.scheduleOf s ∈ db.activeSchedules term)
    (hrec : Reconciled blocks.length acc t) :
    Reconciled blocks.length (acc.add db blocks s) (t.add s) := by
  unfold HeatAcc.add RoomTotals.add
  by_cases hfly : s.contribution.inFlight = true
  · rw [if_pos hfly, if_pos hfly]
    exact ⟨hrec.used, hrec.booked, hrec.usedNonneg, hrec.bookedNonneg⟩
  · rw [if_neg hfly, if_neg hfly]
    obtain ⟨hbooked, hused⟩ := s.contribution_nonneg
    obtain ⟨hkeys, hsum, hnonneg⟩ := postings_distribute h hproper hs s.contribution.used
    obtain ⟨hkeys', hsum', hnonneg'⟩ := postings_distribute h hproper hs s.contribution.booked
    refine ⟨?_, ?_, ?_, ?_⟩
    · rw [Tally.total_postAll (nodup_gridKeys _) hkeys, hrec.used, hsum]
    · rw [Tally.total_postAll (nodup_gridKeys _) hkeys', hrec.booked, hsum']
    · exact Tally.nonneg_postAll hrec.usedNonneg (hnonneg hused)
    · exact Tally.nonneg_postAll hrec.bookedNonneg (hnonneg' hbooked)

end

/-! ### All sessions -/

/-- The accumulators behind the grid: those of the ladder, none without one. -/
def Db.heatTally (db : Db) (scope : ReportScope) : HeatAcc :=
  db.heatAcc scope ((db.campusBlockLadder scope.term).getD [])

/-- The cells of the grid, row by row. -/
def Db.gridCells (db : Db) (scope : ReportScope) : List HeatCell :=
  ((db.roomHeatGrid scope).getD []).flatMap HeatRow.cells

section

variable {db : Db} {scope : ReportScope}

theorem reconciled_heatTally (hproper : db.ProperTimetable scope.term) :
    Reconciled ((db.campusBlockLadder scope.term).getD []).length (db.heatTally scope)
      (db.roomTotals scope) := by
  cases hladder : db.campusBlockLadder scope.term with
  | none =>
    -- without a timetable no session is in scope
    have hnil : db.roomSessions scope = [] := by
      refine List.eq_nil_iff_forall_not_mem.mpr fun s hs => ?_
      have hmem := scheduleOf_mem_activeSchedules hs
      rw [activeSchedules_of_ladder_none hladder] at hmem
      exact absurd hmem List.not_mem_nil
    rw [Db.heatTally, Db.heatAcc, Db.roomTotals, hnil]
    exact reconciled_zero _
  | some blocks =>
    rw [Db.heatTally, hladder]
    have hfold : ∀ (l : List Session) (acc : HeatAcc) (t : RoomTotals),
        (∀ s ∈ l, db.scheduleOf s ∈ db.activeSchedules scope.term) →
        Reconciled blocks.length acc t →
        Reconciled blocks.length (l.foldl (HeatAcc.add db blocks) acc) (l.foldl RoomTotals.add t) := by
      intro l
      induction l with
      | nil => exact fun acc t _ h => h
      | cons s l ih =>
        intro acc t hl h
        exact ih _ _ (fun a ha => hl a (List.mem_cons_of_mem s ha))
          (h.add hladder hproper (hl s List.mem_cons_self))
    exact hfold _ _ _ (fun s hs => scheduleOf_mem_activeSchedules hs) (reconciled_zero _)

/-- The published hours of the cells, in the order of their keys. -/
theorem map_usedHours_gridCells (db : Db) (scope : ReportScope) :
    (db.gridCells scope).map HeatCell.usedHours =
      (gridKeys ((db.campusBlockLadder scope.term).getD []).length).map
        fun k => hours ((db.heatTally scope).used k) := by
  cases hladder : db.campusBlockLadder scope.term with
  | none =>
    rw [Db.gridCells, Db.roomHeatGrid, hladder]
    rfl
  | some blocks =>
    have hindex : List.range blocks.length = blocks.zipIdx.map Prod.snd := by
      rw [List.zipIdx_map_snd, List.range_eq_range']
    rw [Db.gridCells, Db.roomHeatGrid, Db.heatTally, hladder, Option.map_some, Option.getD_some,
      Option.getD_some, gridKeys, List.product, hindex]
    simp only [List.flatMap_map, List.map_flatMap, List.map_map]
    rfl

end

/-- For a proper timetable the cells of the heat grid add up to the campus card: the
accumulated seconds exactly, none of them negative, and the published hours up to half
a tenth of an hour for each cell and for the card. -/
theorem heatGrid_reconciles (db : Db) (scope : ReportScope)
    (hproper : db.ProperTimetable scope.term) :
    let keys := gridKeys ((db.campusBlockLadder scope.term).getD []).length
    (db.heatTally scope).used.total keys = (db.roomTotals scope).usedSeconds ∧
    (db.heatTally scope).booked.total keys = (db.roomTotals scope).bookedSeconds ∧
    (∀ k, 0 ≤ (db.heatTally scope).used k ∧ 0 ≤ (db.heatTally scope).booked k) ∧
    |((db.gridCells scope).map HeatCell.usedHours).sum - (db.roomUtilization scope).usedHours| ≤
      1 / 20 * (db.gridCells scope).length + 1 / 20 := by
  intro keys
  have hrec := reconciled_heatTally hproper
  refine ⟨hrec.used, hrec.booked, fun k => ⟨hrec.usedNonneg k, hrec.bookedNonneg k⟩, ?_⟩
  have hcells := map_usedHours_gridCells db scope
  have hlength : (db.gridCells scope).length =
      (keys.map fun k => (db.heatTally scope).used k).length := by
    rw [← List.length_map HeatCell.usedHours, hcells, List.length_map, List.length_map]
  have hcard : (db.roomUtilization scope).usedHours =
      hours (keys.map fun k => (db.heatTally scope).used k).sum := congrArg hours hrec.used.symm
  have hmap : (keys.map fun k => (db.heatTally scope).used k).map hours =
      keys.map fun k => hours ((db.heatTally scope).used k) := List.map_map
  rw [hcells, hlength, hcard, ← hmap]
  exact abs_sum_hours_sub_le _

namespace Campus

/-- The Monday with its nine o'clock class held to the end. -/
def oneHeld : Db :=
  { campus with
    sessions := (campus.sessions.update (fun s => s.id == 1)
      (Session.checkIn (wallClock monday 9 5 0) .qrScan)).update (fun s => s.id == 1)
      (Session.checkOut (wallClock monday 10 0 0)) }

end Campus

/-- The class was used for 55 of its 60 minutes, in the grid as on the card. -/
theorem heatGrid_reconciles_oneHeld :
    Campus.oneHeld.ProperTimetable (some 1) ∧
    (Campus.oneHeld.roomTotals ⟨some 1, Campus.monday, Campus.monday, none, none⟩).usedSeconds =
      3300 ∧
    (Campus.oneHeld.heatTally ⟨some 1, Campus.monday, Campus.monday, none, none⟩).used.total
      (gridKeys ((Campus.oneHeld.campusBlockLadder (some 1)).getD []).length) = 3300 := by
  have hproper : Campus.oneHeld.ProperTimetable (some 1) := by decide +kernel
  have hused : (Campus.oneHeld.roomTotals
      ⟨some 1, Campus.monday, Campus.monday, none, none⟩).usedSeconds = 3300 := by
    decide +kernel
  have htotal := (heatGrid_reconciles Campus.oneHeld
    ⟨some 1, Campus.monday, Campus.monday, none, none⟩ hproper).1
  exact ⟨hproper, hused, htotal.trans hused⟩

end FluxTrack
