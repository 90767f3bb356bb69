import FluxTrack.Data.Fibers
import FluxTrack.Scheduling.Reporting

/-!
# Attendance reports agree with one another

The row of a faculty member, the scorecard and the totals of a department are made by
queries of their own. They slice one selection of sessions: the rows are its groups by
faculty member, and a scorecard is about one of these groups.

## Main definitions

* `AttendanceRecord` — what a row and a scorecard have in common

## Main results

* `record_facultyScorecard` — a scorecard is a row
* `sum_modalityBreakdown` — every held session is in one modality
* `attendance_reports_agree`
-/

namespace FluxTrack

open Calendar Relational

/-- What a row and a scorecard have in common. -/
structure AttendanceRecord where
  scheduled : ℕ
  held : ℕ
  absent : ℕ
  attendancePct : ℤ
  earlyEnds : ℕ
  absences : List AbsenceItem
  minutesLateAvg : ℚ
  lateSessions : ℕ
  chronicLate : Bool
  deriving DecidableEq

/-- The record of a faculty member without a session. -/
def AttendanceRecord.zero : AttendanceRecord := ⟨0, 0, 0, 0, 0, [], 0, 0, false⟩

/-- The record in a row. -/
def FacultyRow.record (r : FacultyRow) : AttendanceRecord :=
  ⟨r.scheduled, r.held, r.absent, r.attendancePct, r.earlyEnds, r.absences, r.minutesLateAvg,
    r.lateSessions, r.chronicLate⟩

/-- The record in a scorecard. -/
def Scorecard.record (c : Scorecard) : AttendanceRecord :=
  ⟨c.scheduled, c.held, c.absent, c.attendancePct, c.earlyEnds, c.absences, c.minutesLateAvg,
    c.lateSessions, c.chronicLate⟩

section

variable {db : Db} {scope : ReportScope} {qs : List Session} {faculty : ℕ}

/-! ### Rows and scorecards -/

theorem nodup_facultyGroups : (db.facultyGroups qs).Nodup :=
  (List.perm_insertionSort _ _).nodup_iff.mpr (List.nodup_dedup _)

/-- What is selected among the sessions of one faculty member anyway. -/
theorem filter_faculty_and (p : Session → Bool) :
    ((qs.filter fun s => s.faculty == faculty).filter fun s => s.faculty == faculty && p s) =
      qs.filter fun s => s.faculty == faculty && p s := by
  rw [List.filter_filter]
  refine List.filter_congr fun s _ => ?_
  cases s.faculty == faculty <;> simp

theorem latenessMap_filter_faculty :
    latenessMap (qs.filter fun s => s.faculty == faculty) faculty = latenessMap qs faculty := by
  have hsame := @filter_faculty_and qs faculty
    fun s => s.status.isHeld && s.actualStart.isSome
  simp only [← Bool.and_assoc] at hsame
  rw [latenessMap, latenessMap, hsame]

theorem absenceMap_filter_faculty :
    db.absenceMap (qs.filter fun s => s.faculty == faculty) faculty = db.absenceMap qs faculty := by
  rw [Db.absenceMap, Db.absenceMap, filter_faculty_and]

/-- A scorecard is the row of its faculty member over all departments. -/
theorem record_facultyScorecard (faculty : User) :
    (db.facultyScorecard scope faculty).record =
      (db.facultyRow (db.scopedSessions { scope with department := none } none)
        faculty.id).record := by
  have hqs := @filter_faculty_scopedSessions db { scope with department := none }
    faculty.id (.inl rfl)
  have hlate := @latenessMap_filter_faculty
    (db.scopedSessions { scope with department := none } none) faculty.id
  have habsent := @absenceMap_filter_faculty db
    (db.scopedSessions { scope with department := none } none) faculty.id
  -- the card is restricted to the member from the start, the row afterwards
  rw [hqs] at hlate habsent
  simp only [Scorecard.record, FacultyRow.record, Db.facultyScorecard, Db.facultyRow, hqs, hlate,
    habsent]

/-- Without a session in scope there is nothing to record. -/
theorem record_facultyRow_of_filter_eq_nil (h : (qs.filter fun s => s.faculty == faculty) = []) :
    (db.facultyRow qs faculty).record = .zero := by
  have hlate := @latenessMap_filter_faculty qs faculty
  have habsent := @absenceMap_filter_faculty db qs faculty
  rw [h] at hlate habsent
  simp only [FacultyRow.record, Db.facultyRow, h, ← hlate, ← habsent]
  rfl

/-! ### Totals -/

theorem statusCounts_facultyRow (qs : List Session) (faculty : ℕ) :
    (db.facultyRow qs faculty).scheduled = (qs.filter fun s => s.faculty == faculty).length ∧
    (db.facultyRow qs faculty).held =
      ((qs.filter fun s => s.faculty == faculty).filter fun s => s.status.isHeld).length ∧
    (db.facultyRow qs faculty).absent =
      ((qs.filter fun s => s.faculty == faculty).filter fun s => s.status == .absent).length :=
  ⟨rfl, rfl, rfl⟩

/-- A count of the rows adds up to the count of the whole selection. -/
theorem sum_facultyAttendance {count : FacultyRow → ℕ} {p : Session → Bool}
    (hcount : ∀ qs faculty, count (db.facultyRow qs faculty) =
      ((qs.filter fun s => s.faculty == faculty).filter p).length) :
    ((db.facultyAttendance scope).map count).sum =
      ((db.scopedSessions scope none).filter p).length := by
  have hrows : (db.facultyAttendance scope).map count =
      (db.facultyGroups (db.scopedSessions scope none)).map fun faculty =>
        (((db.scopedSessions scope none).filter fun s => s.faculty == faculty).filter p).length := by
    rw [Db.facultyAttendance, List.map_map]
    exact List.map_congr_left fun faculty _ => hcount _ _
  -- every session of the selection belongs to the group of its faculty member
  rw [hrows]
  exact Fibers.sum_length_fibers p nodup_facultyGroups fun s hs =>
    mem_facultyGroups.mpr ⟨s, hs, rfl⟩

/-- Groups that are empty add nothing. -/
theorem sum_filter_pos {α : Type*} (l : List (α × ℕ)) :
    ((l.filter fun e => decide (0 < e.2)).map Prod.snd).sum = (l.map Prod.snd).sum := by
  induction l with
  | nil => rfl
  | cons e l ih =>
    rw [List.filter_cons]
    split
    · rw [List.map_cons, List.map_cons, List.sum_cons, List.sum_cons, ih]
    · rename_i he
      have hzero : e.2 = 0 := Nat.eq_zero_of_not_pos (by simpa using he)
      rw [List.map_cons, List.sum_cons, hzero, zero_add, ih]

/-- Every held session is in one modality. -/
theorem sum_modalityBreakdown (db : Db) (qs : List Session) :
    ((db.modalityBreakdown qs).map Prod.snd).sum = (qs.filter fun s => s.status.isHeld).length := by
  have hall : ∀ m : Modality, m ∈ [Modality.f2f, .blended, .online] := by
    intro m
    cases m <;> decide
  have hsum := Fibers.sum_length_fibers (l := qs) (f := db.effectiveModality)
    (fun s => s.status.isHeld) (by decide : [Modality.f2f, .blended, .online].Nodup)
    fun s _ => hall _
  -- the breakdown leaves out empty modalities only
  rw [Db.modalityBreakdown, sum_filter_pos, List.map_map, ← hsum]
  congr 1
  refine List.map_congr_left fun m _ => ?_
  rw [Function.comp_apply, List.filter_filter]

end

/-- The rows add up to the totals of the department, there is one for each faculty member that
the totals count, a scorecard is a row, or zero if there is none, and its modalities add up to
the held sessions. -/
theorem attendance_reports_agree (db : Db) (scope : ReportScope) :
    ((db.facultyAttendance scope).map FacultyRow.scheduled).sum = (db.deptSummary scope).scheduled ∧
    ((db.facultyAttendance scope).map FacultyRow.held).sum = (db.deptSummary scope).held ∧
    ((db.facultyAttendance scope).map FacultyRow.absent).sum = (db.deptSummary scope).absent ∧
    (db.facultyAttendance scope).length = (db.deptSummary scope).facultyCount ∧
    ((db.facultyAttendance scope).map FacultyRow.facultyId).Nodup ∧
    ∀ faculty : User,
      (∀ row ∈ db.facultyAttendance { scope with department := none },
        row.facultyId = faculty.id → (db.facultyScorecard scope faculty).record = row.record) ∧
      ((∀ row ∈ db.facultyAttendance { scope with department := none },
        row.facultyId ≠ faculty.id) → (db.facultyScorecard scope faculty).record = .zero) ∧
      ((db.facultyScorecard scope faculty).modalityBreakdown.map Prod.snd).sum =
        (db.facultyScorecard scope faculty).held := by
  -- three counts, the number of rows, no row twice, and then one member
  refine ⟨?_, ?_, ?_, ?_, ?_, fun faculty => ⟨fun row hrow hid => ?_, fun hnone => ?_, ?_⟩⟩
  · rw [sum_facultyAttendance (p := fun _ => true) fun qs faculty => by
      rw [List.filter_true]
      exact (statusCounts_facultyRow qs faculty).1, List.filter_true]
    rfl
  · exact sum_facultyAttendance fun qs faculty => (statusCounts_facultyRow qs faculty).2.1
  · exact sum_facultyAttendance fun qs faculty => (statusCounts_facultyRow qs faculty).2.2
  · rw [Db.facultyAttendance, List.length_map, Db.facultyGroups, List.length_insertionSort]
    rfl
  · have hids : (db.facultyAttendance scope).map FacultyRow.facultyId =
        db.facultyGroups (db.scopedSessions scope none) := by
      rw [Db.facultyAttendance, List.map_map]
      exact List.map_id _
    rw [hids]
    exact nodup_facultyGroups
  · obtain ⟨s, -, rfl⟩ := mem_facultyAttendance.mp hrow
    rw [record_facultyScorecard, ← hid]
    rfl
  · rw [record_facultyScorecard]
    refine record_facultyRow_of_filter_eq_nil (List.filter_eq_nil_iff.mpr fun s hs hfaculty => ?_)
    exact hnone _ (mem_facultyAttendance.mpr ⟨s, hs, rfl⟩) (eq_of_beq hfaculty)
  · exact sum_modalityBreakdown _ _

end FluxTrack
