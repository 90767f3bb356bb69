import FluxTrack.Theorems.HeatGrid
import FluxTrack.Theorems.ReportTotals
import FluxTrack.Web.Hr

/-!
# The payroll export and the attendance report

The export lists the sessions of a term, whatever has become of their classes, and reads the
lateness off every one of them. The report is about active classes, and about the lateness of
sessions that were held. The two agree on a member exactly when the sessions that count are
of active classes and no class that was not held began late.

## Main definitions

* `PayrollAgrees` — the lines of a member and the row of the report agree
* `Db.PayrollSession` — a session of the member in the term and the range

## Main results

* `lateCount_latenessMap` — the late sessions of a row
* `payroll_agrees_iff`
-/

namespace FluxTrack

open Calendar Relational Process

/-- The arguments of the attendance report for a page, over all departments. -/
def PageScope.report (scope : PageScope) (today : ℤ) : ReportScope :=
  ⟨some scope.term.id, scope.start, scope.finish, none, some (min scope.finish today)⟩

/-- The row of a faculty member in the attendance report. -/
def Db.attendanceRow? (db : Db) (scope : ReportScope) (faculty : ℕ) : Option FacultyRow :=
  (db.facultyAttendance scope).find? fun row => row.facultyId == faculty

/-- The lines of a member agree with the row of the report, which is empty if there is none. -/
structure PayrollAgrees (rows : List HrRow) (row : Option FacultyRow) : Prop where
  present : (rows.filter fun r => r.status == "Present").length = row.elim 0 FacultyRow.held
  absent : (rows.filter fun r => r.status == "Absent").length = row.elim 0 FacultyRow.absent
  onTime : ∀ r ∈ rows, r.status = "Absent" → r.minutesLate = 0
  late : (rows.filter fun r => decide (1 ≤ r.minutesLate)).length =
    row.elim 0 FacultyRow.lateSessions

/-- The class of the session is an active one. -/
def Db.ofActiveClass (db : Db) (s : Session) : Bool :=
  (db.schedules.get? s.schedule).any fun sched => sched.status == .active

/-- The session is one of the member in the term and the range. -/
structure Db.PayrollSession (db : Db) (scope : PageScope) (faculty : ℕ) (s : Session) : Prop where
  mem : s ∈ db.sessions
  faculty : s.faculty = faculty
  inTerm : ∃ sched, db.schedules.get? s.schedule = some sched ∧ sched.term = scope.term.id
  dates : scope.start ≤ s.date ∧ s.date ≤ scope.finish

/-- The session began a minute late or more. -/
def Session.late (s : Session) : Bool := decide (60 ≤ sessionMinutesLate s.scheduledStart s.actualStart)

/-! ### One selection, two counts -/

section

variable {α : Type*} {l : List α} {p q : α → Bool}

/-- A narrower count is the same exactly when it leaves nothing out. -/
theorem length_filter_and_iff :
    (l.filter p).length = (l.filter fun a => p a && q a).length ↔
      ∀ a ∈ l, p a = true → q a = true := by
  have hnarrow : (l.filter fun a => p a && q a) = (l.filter p).filter q := by
    rw [List.filter_filter]
    simp only [Bool.and_comm]
  rw [hnarrow, eq_comm, List.length_filter_eq_length_iff]
  simp only [List.mem_filter, and_imp]

end

section

variable {db : Db} {scope : PageScope} {faculty : ℕ} {today : ℤ}

theorem sessionMinutesLate_nonneg (scheduledStart : ℤ) (actualStart : Option ℤ) :
    0 ≤ sessionMinutesLate scheduledStart actualStart := by
  cases actualStart with
  | none => exact le_refl 0
  | some t => exact le_max_left _ _

/-- Whole minutes begin at sixty seconds. -/
theorem one_le_minutesLate_iff {s : Session} :
    decide (1 ≤ (db.hrRow s).minutesLate) = s.late := by
  refine decide_eq_decide.mpr ?_
  have hnonneg := sessionMinutesLate_nonneg s.scheduledStart s.actualStart
  dsimp only [Db.hrRow]
  omega

/-- The late sessions of a row: a session without a start is not late. -/
theorem lateCount_latenessMap (qs : List Session) (faculty : ℕ) :
    (latenessMap qs faculty).lateCount =
      ((qs.filter fun s => s.faculty == faculty).filter fun s => s.late && s.status.isHeld).length := by
  have hfold : ∀ (l : List Session) (acc : Lateness),
      (l.foldl Lateness.add acc).lateCount = acc.lateCount + (l.filter Session.late).length := by
    intro l
    induction l with
    | nil => exact fun _ => rfl
    | cons s l ih =>
      intro acc
      rw [List.foldl_cons, ih, List.filter_cons]
      by_cases hlate : 60 ≤ sessionMinutesLate s.scheduledStart s.actualStart
      · have hyes : s.late = true := decide_eq_true hlate
        simp only [Lateness.add, if_pos hlate, hyes, if_true, List.length_cons]
        omega
      · have hno : s.late = false := decide_eq_false hlate
        simp only [Lateness.add, if_neg hlate, hno, Bool.false_eq_true, if_false]
        omega
  -- the report asks for a start, and a session without one is not late anyway
  rw [latenessMap, hfold, zero_add, List.filter_filter, List.filter_filter]
  refine congrArg List.length (List.filter_congr fun s _ => ?_)
  cases hstart : s.actualStart with
  | none =>
    have hno : s.late = false := by
      rw [Session.late, hstart]
      rfl
    simp [hno]
  | some t => cases s.faculty == faculty <;> cases s.late <;> simp

/-- The row of a member without a session is empty. -/
theorem elim_attendanceRow (scope : ReportScope) (faculty : ℕ) {column : FacultyRow → ℕ}
    (hzero : (db.scopedSessions scope none).filter (fun s => s.faculty == faculty) = [] →
      column (db.facultyRow (db.scopedSessions scope none) faculty) = 0) :
    (db.attendanceRow? scope faculty).elim 0 column =
      column (db.facultyRow (db.scopedSessions scope none) faculty) := by
  -- no row means no session in scope, where the columns are zero
  cases hfind : db.attendanceRow? scope faculty with
  | none =>
    refine (hzero (List.filter_eq_nil_iff.mpr fun s hs hfaculty => ?_)).symm
    exact List.find?_eq_none.mp hfind _ (mem_facultyAttendance.mpr ⟨s, hs, rfl⟩) hfaculty
  | some row =>
    obtain ⟨s, -, rfl⟩ := mem_facultyAttendance.mp (List.mem_of_find?_eq_some hfind)
    have hid := List.find?_some hfind
    rw [Option.elim_some, show s.faculty = faculty from eq_of_beq hid]

/-- The sessions of a report are those of the export whose class is active. -/
theorem filter_faculty_report (hend : scope.finish ≤ today) :
    (db.scopedSessions (scope.report today) none).filter (fun s => s.faculty == faculty) =
      (db.sessionList.filter (db.inHrScope scope ⟨some faculty, none, ""⟩)).filter
        db.ofActiveClass := by
  rw [Db.scopedSessions, List.filter_filter, List.filter_filter]
  refine List.filter_congr fun s _ => ?_
  have hcomm : (some faculty == some s.faculty) = (s.faculty == faculty) := by
    rw [Option.some_beq_some]
    exact Bool.beq_comm
  have hasOf : min scope.finish today = scope.finish := min_eq_left hend
  simp only [Db.inScope, PageScope.report, Db.inHrScope, Db.ofActiveClass, hasOf, hcomm,
    Option.isNone_none, Option.isNone_some, Option.elim_some, Bool.true_or, Bool.false_or,
    Bool.and_true]
  -- both look at the term of the class; the report at its status too
  cases db.schedules.get? s.schedule with
  | none => simp
  | some sched =>
    have hterm : (some sched.term == some scope.term.id) = (sched.term == scope.term.id) :=
      Option.some_beq_some
    rw [Option.any_some, Option.any_some, Option.any_some, hterm]
    cases sched.term == scope.term.id <;> cases sched.status == ScheduleStatus.active <;>
      cases decide (scope.start ≤ s.date) <;> cases decide (s.date ≤ scope.finish) <;>
        cases s.faculty == faculty <;> rfl

theorem mem_payroll {s : Session} :
    s ∈ db.sessionList.filter (db.inHrScope scope ⟨some faculty, none, ""⟩) ↔
      db.PayrollSession scope faculty s := by
  rw [List.mem_filter, Db.mem_sessionList]
  simp only [Db.inHrScope, Option.isNone_none, Option.isNone_some, Bool.true_or, Bool.false_or,
    Bool.and_true, Bool.and_eq_true, Option.any_eq_true, beq_iff_eq, decide_eq_true_eq,
    Option.some.injEq, show ("" : String).isEmpty = true from rfl]
  constructor
  · rintro ⟨hmem, ⟨hterm, hdates⟩, hfaculty⟩
    exact ⟨hmem, hfaculty.symm, hterm, hdates⟩
  · rintro ⟨hmem, hfaculty, hterm, hdates⟩
    exact ⟨hmem, ⟨hterm, hdates⟩, hfaculty.symm⟩

/-- The counts of the lines and of the row, over the sessions of the member. -/
theorem payrollAgrees_iff_counts (hend : scope.finish ≤ today) :
    PayrollAgrees ((db.filteredSessions scope ⟨some faculty, none, ""⟩).map db.hrRow)
        (db.attendanceRow? (scope.report today) faculty) ↔
      ((∀ s, db.PayrollSession scope faculty s → s.status.isHeld = true → db.ofActiveClass s = true) ∧
        (∀ s, db.PayrollSession scope faculty s → (s.status == .absent) = true →
          db.ofActiveClass s = true)) ∧
      (∀ s, db.PayrollSession scope faculty s → s.status = .absent → s.late = false) ∧
      ∀ s, db.PayrollSession scope faculty s → s.late = true →
        (s.status.isHeld && db.ofActiveClass s) = true := by
  have hperm := filteredSessions_perm db scope ⟨some faculty, none, ""⟩
  have hreport := @filter_faculty_report db scope faculty today hend
  -- a count of the lines is a count of the sessions
  have hlines : ∀ {p : HrRow → Bool} {q : Session → Bool}, (∀ s, p (db.hrRow s) = q s) →
      (((db.filteredSessions scope ⟨some faculty, none, ""⟩).map db.hrRow).filter p).length =
        ((db.sessionList.filter (db.inHrScope scope ⟨some faculty, none, ""⟩)).filter q).length := by
    intro p q hpq
    rw [List.filter_map, List.length_map, (hperm.filter _).length_eq]
    exact congrArg List.length (List.filter_congr fun s _ => hpq s)
  -- and so is a count of the row
  have hrow : ∀ {column : FacultyRow → ℕ} {q : Session → Bool},
      (column (db.facultyRow (db.scopedSessions (scope.report today) none) faculty) =
        (((db.scopedSessions (scope.report today) none).filter fun s =>
          s.faculty == faculty).filter q).length) →
      (db.attendanceRow? (scope.report today) faculty).elim 0 column =
        ((db.sessionList.filter (db.inHrScope scope ⟨some faculty, none, ""⟩)).filter
          fun s => q s && db.ofActiveClass s).length := by
    intro column q hcolumn
    rw [elim_attendanceRow _ _ fun hnil => by rw [hcolumn, hnil]; rfl, hcolumn, hreport,
      List.filter_filter]
  have hcounts := @statusCounts_facultyRow db
    (db.scopedSessions (scope.report today) none) faculty
  -- three columns of the row against three counts of the lines
  have hheld := @hrow FacultyRow.held _ hcounts.2.1
  have habsent := @hrow FacultyRow.absent _ hcounts.2.2
  have hlate := @hrow FacultyRow.lateSessions _ (lateCount_latenessMap _ faculty)
  constructor
  · rintro ⟨hp, ha, hon, hl⟩
    rw [hlines fun s => statusLabel_eq_present, hheld, length_filter_and_iff] at hp
    rw [hlines fun s => statusLabel_eq_absent, habsent, length_filter_and_iff] at ha
    rw [hlines fun s => one_le_minutesLate_iff, hlate] at hl
    simp only [Bool.and_assoc] at hl
    rw [length_filter_and_iff] at hl
    refine ⟨⟨fun s hs => hp s (mem_payroll.mpr hs), fun s hs => ha s (mem_payroll.mpr hs)⟩,
      fun s hs habs => ?_, fun s hs => hl s (mem_payroll.mpr hs)⟩
    have hzero := hon (db.hrRow s) (List.mem_map_of_mem (hperm.mem_iff.mpr (mem_payroll.mpr hs)))
      (eq_of_beq (statusLabel_eq_absent.trans (beq_iff_eq.mpr habs)))
    rw [← @one_le_minutesLate_iff db, hzero]
    rfl
  · rintro ⟨⟨hp, ha⟩, hon, hl⟩
    refine ⟨?_, ?_, fun r hr hlabel => ?_, ?_⟩
    · rw [hlines fun s => statusLabel_eq_present, hheld, length_filter_and_iff]
      exact fun s hs => hp s (mem_payroll.mp hs)
    · rw [hlines fun s => statusLabel_eq_absent, habsent, length_filter_and_iff]
      exact fun s hs => ha s (mem_payroll.mp hs)
    · obtain ⟨s, hs, rfl⟩ := List.mem_map.mp hr
      have habs : s.status = .absent :=
        eq_of_beq (statusLabel_eq_absent.symm.trans (beq_iff_eq.mpr hlabel))
      have hno := hon s (mem_payroll.mp (hperm.mem_iff.mp hs)) habs
      rw [← @one_le_minutesLate_iff db, decide_eq_false_iff_not] at hno
      have hnonneg : 0 ≤ (db.hrRow s).minutesLate :=
        Int.ediv_nonneg (sessionMinutesLate_nonneg _ _) (by decide)
      omega
    · rw [hlines fun s => one_le_minutesLate_iff, hlate]
      simp only [Bool.and_assoc]
      rw [length_filter_and_iff]
      exact fun s hs => hl s (mem_payroll.mp hs)

end

/-- The lines of a member agree with the attendance row exactly when the member's sessions
that were held or missed are of active classes, and only sessions that were held began late. -/
theorem payroll_agrees_iff {db : Db} {params : ScopeParams} {today : ℤ} {faculty : ℕ}
    {csv : HrExport} (h : db.attendanceCsv params ⟨some faculty, none, ""⟩ today = .ok csv)
    (hend : csv.scope.finish ≤ today) :
    PayrollAgrees csv.rows (db.attendanceRow? (csv.scope.report today) faculty) ↔
      ∀ s, db.PayrollSession csv.scope faculty s →
        (s.status.isHeld = true ∨ s.status = .absent → db.ofActiveClass s = true) ∧
        (s.late = true → s.status.isHeld = true) := by
  rw [attendanceCsv_eq h, payrollAgrees_iff_counts hend]
  constructor
  · rintro ⟨⟨hheld, habsent⟩, -, hlate⟩ s hs
    refine ⟨fun hcounts => ?_, fun hyes => ?_⟩
    · rcases hcounts with hcounts | hcounts
      · exact hheld s hs hcounts
      · exact habsent s hs (beq_iff_eq.mpr hcounts)
    · exact (Bool.and_eq_true_iff.mp (hlate s hs hyes)).1
  · intro hall
    refine ⟨⟨fun s hs hheld => (hall s hs).1 (.inl hheld),
      fun s hs habsent => (hall s hs).1 (.inr (eq_of_beq habsent))⟩,
      fun s hs habsent => ?_, fun s hs hlate => ?_⟩
    · -- a session that was missed is not held
      refine Bool.eq_false_iff.mpr fun hlate => ?_
      have hheld := (hall s hs).2 hlate
      rw [habsent] at hheld
      cases hheld
    · have hheld := (hall s hs).2 hlate
      rw [hheld, (hall s hs).1 (.inl hheld)]
      rfl

namespace Campus

/-- A request for the Monday of the example. -/
def mondayParams : ScopeParams := ⟨some (some 1), some (some monday), some (some monday), none⟩

/-- After the nine o'clock class was held, it is no longer offered. -/
def discontinued : Db :=
  { oneHeld with schedules := ⟨[
      ⟨1, 1, "CS1", "A", 30, 1, 1, 0, hour 9, hour 10, .f2f, .archived⟩,
      ⟨2, 1, "CS2", "B", 30, 2, 1, 0, hour 8, hour 9, .f2f, .active⟩], by decide⟩ }

end Campus

open Campus in
/-- The teacher of the class that was held is five minutes late in both. -/
theorem payroll_agrees_oneHeld :
    ∃ csv, oneHeld.attendanceCsv mondayParams ⟨some 1, none, ""⟩ monday = .ok csv ∧
      csv.rows.map HrRow.minutesLate = [5] ∧
      PayrollAgrees csv.rows (oneHeld.attendanceRow? (csv.scope.report monday) 1) := by
  have hall : ∀ s ∈ oneHeld.sessions.rows,
      (s.status.isHeld = true ∨ s.status = .absent → oneHeld.ofActiveClass s = true) ∧
      (s.late = true → s.status.isHeld = true) := by
    decide +kernel
  have hrows : (oneHeld.filteredSessions (pageScope hrDefaultWindow term mondayParams monday)
      ⟨some 1, none, ""⟩).map (fun s => (oneHeld.hrRow s).minutesLate) = [5] := by
    decide +kernel
  have hcsv : oneHeld.attendanceCsv mondayParams ⟨some 1, none, ""⟩ monday =
      .ok ⟨pageScope hrDefaultWindow term mondayParams monday,
        (oneHeld.filteredSessions (pageScope hrDefaultWindow term mondayParams monday)
          ⟨some 1, none, ""⟩).map oneHeld.hrRow⟩ := rfl
  refine ⟨_, hcsv, ?_, (payroll_agrees_iff hcsv (by decide +kernel)).mpr fun s hs =>
    hall s hs.mem⟩
  rw [List.map_map]
  exact hrows

open Campus in
/-- The class that is no longer offered stays on the payroll and leaves the report. -/
theorem payroll_disagrees_discontinued :
    ¬ ∀ (db : Db) (params : ScopeParams) (today : ℤ) (faculty : ℕ) (csv : HrExport),
      db.attendanceCsv params ⟨some faculty, none, ""⟩ today = .ok csv → csv.scope.finish ≤ today →
        PayrollAgrees csv.rows (db.attendanceRow? (csv.scope.report today) faculty) := by
  intro h
  have hpresent := (h discontinued mondayParams monday 1 _ rfl (by decide +kernel)).present
  have hlines : ((discontinued.filteredSessions (pageScope hrDefaultWindow term mondayParams monday)
      ⟨some 1, none, ""⟩).map discontinued.hrRow).filter (fun r => r.status == "Present") =
        [⟨"", none, "CS1", "A", monday, wallClock monday 9 0 0, some (wallClock monday 9 5 0), 5,
          "Present", some .qrScan, false⟩] := by
    decide +kernel
  have hreport : (discontinued.attendanceRow?
      ((pageScope hrDefaultWindow term mondayParams monday).report monday) 1).elim 0
        FacultyRow.held = 0 := by
    decide +kernel
  exact absurd ((congrArg List.length hlines).symm.trans (hpresent.trans hreport)) (by decide)

end FluxTrack
