import FluxTrack.Data.Builtins
import FluxTrack.Data.Rounding
import FluxTrack.Db
import Mathlib.Data.List.Dedup

/-!
# Attendance reports

The attendance aggregates of `scheduling/reporting.py`: the weekly rows by faculty
member, the department totals and the scorecard of one faculty member. All of them
slice one selection of sessions and read only the stored status. A percentage is
the exact quotient, rounded half up.

## Main definitions

* `ReportScope`, `Db.scopedSessions` — `_scoped_sessions`
* `pct`, `avgMinutes` — the rounded figures
* `Db.facultyAttendance`, `Db.deptSummary`, `Db.facultyScorecard` — the reports

## Main results

* `mem_facultyAttendance` — there is one row for each faculty member with a session
* `filter_faculty_scopedSessions` — a row and a scorecard are about the same sessions
-/

namespace FluxTrack

open Calendar Relational

instance : Inhabited User := ⟨⟨0, "", "", .faculty, none, false, false, "", ""⟩⟩

/-- The arguments a report is asked for. -/
structure ReportScope where
  term : Option ℕ
  start : ℤ
  finish : ℤ
  department : Option ℕ
  asOf : Option ℤ

/-- `HELD_STATUSES`. -/
def SessionStatus.isHeld : SessionStatus → Bool
  | .active | .completed => true
  | _ => false

namespace Db

/-- The user with a primary key. -/
def user (db : Db) (pk : ℕ) : User := (db.users.get? pk).getD default

/-- The filters of `_scoped_sessions`. -/
def inScope (db : Db) (scope : ReportScope) (faculty : Option ℕ) (s : Session) : Bool :=
  (decide (scope.start ≤ s.date) && decide (s.date ≤ scope.finish)) &&
    ((db.schedules.get? s.schedule).any fun sched =>
      some sched.term == scope.term && sched.status == .active) &&
    (scope.department.isNone || (db.user s.faculty).department == scope.department) &&
    (faculty.isNone || faculty == some s.faculty) &&
    scope.asOf.elim true fun d => decide (s.date ≤ d)

/-- `_scoped_sessions`: the sessions every aggregate slices. -/
def scopedSessions (db : Db) (scope : ReportScope) (faculty : Option ℕ) : List Session :=
  db.sessionList.filter (db.inScope scope faculty)

theorem mem_scopedSessions {db : Db} {scope : ReportScope} {faculty : Option ℕ} {s : Session} :
    s ∈ db.scopedSessions scope faculty ↔ s ∈ db.sessions ∧ db.inScope scope faculty s = true := by
  rw [scopedSessions, List.mem_filter, mem_sessionList]

/-- The session carries a validation with the action `verified`. -/
def isVerified (db : Db) (s : Session) : Bool :=
  db.validations.rows.any fun v => v.session == some s.id && v.action == .verified

end Db

/-! ### Figures -/

/-- `_pct`. -/
def pct (held scheduled : ℕ) : ℤ :=
  if scheduled = 0 then 0 else Rounding.halfUp ((100 * held : ℕ) / scheduled)

/-- `int(delta.total_seconds())`. -/
def totalSeconds (delta : ℤ) : ℤ := delta.tdiv second

/-- `session_minutes_late`: whole seconds late, never negative. -/
def sessionMinutesLate (scheduledStart : ℤ) : Option ℤ → ℤ
  | none => 0
  | some actualStart => max 0 (totalSeconds (actualStart - scheduledStart))

/-- `_avg_minutes`. -/
def avgMinutes (totalSeconds : ℤ) (heldWithStart : ℕ) : ℚ :=
  if heldWithStart = 0 then 0 else Rounding.quantize 10 (totalSeconds / heldWithStart / 60)

/-- `_name`. -/
def fullName (u : User) : String := Py.strip (u.firstName ++ " " ++ u.lastName)

/-- One entry of `_lateness_map`. -/
structure Lateness where
  totalSeconds : ℤ
  lateCount : ℕ
  heldWithStart : ℕ
  deriving DecidableEq

/-- One more session in the entry of its faculty member. -/
def Lateness.add (l : Lateness) (s : Session) : Lateness :=
  let secs := sessionMinutesLate s.scheduledStart s.actualStart
  ⟨l.totalSeconds + secs, l.lateCount + (if 60 ≤ secs then 1 else 0), l.heldWithStart + 1⟩

/-- `held_ws >= 5 and late_ct / held_ws >= 0.30`. -/
def Lateness.chronic (l : Lateness) : Bool :=
  decide (5 ≤ l.heldWithStart) && decide (3 * l.heldWithStart ≤ 10 * l.lateCount)

/-- `_lateness_map(qs).get(faculty, (0, 0, 0))`. -/
def latenessMap (qs : List Session) (faculty : ℕ) : Lateness :=
  (qs.filter fun s => s.faculty == faculty && s.status.isHeld && s.actualStart.isSome).foldl
    Lateness.add ⟨0, 0, 0⟩

/-- `AbsenceItem`. -/
structure AbsenceItem where
  courseCode : String
  sectionName : String
  date : ℤ
  deriving DecidableEq

/-- `_absence_map(qs).get(faculty, [])`. -/
def Db.absenceMap (db : Db) (qs : List Session) (faculty : ℕ) : List AbsenceItem :=
  ((qs.filter fun s => s.faculty == faculty && s.status == .absent).insertionSort
      fun a b => a.date ≤ b.date).map
    fun s => ⟨(db.scheduleOf s).courseCode, (db.scheduleOf s).sectionName, s.date⟩

/-- `_verified_map(qs).get(faculty, 0)`: a session counts once however often it was
verified. -/
def Db.verifiedMap (db : Db) (qs : List Session) (faculty : ℕ) : ℕ :=
  (qs.filter fun s => s.faculty == faculty && db.isVerified s).length

/-- The counts by status that the aggregates share: `Count("id")` with and without a
filter on the status. -/
structure StatusCounts where
  scheduled : ℕ
  held : ℕ
  absent : ℕ
  earlyEnds : ℕ
  deriving DecidableEq

/-- The counts of a selection. -/
def statusCounts (qs : List Session) : StatusCounts where
  scheduled := qs.length
  held := (qs.filter fun s => s.status.isHeld).length
  absent := (qs.filter fun s => s.status == .absent).length
  earlyEnds := (qs.filter fun s => s.endedEarly).length

/-! ### Reports -/

/-- `FacultyRow`. -/
structure FacultyRow where
  facultyId : ℕ
  name : String
  scheduled : ℕ
  held : ℕ
  absent : ℕ
  verified : ℕ
  attendancePct : ℤ
  earlyEnds : ℕ
  absences : List AbsenceItem
  minutesLateAvg : ℚ
  lateSessions : ℕ
  chronicLate : Bool
  deriving DecidableEq

/-- `DeptSummary`. -/
structure DeptSummary where
  facultyCount : ℕ
  scheduled : ℕ
  held : ℕ
  absent : ℕ
  attendancePct : ℤ
  deriving DecidableEq

/-- `Scorecard`; the breakdown gives the held sessions of each effective modality. -/
structure Scorecard where
  facultyId : ℕ
  name : String
  scheduled : ℕ
  held : ℕ
  absent : ℕ
  attendancePct : ℤ
  earlyEnds : ℕ
  absences : List AbsenceItem
  modalityBreakdown : List (Modality × ℕ)
  minutesLateAvg : ℚ
  lateSessions : ℕ
  chronicLate : Bool
  deriving DecidableEq

namespace Db

/-- The row of one faculty member over a selection of sessions. -/
def facultyRow (db : Db) (qs : List Session) (faculty : ℕ) : FacultyRow :=
  let counts := statusCounts (qs.filter fun s => s.faculty == faculty)
  let late := latenessMap qs faculty
  { facultyId := faculty
    name := fullName (db.user faculty)
    scheduled := counts.scheduled
    held := counts.held
    absent := counts.absent
    verified := db.verifiedMap qs faculty
    attendancePct := pct counts.held counts.scheduled
    earlyEnds := counts.earlyEnds
    absences := db.absenceMap qs faculty
    minutesLateAvg := avgMinutes late.totalSeconds late.heldWithStart
    lateSessions := late.lateCount
    chronicLate := late.chronic }

/-- `order_by("faculty__last_name", "faculty__first_name")`. -/
def nameOrder (db : Db) (a b : ℕ) : Prop :=
  (db.user a).lastName < (db.user b).lastName ∨
    (db.user a).lastName = (db.user b).lastName ∧ (db.user a).firstName ≤ (db.user b).firstName

instance (db : Db) : DecidableRel db.nameOrder := fun a b =>
  inferInstanceAs (Decidable ((db.user a).lastName < (db.user b).lastName ∨ _ ∧ _))

/-- The faculty members of a selection, one group for each, by name. -/
def facultyGroups (db : Db) (qs : List Session) : List ℕ :=
  (qs.map Session.faculty).dedup.insertionSort db.nameOrder

/-- `faculty_attendance`. -/
def facultyAttendance (db : Db) (scope : ReportScope) : List FacultyRow :=
  let qs := db.scopedSessions scope none
  (db.facultyGroups qs).map (db.facultyRow qs)

/-- `dept_summary`. -/
def deptSummary (db : Db) (scope : ReportScope) : DeptSummary :=
  let qs := db.scopedSessions scope none
  let counts := statusCounts qs
  { facultyCount := (qs.map Session.faculty).dedup.length
    scheduled := counts.scheduled
    held := counts.held
    absent := counts.absent
    attendancePct := pct counts.held counts.scheduled }

/-- The held sessions by effective modality, without the modalities that do not occur. -/
def modalityBreakdown (db : Db) (qs : List Session) : List (Modality × ℕ) :=
  ([Modality.f2f, .blended, .online].map fun m =>
    (m, (qs.filter fun s => s.status.isHeld && db.effectiveModality s == m).length)).filter
    fun e => decide (0 < e.2)

/-- `faculty_scorecard`; a department has no bearing on it. -/
def facultyScorecard (db : Db) (scope : ReportScope) (faculty : User) : Scorecard :=
  let qs := db.scopedSessions { scope with department := none } (some faculty.id)
  let counts := statusCounts qs
  let late := latenessMap qs faculty.id
  { facultyId := faculty.id
    name := fullName faculty
    scheduled := counts.scheduled
    held := counts.held
    absent := counts.absent
    attendancePct := pct counts.held counts.scheduled
    earlyEnds := counts.earlyEnds
    absences := db.absenceMap qs faculty.id
    modalityBreakdown := db.modalityBreakdown qs
    minutesLateAvg := avgMinutes late.totalSeconds late.heldWithStart
    lateSessions := late.lateCount
    chronicLate := late.chronic }

end Db

/-! ### Rows -/

section

variable {db : Db} {scope : ReportScope} {qs : List Session}

theorem mem_facultyGroups {faculty : ℕ} :
    faculty ∈ db.facultyGroups qs ↔ ∃ s ∈ qs, s.faculty = faculty := by
  rw [Db.facultyGroups, List.mem_insertionSort, List.mem_dedup, List.mem_map]

/-- There is one row for each faculty member with a session in scope. -/
theorem mem_facultyAttendance {row : FacultyRow} :
    row ∈ db.facultyAttendance scope ↔
      ∃ s ∈ db.scopedSessions scope none,
        db.facultyRow (db.scopedSessions scope none) s.faculty = row := by
  rw [Db.facultyAttendance, List.mem_map]
  constructor
  · rintro ⟨faculty, hmem, rfl⟩
    obtain ⟨s, hs, rfl⟩ := mem_facultyGroups.mp hmem
    exact ⟨s, hs, rfl⟩
  · rintro ⟨s, hs, rfl⟩
    exact ⟨s.faculty, mem_facultyGroups.mpr ⟨s, hs, rfl⟩, rfl⟩

/-- The sessions of one faculty member in a department's scope are those of the
scorecard, if the member belongs to the department. -/
theorem filter_faculty_scopedSessions {faculty : ℕ}
    (hdept : scope.department = none ∨ (db.user faculty).department = scope.department) :
    (db.scopedSessions scope none).filter (fun s => s.faculty == faculty) =
      db.scopedSessions { scope with department := none } (some faculty) := by
  rw [Db.scopedSessions, Db.scopedSessions, List.filter_filter]
  refine List.filter_congr fun s _ => ?_
  by_cases hf : s.faculty = faculty
  · subst hf
    rcases hdept with hnone | heq
    · simp [Db.inScope, hnone]
    · simp [Db.inScope, heq]
  · have hleft : (s.faculty == faculty) = false := beq_eq_false_iff_ne.mpr hf
    have hright : (faculty == s.faculty) = false := beq_eq_false_iff_ne.mpr (Ne.symm hf)
    simp [Db.inScope, hleft, hright]

end

end FluxTrack
