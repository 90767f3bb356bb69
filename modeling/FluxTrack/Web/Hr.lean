import FluxTrack.Scheduling.Reporting

/-!
# The attendance surface for payroll

`web/hr.py` with the scope of `web/reporting_common.py`: one row for each session of a term
and a range of dates, with the label that payroll reads and the minutes the class began late.

## Main definitions

* `Db.selectedReportScope` — `selected_report_scope`
* `Db.filteredSessions` — `_filtered_sessions`
* `statusLabel`, `Db.attendanceCsv` — `status_label` and the rows of `attendance_csv`

## Main results

* `attendanceCsv_eq` — the rows of an export
* `filteredSessions_of_faculty` — the filter by faculty member
-/

namespace FluxTrack

open Calendar Relational

/-! ### The scope -/

/-- The scope parameters of a request: whether a term is named, and by which number; a date
that is not given, is no date, or is one. -/
structure ScopeParams where
  term : Option (Option ℕ)
  start : Option (Option ℤ)
  finish : Option (Option ℤ)
  asOf : Option (Option ℤ)

/-- A valid `web.reporting_common.ReportScope`. -/
structure PageScope where
  term : AcademicTerm
  start : ℤ
  finish : ℤ
  asOf : ℤ
  note : Option String

/-- The two named error states of a scope. -/
structure ScopeError where
  code : String
  message : String
  deriving DecidableEq

/-- `_clamp`. -/
def clamp (value lower upper : ℤ) : ℤ := min (max value lower) upper

/-- The default window of a term, within its dates. -/
def defaultRange (defaultWindow : AcademicTerm → ℤ × ℤ) (term : AcademicTerm) : ℤ × ℤ :=
  -- an archived term is shown as a whole
  let window := if term.status = .active then defaultWindow term else (term.startDate, term.endDate)
  let start := clamp window.1 term.startDate term.endDate
  let finish := clamp window.2 term.startDate term.endDate
  if finish < start then (term.startDate, term.endDate) else (start, finish)

/-- The window and the note of a request in a term. -/
def pageScope (defaultWindow : AcademicTerm → ℤ × ℤ) (term : AcademicTerm) (params : ScopeParams)
    (today : ℤ) : PageScope :=
  let window := defaultRange defaultWindow term
  let invalid := params.start == some none || params.finish == some none || params.asOf == some none
  let start := clamp (params.start.join.getD window.1) term.startDate term.endDate
  let finish := clamp (params.finish.join.getD window.2) term.startDate term.endDate
  -- dates in the wrong order are dropped, and the note says so
  let range := if finish < start then window else (start, finish)
  -- nothing is reported as of a day to come
  let cap := min range.2 today
  let asOf := params.asOf.join.getD cap
  { term := term
    start := range.1
    finish := range.2
    asOf := if term.startDate ≤ cap then clamp asOf term.startDate cap else cap
    note :=
      if finish < start then
        some ("The start date was after the end date, so the report used " ++
          "the selected term's default range.")
      else if invalid then
        some ("That date wasn't valid, so the date filter was ignored and " ++
          "the selected term's safe default was used.")
      else none }

/-- The error for a term that is not there. -/
def invalidTerm : ScopeError :=
  ⟨"invalid-term",
    "That academic term is not available. Choose a term from the report filter."⟩

/-- The error without an active term. -/
def noActiveTerm : ScopeError :=
  ⟨"no-active-term",
    "No active academic term is available. Select a term explicitly to view historical reports."⟩

/-- `selected_report_scope`. -/
def Db.selectedReportScope (db : Db) (defaultWindow : AcademicTerm → ℤ × ℤ) (params : ScopeParams)
    (today : ℤ) : Except ScopeError PageScope :=
  match params.term with
  -- a term that is asked for and not there never falls back to the active one
  | some none => .error invalidTerm
  | some (some pk) =>
    match db.terms.table.get? pk with
    | none => .error invalidTerm
    | some term => .ok (pageScope defaultWindow term params today)
  | none =>
    match db.activeTerm with
    | none => .error noActiveTerm
    | some term => .ok (pageScope defaultWindow term params today)

/-- `_hr_default_window`. -/
def hrDefaultWindow (term : AcademicTerm) : ℤ × ℤ := (term.startDate, term.endDate)

/-! ### The sessions -/

/-- The filters of the surface: those by number apply when they are numbers. -/
structure HrFilters where
  faculty : Option ℕ
  department : Option ℕ
  q : String

/-- `icontains`. -/
def icontains (s q : String) : Bool :=
  (s.toList.map Char.toLower).tails.any fun t => (q.toList.map Char.toLower).isPrefixOf t

namespace Db

/-- The filters of `_filtered_sessions`. -/
def inHrScope (db : Db) (scope : PageScope) (filters : HrFilters) (s : Session) : Bool :=
  ((db.schedules.get? s.schedule).any fun sched => sched.term == scope.term.id) &&
    (decide (scope.start ≤ s.date) && decide (s.date ≤ scope.finish)) &&
    -- a filter that is no number has been dropped before
    (filters.faculty.isNone || filters.faculty == some s.faculty) &&
    (filters.department.isNone || (db.user s.faculty).department == filters.department) &&
    (filters.q.isEmpty || icontains (db.user s.faculty).firstName filters.q ||
      icontains (db.user s.faculty).lastName filters.q ||
      icontains (db.scheduleOf s).courseCode filters.q)

/-- `_filtered_sessions`, the latest first. -/
def filteredSessions (db : Db) (scope : PageScope) (filters : HrFilters) : List Session :=
  (db.sessionList.filter (db.inHrScope scope filters)).insertionSort
    fun a b => b.date < a.date ∨ b.date = a.date ∧ b.scheduledStart ≤ a.scheduledStart

end Db

/-! ### The rows -/

/-- `status_label`. -/
def statusLabel : SessionStatus → String
  | .active | .completed => "Present"
  | .absent => "Absent"
  | _ => "Scheduled"

/-- `csv_safe`. -/
def csvSafe (text : String) : String :=
  if text.toList.head?.any fun c => ['=', '+', '-', '@', '\t', '\r'].contains c then "'" ++ text
  else text

/-- One line of the export. -/
structure HrRow where
  faculty : String
  department : Option ℕ
  course : String
  sectionName : String
  date : ℤ
  scheduledStart : ℤ
  actualStart : Option ℤ
  minutesLate : ℤ
  status : String
  method : Option CheckinMethod
  checkerVerified : Bool
  deriving DecidableEq

/-- An export: its scope and its lines. -/
structure HrExport where
  scope : PageScope
  rows : List HrRow

namespace Db

/-- The line of a session. -/
def hrRow (db : Db) (s : Session) : HrRow where
  faculty := csvSafe (if fullName (db.user s.faculty) = "" then (db.user s.faculty).username
    else fullName (db.user s.faculty))
  department := (db.user s.faculty).department
  course := csvSafe (db.scheduleOf s).courseCode
  sectionName := csvSafe (db.scheduleOf s).sectionName
  date := s.date
  scheduledStart := s.scheduledStart
  actualStart := s.actualStart
  minutesLate := sessionMinutesLate s.scheduledStart s.actualStart / 60
  status := statusLabel s.status
  method := s.checkinMethod
  checkerVerified := db.isVerified s

/-- `attendance_csv`: an invalid scope is a bad request. -/
def attendanceCsv (db : Db) (params : ScopeParams) (filters : HrFilters) (today : ℤ) :
    Except ScopeError HrExport :=
  (db.selectedReportScope hrDefaultWindow params today).map fun scope =>
    ⟨scope, (db.filteredSessions scope filters).map db.hrRow⟩

end Db

section

variable {db : Db} {scope : PageScope} {filters : HrFilters}

/-- The lines of an export are those of the sessions in its scope. -/
theorem attendanceCsv_eq {params : ScopeParams} {today : ℤ} {csv : HrExport}
    (h : db.attendanceCsv params filters today = .ok csv) :
    csv.rows = (db.filteredSessions csv.scope filters).map db.hrRow := by
  unfold Db.attendanceCsv at h
  cases hscope : db.selectedReportScope hrDefaultWindow params today with
  | error e =>
    rw [hscope] at h
    cases h
  | ok scope =>
    rw [hscope] at h
    cases h
    rfl

theorem filteredSessions_perm (db : Db) (scope : PageScope) (filters : HrFilters) :
    (db.filteredSessions scope filters).Perm (db.sessionList.filter (db.inHrScope scope filters)) :=
  List.perm_insertionSort _ _

/-- The filter by faculty member picks the sessions of the member. -/
theorem filteredSessions_of_faculty (hnone : filters.faculty = none) (faculty : ℕ) :
    (db.filteredSessions scope { filters with faculty := some faculty }).Perm
      ((db.filteredSessions scope filters).filter fun s => s.faculty == faculty) := by
  refine (filteredSessions_perm _ _ _).trans
    (List.Perm.trans ?_ ((filteredSessions_perm db scope filters).filter _).symm)
  rw [List.filter_filter]
  refine List.Perm.of_eq (List.filter_congr fun s _ => ?_)
  have hcomm : (some faculty == some s.faculty) = (s.faculty == faculty) := by
    rw [Option.some_beq_some]
    exact Bool.beq_comm
  simp only [Db.inHrScope, hnone, Option.isNone_none, Option.isNone_some, Bool.true_or,
    Bool.false_or, Bool.and_true, hcomm]
  cases s.faculty == faculty <;> simp

theorem statusLabel_eq_present {status : SessionStatus} :
    (statusLabel status == "Present") = status.isHeld := by
  cases status <;> rfl

theorem statusLabel_eq_absent {status : SessionStatus} :
    (statusLabel status == "Absent") = (status == .absent) := by
  cases status <;> rfl

end

end FluxTrack
