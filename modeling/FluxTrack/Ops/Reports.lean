import FluxTrack.Data.Grouping
import FluxTrack.Ops.Notifications
import FluxTrack.Scheduling.ImportOfferings
import FluxTrack.Scheduling.ReportRender

/-!
# Weekly reports

`ops/reports.py`: the reports of a week, one for each department with classes in it and one for all,
are rendered, stored under names made of the term, the week and the department, and announced. The
scheduler and a command do this, for a week that is over.

## Main definitions

* `ReportDesk` — the rows, and the files in the storage
* `reportWeekBounds`, `saveOverwrite`, `generateWeeklyReport`, `notifyReportReady`,
  `generateWeekReports` — the service
* `jobWeeklyReport`, `weeklyReportCommand` — its callers
-/

namespace FluxTrack

open Calendar Relational Process

/-- `accounts.models.Department`. -/
structure Department where
  id : ℕ
  code : String
  deriving DecidableEq

instance : Keyed Department := ⟨Department.id⟩

/-- A row of `WeeklyReport`. -/
structure WeeklyReport where
  id : ℕ
  term : ℕ
  weekStart : ℤ
  department : Option ℕ
  csvPath : String
  pdfPath : String
  deriving DecidableEq

instance : Keyed WeeklyReport := ⟨WeeklyReport.id⟩

/-- The database, the rows and files of the reports, the policy `reporting_week_start` as text, and
the clock. -/
structure ReportDesk extends Mailroom where
  db : Db
  departments : Table Department
  reports : Table WeeklyReport
  storage : Dict String String
  weekStart : String
  now : ℤ

/-- What is not under `src/`: the names that the storage refuses, the name it takes instead of one
that is taken, and the library for pages. -/
structure ReportVendor where
  rejects : String → Bool
  available : Dict String String → String → String
  render : String → PdfBody → String

/-- How the service and its command fail: `ArchivedTermError`, `SuspiciousFileOperation`,
`MultipleObjectsReturned` and `CommandError`. -/
inductive ReportFailure
  | archivedTerm | suspiciousFile | multipleReports
  | command (text : String)
  deriving DecidableEq

/-- The service is a program over the desk; it takes no locks. -/
abbrev ReportM := Prog Empty ReportDesk ReportFailure

/-! ### Names -/

/-- `_WEEK_START_WEEKDAY.get(str(...).lower(), 0)` -/
def weekStartWeekday (policy : String) : ℕ :=
  if policy.toList.map Char.toLower = "sunday".toList then 6 else 0

/-- `report_week_bounds` -/
def reportWeekBounds (policy : String) (reference : ℤ) : ℤ × ℤ :=
  let offset := ((weekday reference : ℤ) - weekStartWeekday policy) % 7
  let start := reference - offset
  (start, start + 6)

/-- What stands for a department in a name. -/
def reportLabel (department : Option Department) : String := department.elim "ALL" Department.code

/-- The folder of the reports of a week. -/
def reportFolder (term : ℕ) (weekStart : ℤ) : String :=
  "term-" ++ toString term ++ "/" ++ Py.isoformat weekStart ++ "/"

/-- The name of a file of a report. -/
def reportName (term : ℕ) (weekStart : ℤ) (label extension : String) : String :=
  "reports/" ++ reportFolder term weekStart ++ label ++ extension

namespace ReportDesk

variable (w : ReportDesk)

/-- `Department.objects.filter(id__in=...)`, of those that have had classes in the range. -/
def reportedDepartments (term : ℕ) (weekStart weekEnd : ℤ) : List Department :=
  w.departments.rows.filter fun d =>
    (w.db.scopedSessions ⟨some term, weekStart, weekEnd, some d.id, none⟩ none).length != 0

/-- The report of a term, a week and a department, or of all departments. -/
def reportsOf (term : ℕ) (weekStart : ℤ) (department : Option ℕ) : List WeeklyReport :=
  w.reports.rows.filter fun r =>
    r.term == term && r.weekStart == weekStart && r.department == department

/-- The active deans of a department. -/
def deansOf (department : ℕ) : List ℕ :=
  (w.db.users.rows.filter fun u =>
    u.role == .dean && u.isActive && u.department == some department).map User.id

end ReportDesk

/-! ### The service -/

variable (v : ReportVendor)

/-- `require_writable_term` -/
def requireWritable (term : AcademicTerm) : ReportM PUnit :=
  if term.status = .archived then .raise .archivedTerm else pure ⟨⟩

/-- `_save_overwrite` -/
def saveOverwrite (name data : String) : ReportM String :=
  if v.rejects name then .raise .suspiciousFile
  else do
    Prog.modify fun w => { w with storage := w.storage.erase name }
    Prog.modifyGet
      (fun w => if (w.storage.lookup name).isSome then v.available w.storage name else name)
      fun w => { w with
        storage := w.storage.insert
          (if (w.storage.lookup name).isSome then v.available w.storage name else name) data }

/-- `WeeklyReport.objects.get_or_create` -/
def getOrCreateReport (term : ℕ) (weekStart : ℤ) (department : Option ℕ) : ReportM WeeklyReport := do
  match (← Prog.select fun w => w.reportsOf term weekStart department) with
  | [] =>
    Prog.modifyGet (fun w => ⟨w.reports.nextKey, term, weekStart, department, "", ""⟩) fun w =>
      { w with reports := w.reports.insert fun pk => ⟨pk, term, weekStart, department, "", ""⟩ }
  | [r] => pure r
  | _ => .raise .multipleReports

/-- `report.save(update_fields=["csv_path", "pdf_path"])` -/
def saveReport (r : WeeklyReport) (csvPath pdfPath : String) : ReportM PUnit :=
  Prog.modify fun w => { w with
    reports := w.reports.update (fun x => x.id == r.id) fun x =>
      { x with csvPath := csvPath, pdfPath := pdfPath } }

/-- `generate_weekly_report` -/
def generateWeeklyReport (term : AcademicTerm) (weekStart weekEnd : ℤ)
    (department : Option Department) : ReportM PUnit := do
  requireWritable term
  let rows ← Prog.select fun w =>
    w.db.facultyAttendance ⟨some term.id, weekStart, weekEnd, department.map Department.id, none⟩
  let report ← getOrCreateReport term.id weekStart (department.map Department.id)
  let label := reportLabel department
  let csvPath ← saveOverwrite v (reportName term.id weekStart label ".csv") (buildCsv rows)
  let pdfPath ← saveOverwrite v (reportName term.id weekStart label ".pdf")
    (buildPdf v.render rows weekStart weekEnd (department.map Department.code))
  saveReport report csvPath pdfPath

/-- `notify`, with the recipients as they are found. -/
def announce (body link : String) (recipients : ReportDesk → List ℕ) : ReportM PUnit :=
  Prog.modify fun w => { w with
    toMailroom := w.toMailroom.notify weeklyReportReady "Weekly attendance report ready" body link
      (recipients w) w.now }

/-- `notify_report_ready` -/
def notifyReportReady (department : Option Department) (weekStart : ℤ) (link : String) :
    ReportM PUnit := do
  let body := department.elim "All" Department.code ++ " - week of " ++ Py.isoformat weekStart
  announce body link fun w => w.db.usersOfRole .ifoAdmin
  match department with
  | none => pure ⟨⟩
  | some d => announce body link fun w => w.deansOf d.id

/-- One round of the loop, and the last one. -/
def reportDepartment (term : AcademicTerm) (weekStart weekEnd : ℤ) (link : String)
    (department : Option Department) : ReportM PUnit := do
  generateWeeklyReport v term weekStart weekEnd department
  notifyReportReady department weekStart link

/-- `generate_week_reports`: the reports of the departments and then that of all, counted. -/
def generateWeekReports (term : AcademicTerm) (weekStart weekEnd : ℤ) : ReportM ℕ := do
  requireWritable term
  let departments ← Prog.select fun w => w.reportedDepartments term.id weekStart weekEnd
  let link := "/reports/" ++ reportFolder term.id weekStart
  Prog.forEach departments fun d => reportDepartment v term weekStart weekEnd link (some d)
  reportDepartment v term weekStart weekEnd link none
  pure (departments.length + 1)

/-! ### Callers -/

/-- `_job_weekly_report`: the reports of the week before. -/
def jobWeeklyReport (today : ℤ) : ReportM ℕ := do
  match (← Prog.select fun w => w.db.activeTerm) with
  | none => pure 0
  | some term => do
    let bounds ← Prog.select fun w => reportWeekBounds w.weekStart (today - 7)
    generateWeekReports v term bounds.1 bounds.2

/-- `_resolve_term`, of the text of `--term` and what it stands for. -/
def resolveWeeklyTerm (raw : String) (lookup : TermLookup) : ReportM AcademicTerm := do
  let found ← Prog.select fun w =>
    match lookup with
    | .blank => w.db.activeTerm
    | .pk n => w.db.terms.table.get? n
    | .name text => w.db.terms.table.rows.find? fun t => t.name == text
  match found with
  | none =>
    .raise (.command (if lookup = .blank then "No ACTIVE academic term exists."
      else "No academic term found for --term " ++ raw ++ "."))
  | some term =>
    if term.status = .active then pure term
    else .raise (.command "Weekly report generation requires an ACTIVE term.")

/-- The command `generate_weekly_report`: `--week` is not given, no date, or a date in the week. -/
def weeklyReportCommand (raw : String) (lookup : TermLookup) (week : Option (Option ℤ))
    (today : ℤ) : ReportM ℕ := do
  let term ← resolveWeeklyTerm raw lookup
  match week.getD (some (today - 7)) with
  | none => .raise (.command "--week must be a date in YYYY-MM-DD format.")
  | some reference => do
    let bounds ← Prog.select fun w => reportWeekBounds w.weekStart reference
    generateWeekReports v term bounds.1 bounds.2

end FluxTrack
