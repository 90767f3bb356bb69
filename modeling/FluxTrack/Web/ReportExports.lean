import FluxTrack.Ops.Reports
import FluxTrack.Web.ReportingCommon

/-!
# Exports of reports

The views of `web/dean.py` and `web/ifo.py` that send a report as a file: one that is made for the
request, or one that has been stored. A dean is sent those of the own department.

## Main definitions

* `deanScorecardExport`, `reportExport`, `deanWeeklyDownload` — the files for a dean
* `scorecardCsv`, `ifoWeeklyDownload` — the files for the facilities office
-/

namespace FluxTrack

open Relational

/-- The answer to a request for a file. -/
inductive ExportReply
  | file (data contentType filename : String)
  | badRequest (text : String)
  | notFound (text : String)
  /-- the request raises -/
  | failed
  deriving DecidableEq

/-- What a request for a file says besides its address: the query, and the day it is made. -/
structure ExportRequest where
  tables : TextTables
  parsers : DateParsers
  get : QueryDict
  today : ℤ

namespace ReportDesk

variable (w : ReportDesk) (v : ReportVendor) (req : ExportRequest)

/-- `_dean_report_scope` and `_ifo_report_scope` -/
def exportScope : Except Err (Except ScopeError PageScope) :=
  w.db.weekScope req.tables req.parsers w.weekStart req.get req.today

/-- `request.user.department` -/
def departmentOf (user : ℕ) : Option Department :=
  (w.db.user user).department.bind w.departments.get?

/-- Go on with the scope of a request, or answer that it has none. -/
def withScope (invalid : String → ExportReply) (k : PageScope → ExportReply) : ExportReply :=
  match w.exportScope req with
  | .error _ => .failed
  | .ok (.error e) => invalid e.message
  | .ok (.ok scope) => k scope

/-! ### Files made for the request -/

/-- The row of one faculty member as a file. -/
def scorecardFile (scope : PageScope) (department : Option ℕ) (faculty : ℕ) : ExportReply :=
  .file
    (buildCsv ((w.db.facultyAttendance
      ⟨some scope.term.id, scope.start, scope.finish, department, some scope.asOf⟩).filter
        fun r => r.facultyId == faculty))
    "text/csv"
    ("scorecard-" ++ toString faculty ++ "-term-" ++ toString scope.term.id ++ "-" ++
      Py.isoformat scope.start ++ ".csv")

/-- `scorecard_export` -/
def deanScorecardExport (user faculty : ℕ) : ExportReply :=
  match w.departmentOf user with
  | none => .notFound "No department."
  | some d =>
    match w.db.users.get? faculty with
    | none => .notFound "No User matches the given query."
    | some u =>
      if u.department = some d.id then
        w.withScope req .badRequest fun scope => w.scorecardFile scope (some d.id) faculty
      else .notFound "No User matches the given query."

/-- `scorecard_csv` -/
def scorecardCsv (faculty : ℕ) : ExportReply :=
  match w.db.users.get? faculty with
  | none => .notFound "No User matches the given query."
  | some _ => w.withScope req .badRequest fun scope => w.scorecardFile scope none faculty

/-- `report_export` -/
def reportExport (user : ℕ) (fmt : String) : ExportReply :=
  w.withScope req .badRequest fun scope =>
    let dept := w.departmentOf user
    let rows := match dept with
      | none => []
      | some d => w.db.facultyAttendance
          ⟨some scope.term.id, scope.start, scope.finish, some d.id, some scope.asOf⟩
    let name := "attendance-" ++ dept.elim "none" Department.code ++ "-term-" ++
      toString scope.term.id ++ "-" ++ Py.isoformat scope.start
    if fmt = "csv" then .file (buildCsv rows) "text/csv" (name ++ ".csv")
    else if fmt = "pdf" then
      .file (buildPdf v.render rows scope.start scope.finish (dept.map Department.code))
        "application/pdf" (name ++ ".pdf")
    else .notFound "Unknown export format."

/-! ### Stored files -/

/-- `path.rsplit("/", 1)[-1]` -/
def lastPart (path : String) : String :=
  String.ofList (path.toList.reverse.takeWhile (· != '/')).reverse

/-- A stored file of a report. -/
def storedFile (path contentType : String) : ExportReply :=
  if path = "" then .notFound "Report file not found."
  else
    match w.storage.lookup path with
    | none => .notFound "Report file not found."
    | some data => .file data contentType (lastPart path)

/-- The file of a report in a format. -/
def reportFile (r : WeeklyReport) (fmt : String) : ExportReply :=
  if fmt = "csv" then w.storedFile r.csvPath "text/csv"
  else if fmt = "pdf" then w.storedFile r.pdfPath "application/pdf"
  else .notFound "Unknown export format."

/-- `web.dean.weekly_download` -/
def deanWeeklyDownload (user pk : ℕ) (fmt : String) : ExportReply :=
  match w.departmentOf user with
  -- without a department the report of all departments would match
  | none => .notFound "No department."
  | some d =>
    w.withScope req .notFound fun scope =>
      match w.reports.get? pk with
      | none => .notFound "No WeeklyReport matches the given query."
      | some r =>
        if r.term = scope.term.id ∧ r.department = some d.id then w.reportFile r fmt
        else .notFound "No WeeklyReport matches the given query."

/-- `web.ifo.weekly_download` -/
def ifoWeeklyDownload (pk : ℕ) (fmt : String) : ExportReply :=
  w.withScope req .notFound fun scope =>
    match w.reports.get? pk with
    | none => .notFound "No WeeklyReport matches the given query."
    | some r =>
      if r.term = scope.term.id then w.reportFile r fmt
      else .notFound "No WeeklyReport matches the given query."

end ReportDesk

end FluxTrack
