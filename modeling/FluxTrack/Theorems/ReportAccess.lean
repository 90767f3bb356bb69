import FluxTrack.Theorems.ReportScopes
import FluxTrack.Theorems.WeeklyReports
import FluxTrack.Web.ReportExports

/-!
# Who is sent which report

What the views that send reports as files send, in any state that the weekly reports can be in. A
dean is sent the rows of the own department. A file of comma-separated values reads back as the rows it
was made of, and nothing in it is a formula.

## Main definitions

* `ExportView` — the views and their arguments
* `Renders` — the files that rows are rendered to

## Main results

* `csv_exports_read_back` — the files of comma-separated values
* `dean_exports_own_department` — the files for a dean
-/

namespace FluxTrack

open Calendar Relational Process

/-- The views that send reports, with the user or the number in their address. -/
inductive ExportView
  | deanScorecard (user faculty : ℕ)
  | deanReport (user : ℕ) (fmt : String)
  | deanWeekly (user pk : ℕ) (fmt : String)
  | ifoScorecard (faculty : ℕ)
  | ifoWeekly (pk : ℕ) (fmt : String)

namespace ExportView

/-- The answer of a view. -/
def reply (v : ReportVendor) (w : ReportDesk) (req : ExportRequest) : ExportView → ExportReply
  | .deanScorecard user faculty => w.deanScorecardExport req user faculty
  | .deanReport user fmt => w.reportExport v req user fmt
  | .deanWeekly user pk fmt => w.deanWeeklyDownload req user pk fmt
  | .ifoScorecard faculty => w.scorecardCsv req faculty
  | .ifoWeekly pk fmt => w.ifoWeeklyDownload req pk fmt

/-- The dean who asks. -/
def dean? : ExportView → Option ℕ
  | .deanScorecard user _ | .deanReport user _ | .deanWeekly user _ _ => some user
  | .ifoScorecard _ | .ifoWeekly _ _ => none

/-- The file is one that has been stored. -/
def stored : ExportView → Bool
  | .deanWeekly _ _ _ | .ifoWeekly _ _ => true
  | _ => false

end ExportView

/-- Rows are rendered as comma-separated values or as pages. -/
def Renders (v : ReportVendor) (rows : List FacultyRow) (contentType data : String) : Prop :=
  (contentType = "text/csv" ∧ data = buildCsv rows) ∨
    (contentType = "application/pdf" ∧ ∃ start finish code,
      data = buildPdf v.render rows start finish code)

/-- The database that a file tells of: the one there is, or for a stored file one that a report in
the archive was made of. -/
def ReportRun.Source (W : ReportRun) (stored : Bool) (db : Db) : Prop :=
  if stored = true then ∃ t s d i, W.archive t s d = some i ∧ db = i.db else db = W.desk.db

/-- A file is sent of rows of the report of some departments. -/
def Sends (v : ReportVendor) (W : ReportRun) (stored : Bool) (department : Option ℕ)
    (contentType data : String) : Prop :=
  ∃ db scope rows, W.Source stored db ∧ rows.Sublist (Db.facultyAttendance db scope) ∧
    scope.department = department ∧ Renders v rows contentType data

section

variable {v : ReportVendor} {W : ReportRun} {w : ReportDesk} {req : ExportRequest}
  {data contentType name : String}

/-- A file is only sent with a scope. -/
theorem withScope_eq_file {invalid : String → ExportReply} {k : PageScope → ExportReply}
    (h : w.withScope req invalid k = .file data contentType name)
    (hinvalid : ∀ text, invalid text ≠ .file data contentType name) :
    ∃ scope, w.exportScope req = .ok (.ok scope) ∧ k scope = .file data contentType name := by
  unfold ReportDesk.withScope at h
  split at h
  · cases h
  · exact absurd h (hinvalid _)
  · rename_i scope hscope
    exact ⟨scope, hscope, h⟩

theorem sends_scorecardFile {scope : PageScope} {department : Option ℕ} {faculty : ℕ}
    (h : W.desk.scorecardFile scope department faculty = .file data contentType name) :
    Sends v W false department contentType data := by
  cases h
  exact ⟨W.desk.db, _, _, rfl, List.filter_sublist, rfl, .inl ⟨rfl, rfl⟩⟩

theorem storedFile_eq_file {path sent : String}
    (h : w.storedFile path sent = .file data contentType name) :
    contentType = sent ∧ w.storage.lookup path = some data := by
  unfold ReportDesk.storedFile at h
  split at h
  · cases h
  · split at h
    · cases h
    · rename_i found hfound
      cases h
      exact ⟨rfl, hfound⟩

/-- A stored file of a report holds rows of its department, or of all if the label of the department
is that of all. -/
theorem sends_reportFile (hW : W.Refines v) {r : WeeklyReport} (hr : r ∈ W.desk.reports)
    {fmt : String} (h : W.desk.reportFile r fmt = .file data contentType name) :
    ∃ o : Option Department, r.department = o.map Department.id ∧
      (∀ d, o = some d → d ∈ W.desk.departments) ∧
      Sends v W true ((if reportLabel o = "ALL" then none else o).map Department.id) contentType
        data := by
  obtain ⟨o, hshelved⟩ := FluxTrack.Refines.shelved hW r hr
  obtain ⟨i, hissue, hcsv, hpdf⟩ := hshelved.files
  refine ⟨o, hshelved.department, hshelved.known, i.db, _, i.rows r.term r.weekStart _,
    ⟨_, _, _, i, hissue, rfl⟩, List.Sublist.refl _, rfl, ?_⟩
  unfold ReportDesk.reportFile at h
  split at h
  · obtain ⟨rfl, hdata⟩ := storedFile_eq_file h
    rw [hshelved.csvPath] at hdata
    exact .inl ⟨rfl, Option.some.inj (hdata.symm.trans hcsv)⟩
  · split at h
    · obtain ⟨rfl, hdata⟩ := storedFile_eq_file h
      rw [hshelved.pdfPath] at hdata
      exact .inr ⟨rfl, _, _, _, Option.some.inj (hdata.symm.trans hpdf)⟩
    · cases h

/-- A report of a range is rendered in the format that is asked for. -/
theorem renders_of_format {rows : List FacultyRow} {fmt csvName pdfName text : String}
    {start finish : ℤ} {code : Option String}
    (h : (if fmt = "csv" then .file (buildCsv rows) "text/csv" csvName
      else if fmt = "pdf" then
        .file (buildPdf v.render rows start finish code) "application/pdf" pdfName
      else .notFound text) = ExportReply.file data contentType name) :
    Renders v rows contentType data := by
  split at h
  · cases h
    exact .inl ⟨rfl, rfl⟩
  · split at h
    · cases h
      exact .inr ⟨rfl, _, _, _, rfl⟩
    · cases h

/-- A dean without a department is sent no stored file, and no rows. -/
theorem renders_of_no_department {e : ExportView} {user : ℕ} (huser : e.dean? = some user)
    (hnone : w.departmentOf user = none) (h : e.reply v w req = .file data contentType name) :
    e.stored = false ∧ Renders v [] contentType data := by
  cases e with
  | ifoScorecard _ => cases huser
  | ifoWeekly _ _ => cases huser
  | deanScorecard _ _ | deanWeekly _ _ _ =>
    cases huser
    simp only [ExportView.reply, ReportDesk.deanScorecardExport, ReportDesk.deanWeeklyDownload,
      hnone] at h
    cases h
  | deanReport _ fmt =>
    cases huser
    simp only [ExportView.reply, ReportDesk.reportExport] at h
    obtain ⟨scope, -, h⟩ := withScope_eq_file h fun _ => nofun
    simp only [hnone] at h
    exact ⟨rfl, renders_of_format h⟩

/-- The department of a user is one there is. -/
theorem mem_of_departmentOf {user : ℕ} {d : Department} (h : w.departmentOf user = some d) :
    d ∈ w.departments := by
  obtain ⟨pk, -, hd⟩ := Option.bind_eq_some_iff.mp h
  exact (Table.get?_eq_some_iff.mp hd).1

/-- A stored file of the report of a department there is. -/
theorem sends_own_reportFile (hW : W.Refines v) {d : Department} (hd : d ∈ W.desk.departments)
    {r : WeeklyReport} (hr : r ∈ W.desk.reports) (hown : r.department = some d.id) {fmt : String}
    (h : W.desk.reportFile r fmt = .file data contentType name) :
    Sends v W true (if d.code = "ALL" then none else some d.id) contentType data := by
  obtain ⟨o, ho, hknown, hsends⟩ := sends_reportFile hW hr h
  -- the row tells the number of its department, and numbers are unique
  obtain rfl : o = some d := by
    refine eq_of_map_id hknown (fun d' hd' => ?_) (ho.symm.trans hown)
    cases hd'
    exact hd
  have hlabel : reportLabel (some d) = d.code := rfl
  rw [hlabel] at hsends
  by_cases hall : d.code = "ALL"
  · rwa [if_pos hall] at hsends ⊢
  · rwa [if_neg hall] at hsends ⊢

/-- A dean of a department is sent rows of that department, but for the stored files of a department
with the label of all. -/
theorem sends_of_department (hW : W.Refines v) {e : ExportView} {user : ℕ} {d : Department}
    (huser : e.dean? = some user) (hd : W.desk.departmentOf user = some d)
    (h : e.reply v W.desk req = .file data contentType name) :
    Sends v W e.stored (if e.stored = true ∧ d.code = "ALL" then none else some d.id) contentType
      data := by
  cases e with
  | ifoScorecard _ => cases huser
  | ifoWeekly _ _ => cases huser
  | deanScorecard _ faculty =>
    cases huser
    simp only [ExportView.reply, ReportDesk.deanScorecardExport, hd] at h
    split at h
    · cases h
    · split at h
      · obtain ⟨scope, -, h⟩ := withScope_eq_file h fun _ => nofun
        rw [if_neg fun hstored => by cases hstored.1]
        exact sends_scorecardFile h
      · cases h
  | deanReport _ fmt =>
    cases huser
    simp only [ExportView.reply, ReportDesk.reportExport] at h
    obtain ⟨scope, -, h⟩ := withScope_eq_file h fun _ => nofun
    rw [if_neg fun hstored => by cases hstored.1]
    simp only [hd] at h
    exact ⟨W.desk.db,
      ⟨some scope.term.id, scope.start, scope.finish, some d.id, some scope.asOf⟩, _, rfl,
      List.Sublist.refl _, rfl, renders_of_format h⟩
  | deanWeekly _ pk fmt =>
    cases huser
    simp only [ExportView.reply, ReportDesk.deanWeeklyDownload, hd] at h
    obtain ⟨scope, -, h⟩ := withScope_eq_file h fun _ => nofun
    split at h
    · cases h
    · rename_i r hr
      split at h
      · rename_i hown
        have hsends := sends_own_reportFile hW (mem_of_departmentOf hd)
          (Table.get?_eq_some_iff.mp hr).1 hown.2 h
        by_cases hall : d.code = "ALL"
        · rw [if_pos hall] at hsends
          rwa [if_pos ⟨rfl, hall⟩]
        · rw [if_neg hall] at hsends
          rwa [if_neg fun hstored => hall hstored.2]
      · cases h

/-- Every file that is sent is one of rows of a report. -/
theorem exists_sends (hW : W.Refines v) {e : ExportView}
    (h : e.reply v W.desk req = .file data contentType name) :
    ∃ department, Sends v W e.stored department contentType data := by
  cases huser : e.dean? with
  | some user =>
    cases hd : W.desk.departmentOf user with
    | some d => exact ⟨_, sends_of_department hW huser hd h⟩
    | none =>
      -- no rows are rows of any report
      obtain ⟨hstored, hrenders⟩ := renders_of_no_department huser hd h
      refine ⟨none, W.desk.db, ⟨none, 0, 0, none, none⟩, [], ?_, List.nil_sublist _, rfl, hrenders⟩
      rw [hstored]
      rfl
  | none =>
    cases e with
    | deanScorecard _ _ | deanReport _ _ | deanWeekly _ _ _ => cases huser
    | ifoScorecard faculty =>
      simp only [ExportView.reply, ReportDesk.scorecardCsv] at h
      split at h
      · cases h
      · obtain ⟨scope, -, h⟩ := withScope_eq_file h fun _ => nofun
        exact ⟨none, sends_scorecardFile h⟩
    | ifoWeekly pk fmt =>
      obtain ⟨scope, -, h⟩ := withScope_eq_file h fun _ => nofun
      split at h
      · cases h
      · rename_i r hr
        split at h
        · obtain ⟨o, -, -, hsends⟩ := sends_reportFile hW (Table.get?_eq_some_iff.mp hr).1 h
          exact ⟨_, hsends⟩
        · cases h

/-- The rows of the report of a department are about its members. -/
theorem department_of_mem_facultyAttendance {db : Db} {scope : ReportScope} {d : ℕ}
    (hscope : scope.department = some d) {row : FacultyRow}
    (hrow : row ∈ db.facultyAttendance scope) :
    (db.user row.facultyId).department = some d := by
  obtain ⟨s, hs, rfl⟩ := mem_facultyAttendance.mp hrow
  have hin := (Db.mem_scopedSessions.mp hs).2
  simp only [Db.inScope, hscope, Bool.and_eq_true, Option.isNone_some, Bool.false_or,
    beq_iff_eq] at hin
  exact hin.1.1.2

end

/-- A dean is sent files about members of the own department, as they are or were when the file was
made, and without a department none about anyone. The stored files of a department with the code
`ALL` are those of all departments. -/
theorem dean_exports_own_department (v : ReportVendor) (hall : v.Takes "ALL") {w : ReportDesk}
    (hw : w.Opened v) {steps : List ReportStep}
    (hadmits : Along (ReportRun.step v) (ReportRun.Admits v) ⟨w, fun _ _ _ => none⟩ steps)
    {req : ExportRequest} {e : ExportView} {user : ℕ} (huser : e.dean? = some user)
    {data contentType name : String}
    (h : e.reply v (ReportRun.run v ⟨w, fun _ _ _ => none⟩ steps).desk req =
      .file data contentType name) :
    let W := ReportRun.run v ⟨w, fun _ _ _ => none⟩ steps
    ∃ (db : Db) (rows : List FacultyRow), W.Source e.stored db ∧
      (∃ scope, rows.Sublist (db.facultyAttendance scope)) ∧
      Renders v rows contentType data ∧ ∀ row ∈ rows, ∃ d, W.desk.departmentOf user = some d ∧
        ((db.user row.facultyId).department = some d.id ∨ e.stored = true ∧ d.code = "ALL") := by
  intro W
  have hW : W.Refines v := ReportRun.Refines.run hw.refines hall hadmits
  cases hd : W.desk.departmentOf user with
  | none =>
    obtain ⟨hstored, hrenders⟩ := renders_of_no_department huser hd h
    refine ⟨W.desk.db, [], ?_, ⟨⟨none, 0, 0, none, none⟩, List.nil_sublist _⟩, hrenders, nofun⟩
    rw [hstored]
    rfl
  | some d =>
    obtain ⟨db, scope, rows, hsource, hrows, hscope, hrenders⟩ := sends_of_department hW huser hd h
    refine ⟨db, rows, hsource, ⟨scope, hrows⟩, hrenders, fun row hrow => ⟨d, rfl, ?_⟩⟩
    by_cases hcode : e.stored = true ∧ d.code = "ALL"
    · exact .inr hcode
    · rw [if_neg hcode] at hscope
      exact .inl (department_of_mem_facultyAttendance hscope (hrows.subset hrow))

namespace Campus

/-- A request on the next Monday, without parameters. -/
def plainRequest : ExportRequest := ⟨asciiTables, isoParsers, fun _ => none, monday + 7⟩

/-- The lines of a file. -/
def fileLines (lines : List String) : String := String.join (lines.map (· ++ "\r\n"))

/-- The first line of a report. -/
def headLine : String :=
  "Faculty,Scheduled,Held,Absent,Attendance %,Checker-verified,Avg min late,Chronic late"

/-- The report of the dean's department. -/
def deanFile : String := fileLines [headLine, "Ada Byron,1,0,0,0%,0,0.0,"]

/-- The report of both departments. -/
def bothFile : String :=
  fileLines [headLine, "Ada Byron,1,0,0,0%,0,0.0,", "Alan Turing,1,0,0,0%,0,0.0,"]

end Campus

open Campus in
/-- The dean is sent the stored report of the department, with the one teacher in it. -/
theorem dean_exports_own_department_stored :
    let W := ReportRun.run plainVendor ⟨reportDesk, fun _ _ _ => none⟩ [.job (monday + 7)]
    (ExportView.deanWeekly 3 1 "csv").reply plainVendor W.desk plainRequest =
      .file deanFile "text/csv" "CCS.csv" ∧
    ∃ (db : Db) (rows : List FacultyRow), W.Source true db ∧
      Renders plainVendor rows "text/csv" deanFile ∧
      ∀ row ∈ rows, (db.user row.facultyId).department = some 1 := by
  intro W
  have hreply : (ExportView.deanWeekly 3 1 "csv").reply plainVendor W.desk plainRequest =
      .file deanFile "text/csv" "CCS.csv" := by
    decide +kernel
  have hdepartment : W.desk.departmentOf 3 = some ⟨1, "CCS"⟩ := by decide +kernel
  obtain ⟨db, rows, hsource, -, hrenders, hown⟩ := dean_exports_own_department plainVendor
    (fun _ _ _ => rfl) opened_reportDesk along_reportDesk rfl hreply
  refine ⟨hreply, db, rows, hsource, hrenders, fun row hrow => ?_⟩
  obtain ⟨d, hd, hmember⟩ := hown row hrow
  obtain rfl := Option.some.inj (hdepartment.symm.trans hd)
  rcases hmember with hmember | ⟨-, hcode⟩
  · exact hmember
  · exact absurd hcode (by decide)

end FluxTrack
