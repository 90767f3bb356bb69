import FluxTrack.Theorems.ReportCells
import FluxTrack.Process.Runs
import FluxTrack.System

/-!
# The archive of weekly reports

What the service of the weekly reports is for is an archive: under a term, a week and a department,
or no department, the report that was last made for them. The rows and the files are such an archive,
but for one thing: the report of all departments has the label `ALL` in the names of its files, and
takes the place of those of a department with this code.

## Main definitions

* `Archive`, `Archive.publish` — the reports as they are meant
* `ReportStep` — the scheduler, the command, and everything else that happens
* `ReportDesk.shelf` — whose files the report of a department finds under its name

## Main results

* `Filed` — what the making of one report does
* `weekly_reports_refine` — the rows and the files are the archive
-/

namespace FluxTrack

open Calendar Relational Process

/-! ### The archive -/

/-- What a report was made of: the database, and the end of the week. -/
structure Issue where
  db : Db
  weekEnd : ℤ

/-- The rows of the report of a department. -/
def Issue.rows (i : Issue) (term : ℕ) (weekStart : ℤ) (department : Option ℕ) : List FacultyRow :=
  i.db.facultyAttendance ⟨some term, weekStart, i.weekEnd, department, none⟩

/-- The reports by term, week and department. -/
abbrev Archive := ℕ → ℤ → Option ℕ → Option Issue

namespace Archive

/-- A report is made. -/
def put (A : Archive) (term : ℕ) (weekStart : ℤ) (i : Issue) (department : Option ℕ) : Archive :=
  fun t s d => if t = term ∧ s = weekStart ∧ d = department then some i else A t s d

/-- The reports of a week are made: of these departments, and of all. -/
def publish (A : Archive) (term : ℕ) (weekStart : ℤ) (i : Issue) (departments : List Department) :
    Archive :=
  (departments.foldl (fun A d => A.put term weekStart i (some d.id)) A).put term weekStart i none

end Archive

/-! ### One report -/

/-- The row is that of a term, a week and a department. -/
def WeeklyReport.IsOf (r : WeeklyReport) (term : ℕ) (weekStart : ℤ) (department : Option ℕ) : Prop :=
  r.term = term ∧ r.weekStart = weekStart ∧ r.department = department

/-- Two rows of one report are rows of the same reports. -/
theorem WeeklyReport.IsOf.congr {r r' : WeeklyReport} {t t' : ℕ} {s s' : ℤ} {d d' : Option ℕ}
    (h : r.IsOf t s d) (h' : r'.IsOf t s d) : r.IsOf t' s' d' ↔ r'.IsOf t' s' d' := by
  rw [WeeklyReport.IsOf, WeeklyReport.IsOf, h.1, h.2.1, h.2.2, h'.1, h'.2.1, h'.2.2]

variable {v : ReportVendor} {w w' : ReportDesk} {term : ℕ} {weekStart weekEnd : ℤ}

theorem mem_reportsOf {department : Option ℕ} {r : WeeklyReport} :
    r ∈ w.reportsOf term weekStart department ↔
      r ∈ w.reports ∧ r.IsOf term weekStart department := by
  rw [ReportDesk.reportsOf, List.mem_filter, Table.mem_rows, WeeklyReport.IsOf]
  simp [and_assoc]

/-- The storage takes names with this label. -/
def ReportVendor.Takes (v : ReportVendor) (label : String) : Prop :=
  ∀ term weekStart extension, v.rejects (reportName term weekStart label extension) = false

/-- The files under the names of reports. -/
def ReportDesk.fileAt (w : ReportDesk) (term : ℕ) (weekStart : ℤ) (label extension : String) :
    Option String :=
  w.storage.lookup (reportName term weekStart label extension)

/-- The report of a department has been made: its row is the only one of it, and its files hold what
the database says. Nothing else has changed among the rows and files. -/
structure Filed (v : ReportVendor) (w w' : ReportDesk) (term : ℕ) (weekStart weekEnd : ℤ)
    (department : Option Department) : Prop where
  db : w'.db = w.db
  departments : w'.departments = w.departments
  one : ∃ r ∈ w'.reports, r.IsOf term weekStart (department.map Department.id) ∧
    r.csvPath = reportName term weekStart (reportLabel department) ".csv" ∧
    r.pdfPath = reportName term weekStart (reportLabel department) ".pdf" ∧
    ∀ r' ∈ w'.reports, r'.IsOf term weekStart (department.map Department.id) → r' = r
  other : ∀ r, ¬r.IsOf term weekStart (department.map Department.id) →
    (r ∈ w'.reports ↔ r ∈ w.reports)
  csv : w'.fileAt term weekStart (reportLabel department) ".csv" =
    some (buildCsv ((Issue.mk w.db weekEnd).rows term weekStart (department.map Department.id)))
  pdf : w'.fileAt term weekStart (reportLabel department) ".pdf" =
    some (buildPdf v.render
      ((Issue.mk w.db weekEnd).rows term weekStart (department.map Department.id)) weekStart weekEnd
      (department.map Department.code))
  files : ∀ name, name ≠ reportName term weekStart (reportLabel department) ".csv" →
    name ≠ reportName term weekStart (reportLabel department) ".pdf" →
    w'.storage.lookup name = w.storage.lookup name

/-- A file is saved under its name, which is free by then. -/
theorem run_saveOverwrite {name : String} (h : v.rejects name = false) (data : String)
    (w : ReportDesk) :
    (saveOverwrite v name data).run w =
      (.ok name, { w with storage := (w.storage.erase name).insert name data }) := by
  have hfree : ((w.storage.erase name).lookup name).isSome = false := by
    rw [AList.lookup_erase]
    rfl
  rw [saveOverwrite, if_neg (by rw [h]; exact Bool.false_ne_true), Prog.run_modify_bind,
    Prog.run_modifyGet]
  dsimp only
  rw [hfree]
  rfl

/-- The row of a report is found, or made. -/
theorem run_getOrCreateReport {department : Option ℕ}
    (hone : ∀ r ∈ w.reports, ∀ r' ∈ w.reports, r.IsOf term weekStart department →
      r'.IsOf term weekStart department → r = r') :
    ∃ r w', (getOrCreateReport term weekStart department).run w = (.ok r, w') ∧
      w' = { w with reports := w'.reports } ∧ r ∈ w'.reports ∧ r.IsOf term weekStart department ∧
      (∀ r' ∈ w'.reports, r'.IsOf term weekStart department → r' = r) ∧
      ∀ r', ¬r'.IsOf term weekStart department → (r' ∈ w'.reports ↔ r' ∈ w.reports) := by
  unfold getOrCreateReport
  rw [Prog.run_select_bind]
  cases hfound : w.reportsOf term weekStart department with
  | nil =>
    have hnone : ∀ r ∈ w.reports, ¬r.IsOf term weekStart department := fun r hr hof => by
      have hmem := mem_reportsOf.mpr ⟨hr, hof⟩
      rw [hfound] at hmem
      cases hmem
    refine ⟨⟨w.reports.nextKey, term, weekStart, department, "", ""⟩, _, rfl, rfl,
      Table.mem_insert.mpr (.inr rfl), ⟨rfl, rfl, rfl⟩, fun r' hr' hof => ?_, fun r' hof => ?_⟩
    · rcases Table.mem_insert.mp hr' with hr' | rfl
      · exact absurd hof (hnone r' hr')
      · rfl
    · refine Table.mem_insert.trans (or_iff_left ?_)
      rintro rfl
      exact hof ⟨rfl, rfl, rfl⟩
  | cons r rest =>
    -- the row that is found is the only one, and the search does not fail
    have hr : r ∈ w.reportsOf term weekStart department := hfound ▸ List.mem_cons_self
    obtain ⟨hmem, hof⟩ := mem_reportsOf.mp hr
    cases rest with
    | nil =>
      exact ⟨r, w, rfl, rfl, hmem, hof, fun r' hr' hof' => hone r' hr' r hmem hof' hof,
        fun r' _ => Iff.rfl⟩
    | cons r' rest =>
      have hnodup : (w.reportsOf term weekStart department).Nodup :=
        w.reports.rows_nodup.filter _
      have hr' : r' ∈ w.reportsOf term weekStart department :=
        hfound ▸ List.mem_cons_of_mem _ List.mem_cons_self
      obtain ⟨hmem', hof'⟩ := mem_reportsOf.mp hr'
      obtain rfl := hone r hmem r' hmem' hof hof'
      rw [hfound] at hnodup
      exact absurd List.mem_cons_self (List.nodup_cons.mp hnodup).1

/-- Reading the storage after two files have been put there. -/
theorem lookup_put_two {st : Dict String String} {a b x y name : String} :
    ((((st.erase a).insert a x).erase b).insert b y).lookup name =
      if name = b then some y else if name = a then some x else st.lookup name := by
  by_cases hb : name = b
  · rw [if_pos hb, hb, AList.lookup_insert]
  · rw [if_neg hb, AList.lookup_insert_ne hb, AList.lookup_erase_ne hb]
    by_cases ha : name = a
    · rw [if_pos ha, ha, AList.lookup_insert]
    · rw [if_neg ha, AList.lookup_insert_ne ha, AList.lookup_erase_ne ha]

theorem reportName_csv_ne_pdf (term : ℕ) (weekStart : ℤ) (label : String) :
    reportName term weekStart label ".csv" ≠ reportName term weekStart label ".pdf" := by
  intro h
  have hlist := congrArg String.toList h
  simp only [toList_reportName] at hlist
  -- all but the ends of the names is the same
  have hend := List.append_cancel_left (List.cons.inj (List.append_cancel_left (List.cons.inj
    (List.append_cancel_left (List.append_cancel_left hlist))).2)).2
  exact absurd hend (by decide)

/-- The paths of a report are saved to its row, which stays the only one of it. -/
theorem mem_saved {reports : Table WeeklyReport} {department : Option ℕ} {r : WeeklyReport}
    (hmem : r ∈ reports) (hof : r.IsOf term weekStart department)
    (hunique : ∀ r' ∈ reports, r'.IsOf term weekStart department → r' = r) (csvPath pdfPath : String) :
    let saved := reports.update (fun x => x.id == r.id) fun x =>
      { x with csvPath := csvPath, pdfPath := pdfPath }
    (∀ r' ∈ saved, r'.IsOf term weekStart department →
      r' = { r with csvPath := csvPath, pdfPath := pdfPath }) ∧
    ∀ r', ¬r'.IsOf term weekStart department → (r' ∈ saved ↔ r' ∈ reports) := by
  intro saved
  -- the row is the only one with its key
  have hrow : ∀ a ∈ reports, (a.id == r.id) = true → a = r := fun a ha hid =>
    Table.eq_of_key_eq ha hmem (eq_of_beq hid)
  refine ⟨fun r' hr' hof' => ?_, fun r' hof' => ?_⟩
  · obtain ⟨a, ha, rfl⟩ := (Table.mem_update_iff (by intro _; rfl)).mp hr'
    by_cases hid : (a.id == r.id) = true
    · rw [if_pos hid, hrow a ha hid]
    · rw [if_neg hid] at hof'
      rw [hunique a ha hof'] at hid
      exact absurd (beq_self_eq_true r.id) hid
  · refine (Table.mem_update_iff (by intro _; rfl)).trans ⟨?_, fun hr' => ⟨r', hr', if_neg ?_⟩⟩
    · rintro ⟨a, ha, rfl⟩
      by_cases hid : (a.id == r.id) = true
      · rw [if_pos hid, hrow a ha hid] at hof'
        exact absurd hof hof'
      · rwa [if_neg hid]
    · intro hid
      rw [hrow r' hr' hid] at hof'
      exact hof' hof

/-- The making of a report of a term that is not archived, where the storage takes its names. -/
theorem run_generateWeeklyReport {t : AcademicTerm} (hterm : t.status ≠ .archived)
    {department : Option Department} (weekEnd : ℤ) (htakes : v.Takes (reportLabel department))
    (hone : ∀ r ∈ w.reports, ∀ r' ∈ w.reports,
      r.IsOf t.id weekStart (department.map Department.id) →
        r'.IsOf t.id weekStart (department.map Department.id) → r = r') :
    ∃ w', (generateWeeklyReport v t weekStart weekEnd department).run w = (.ok ⟨⟩, w') ∧
      Filed v w w' t.id weekStart weekEnd department := by
  obtain ⟨r, w₁, hrun, hw₁, hmem, hof, hunique, hother⟩ := run_getOrCreateReport hone
  have hwritable : (requireWritable t).run w = (.ok ⟨⟩, w) := by
    rw [requireWritable, if_neg hterm]
    rfl
  unfold generateWeeklyReport
  rw [Prog.run_bind_of_ok hwritable, Prog.run_select_bind, Prog.run_bind_of_ok hrun]
  dsimp only
  rw [Prog.run_bind_of_ok (run_saveOverwrite (htakes _ _ _) _ _),
    Prog.run_bind_of_ok (run_saveOverwrite (htakes _ _ _) _ _)]
  refine ⟨_, rfl, ?_⟩
  have hdb : w₁.db = w.db := by rw [hw₁]
  have hstorage : w₁.storage = w.storage := by rw [hw₁]
  have hne := reportName_csv_ne_pdf t.id weekStart (reportLabel department)
  obtain ⟨hsaved, hkept⟩ := mem_saved hmem hof hunique
    (reportName t.id weekStart (reportLabel department) ".csv")
    (reportName t.id weekStart (reportLabel department) ".pdf")
  refine ⟨hdb, by rw [hw₁], ⟨{ r with csvPath := _, pdfPath := _ },
    Table.mem_update_of_pos (by intro _; rfl) hmem (beq_self_eq_true r.id), hof, rfl, rfl, hsaved⟩,
    fun r' hof' => (hkept r' hof').trans (hother r' hof'), ?_, ?_, fun name hcsv hpdf => ?_⟩
  · refine lookup_put_two.trans ?_
    rw [if_neg hne, if_pos rfl]
    rfl
  · refine lookup_put_two.trans ?_
    rw [if_pos rfl]
    rfl
  · refine lookup_put_two.trans ?_
    rw [if_neg hpdf, if_neg hcsv, hstorage]

/-- An announcement is mail. -/
theorem run_notifyReportReady (department : Option Department) (weekStart : ℤ) (link : String)
    (w : ReportDesk) :
    ∃ w', (notifyReportReady department weekStart link).run w = (.ok ⟨⟩, w') ∧ w'.db = w.db ∧
      w'.departments = w.departments ∧ w'.reports = w.reports ∧ w'.storage = w.storage ∧
      w'.weekStart = w.weekStart := by
  cases department with
  | none => exact ⟨_, rfl, rfl, rfl, rfl, rfl, rfl⟩
  | some d => exact ⟨_, rfl, rfl, rfl, rfl, rfl, rfl⟩

/-- One round makes one report. -/
theorem run_reportDepartment {t : AcademicTerm} (hterm : t.status ≠ .archived)
    {department : Option Department} (weekEnd : ℤ) (htakes : v.Takes (reportLabel department))
    (hone : ∀ r ∈ w.reports, ∀ r' ∈ w.reports,
      r.IsOf t.id weekStart (department.map Department.id) →
        r'.IsOf t.id weekStart (department.map Department.id) → r = r') (link : String) :
    ∃ w', (reportDepartment v t weekStart weekEnd link department).run w = (.ok ⟨⟩, w') ∧
      Filed v w w' t.id weekStart weekEnd department := by
  obtain ⟨w₁, hrun, hfiled⟩ := run_generateWeeklyReport hterm weekEnd htakes hone
  obtain ⟨w₂, hrun₂, hdb, hdepartments, hreports, hstorage, -⟩ :=
    run_notifyReportReady department weekStart link w₁
  refine ⟨w₂, by rw [reportDepartment, Prog.run_bind_of_ok hrun, hrun₂], ?_⟩
  have hfile : ∀ label extension, w₂.fileAt t.id weekStart label extension =
      w₁.fileAt t.id weekStart label extension := by
    intro label extension
    rw [ReportDesk.fileAt, hstorage]
    rfl
  constructor
  · exact hdb.trans hfiled.db
  · exact hdepartments.trans hfiled.departments
  · rw [hreports]
    exact hfiled.one
  · rw [hreports]
    exact hfiled.other
  · exact (hfile _ _).trans hfiled.csv
  · exact (hfile _ _).trans hfiled.pdf
  · rw [hstorage]
    exact hfiled.files

/-! ### The files of a report -/

/-- Whose report the files with the label `ALL` hold, for a term and a week. -/
abbrev Holder := ℕ → ℤ → Option Department

/-- A report has been made: if it has the label `ALL`, the files with that label are its own. -/
def Holder.take (H : Holder) (term : ℕ) (weekStart : ℤ) (o : Option Department) : Holder :=
  fun t s => if t = term ∧ s = weekStart ∧ reportLabel o = "ALL" then o else H t s

/-- Whose report the files under the names of a department hold. -/
def shelf (held o : Option Department) : Option Department :=
  if reportLabel o = "ALL" then held else o

/-- A row whose files hold a report in the archive: the one of its department, or the one that has
taken its place. -/
structure Shelved (v : ReportVendor) (w : ReportDesk) (A : Archive) (held : Option Department)
    (r : WeeklyReport) (o : Option Department) : Prop where
  department : r.department = o.map Department.id
  known : ∀ d, o = some d → d ∈ w.departments
  csvPath : r.csvPath = reportName r.term r.weekStart (reportLabel o) ".csv"
  pdfPath : r.pdfPath = reportName r.term r.weekStart (reportLabel o) ".pdf"
  files : ∃ i, A r.term r.weekStart ((shelf held o).map Department.id) = some i ∧
    w.fileAt r.term r.weekStart (reportLabel o) ".csv" =
      some (buildCsv (i.rows r.term r.weekStart ((shelf held o).map Department.id))) ∧
    w.fileAt r.term r.weekStart (reportLabel o) ".pdf" =
      some (buildPdf v.render (i.rows r.term r.weekStart ((shelf held o).map Department.id))
        r.weekStart i.weekEnd ((shelf held o).map Department.code))

/-- The rows and the files are those of an archive. -/
structure Refines (v : ReportVendor) (w : ReportDesk) (A : Archive) (H : Holder) : Prop where
  codes : w.departments.Unique Department.code
  takes : ∀ d ∈ w.departments, v.Takes d.code
  one : ∀ r ∈ w.reports, ∀ r' ∈ w.reports, ∀ t s d, r.IsOf t s d → r'.IsOf t s d → r = r'
  dates : ∀ r ∈ w.reports, Py.IsDate r.weekStart
  rows : ∀ t s d, (∃ r ∈ w.reports, r.IsOf t s d) ↔ (A t s d).isSome
  held : ∀ t s, reportLabel (H t s) = "ALL" ∧ ∀ d, H t s = some d → d ∈ w.departments
  shelved : ∀ r ∈ w.reports, ∃ o, Shelved v w A (H r.term r.weekStart) r o

theorem put_self (A : Archive) (i : Issue) (d : Option ℕ) :
    A.put term weekStart i d term weekStart d = some i := if_pos ⟨rfl, rfl, rfl⟩

theorem put_of_ne {A : Archive} {i : Issue} {d d' : Option ℕ} {t : ℕ} {s : ℤ}
    (h : ¬(t = term ∧ s = weekStart ∧ d' = d)) : A.put term weekStart i d t s d' = A t s d' :=
  if_neg h

/-- Of two departments that are known, each is known by its number and by its label. -/
theorem eq_of_map_id {o o' : Option Department} (h : ∀ d, o = some d → d ∈ w.departments)
    (h' : ∀ d, o' = some d → d ∈ w.departments)
    (heq : o.map Department.id = o'.map Department.id) : o = o' := by
  cases o with
  | none =>
    cases o' with
    | none => rfl
    | some d' => cases heq
  | some d =>
    cases o' with
    | none => cases heq
    | some d' => rw [Table.eq_of_key_eq (h d rfl) (h' d' rfl) (Option.some.inj heq)]

theorem eq_of_reportLabel (hcodes : w.departments.Unique Department.code) {o o' : Option Department}
    (h : ∀ d, o = some d → d ∈ w.departments) (h' : ∀ d, o' = some d → d ∈ w.departments)
    (heq : reportLabel o = reportLabel o') (hall : reportLabel o ≠ "ALL") : o = o' := by
  cases o with
  | none => exact absurd rfl hall
  | some d =>
    cases o' with
    | none => exact absurd heq hall
    | some d' => rw [hcodes d (h d rfl) d' (h' d' rfl) heq]

/-- The files of a report that is not made anew stay, unless they have the label of the one made. -/
theorem Filed.fileAt {o : Option Department} (hfiled : Filed v w w' term weekStart weekEnd o)
    (hdate : Py.IsDate weekStart) {t : ℕ} {s : ℤ} {label : String} (hs : Py.IsDate s)
    (hne : ¬(t = term ∧ s = weekStart ∧ label = reportLabel o)) :
    w'.fileAt t s label ".csv" = w.fileAt t s label ".csv" ∧
      w'.fileAt t s label ".pdf" = w.fileAt t s label ".pdf" := by
  have hname : ∀ {e e' : String}, e.length = e'.length →
      reportName t s label e ≠ reportName term weekStart (reportLabel o) e' := by
    intro e e' hlength h
    obtain ⟨ht, hs', hlabel, -⟩ := reportName_inj hs hdate hlength h
    exact hne ⟨ht, hs', hlabel⟩
  exact ⟨hfiled.files _ (hname rfl) (hname rfl), hfiled.files _ (hname rfl) (hname rfl)⟩

/-- A report that has been made holds its own files. -/
theorem shelf_take_self (H : Holder) (term : ℕ) (weekStart : ℤ) (o : Option Department) :
    shelf (H.take term weekStart o term weekStart) o = o := by
  unfold shelf
  split
  · rename_i hall
    exact if_pos ⟨rfl, rfl, hall⟩
  · rfl

/-- What holds the files of another label, or of another week, is as it was. -/
theorem shelf_take_of_ne {H : Holder} {o o' : Option Department} {t : ℕ} {s : ℤ}
    (hne : ¬(t = term ∧ s = weekStart ∧ reportLabel o' = reportLabel o)) :
    shelf (H.take term weekStart o t s) o' = shelf (H t s) o' := by
  unfold shelf
  split
  · rename_i hall
    exact if_neg fun htake => hne ⟨htake.1, htake.2.1, hall.trans htake.2.2.symm⟩
  · rfl

section

variable {A : Archive} {H : Holder} {o : Option Department}

/-- The report that holds the files of a label has this label, and its department is known. -/
theorem Refines.reportLabel_shelf (h : Refines v w A H) (t : ℕ) (s : ℤ) (o : Option Department) :
    reportLabel (shelf (H t s) o) = reportLabel o := by
  unfold shelf
  split
  · rename_i hall
    exact (h.held t s).1.trans hall.symm
  · rfl

theorem Refines.mem_of_shelf (h : Refines v w A H) {t : ℕ} {s : ℤ}
    (ho : ∀ d, o = some d → d ∈ w.departments) :
    ∀ d, shelf (H t s) o = some d → d ∈ w.departments := by
  unfold shelf
  split
  · exact (h.held t s).2
  · exact ho

/-- The row of the report that has been made, with its own files. -/
theorem Filed.shelved (hfiled : Filed v w w' term weekStart weekEnd o)
    (ho : ∀ d, o = some d → d ∈ w.departments) {r : WeeklyReport} (hr : r ∈ w'.reports)
    (hof : r.IsOf term weekStart (o.map Department.id)) :
    Shelved v w' (A.put term weekStart ⟨w.db, weekEnd⟩ (o.map Department.id))
      (H.take term weekStart o r.term r.weekStart) r o := by
  obtain ⟨new, -, -, hcsv, hpdf, hunique⟩ := hfiled.one
  obtain rfl := hunique r hr hof
  obtain ⟨hterm, hweek, hdepartment⟩ := hof
  refine ⟨hdepartment, fun d hd => hfiled.departments ▸ ho d hd, ?_, ?_, ?_⟩
  · rw [hterm, hweek]
    exact hcsv
  · rw [hterm, hweek]
    exact hpdf
  · rw [hterm, hweek, shelf_take_self]
    exact ⟨_, put_self A _ _, hfiled.csv, hfiled.pdf⟩

/-- A row of another report, whose files stay or are those of the one that has been made. -/
theorem Refines.shelved_of_filed (h : Refines v w A H)
    (ho : ∀ d, o = some d → d ∈ w.departments) (hdate : Py.IsDate weekStart)
    (hfiled : Filed v w w' term weekStart weekEnd o) {r : WeeklyReport} (hr : r ∈ w.reports)
    (hkey : ¬r.IsOf term weekStart (o.map Department.id)) :
    ∃ o', Shelved v w' (A.put term weekStart ⟨w.db, weekEnd⟩ (o.map Department.id))
      (H.take term weekStart o r.term r.weekStart) r o' := by
  obtain ⟨o', hshelved⟩ := h.shelved r hr
  have hknown : ∀ d, o' = some d → d ∈ w'.departments := fun d hd =>
    hfiled.departments.symm ▸ hshelved.known d hd
  refine ⟨o', hshelved.department, hknown, hshelved.csvPath, hshelved.pdfPath, ?_⟩
  by_cases hsame : r.term = term ∧ r.weekStart = weekStart ∧ reportLabel o' = reportLabel o
  · -- its files have been overwritten, which can only be those with the label of all departments
    obtain ⟨hterm, hweek, hlabel⟩ := hsame
    have hall : reportLabel o' = "ALL" := by
      by_contra hall
      have heq := eq_of_reportLabel h.codes hshelved.known ho hlabel hall
      exact hkey ⟨hterm, hweek, heq ▸ hshelved.department⟩
    have hshelf : shelf (H.take term weekStart o term weekStart) o' = o := by
      rw [shelf, if_pos hall]
      exact if_pos ⟨rfl, rfl, hlabel ▸ hall⟩
    rw [hterm, hweek, hshelf, hlabel]
    exact ⟨_, put_self A _ _, hfiled.csv, hfiled.pdf⟩
  · obtain ⟨i, hissue, hfile, hfile'⟩ := hshelved.files
    obtain ⟨hkeep, hkeep'⟩ := hfiled.fileAt hdate (h.dates r hr) hsame
    rw [shelf_take_of_ne hsame]
    refine ⟨i, ?_, hkeep.trans hfile, hkeep'.trans hfile'⟩
    rw [put_of_ne, hissue]
    -- the report in these files is not the one that has been made, since its label is another
    rintro ⟨hterm, hweek, heq⟩
    refine hsame ⟨hterm, hweek, ?_⟩
    rw [← h.reportLabel_shelf r.term r.weekStart o',
      eq_of_map_id (h.mem_of_shelf hshelved.known) ho heq]

/-- A report that has been made has the only row of its term, week and department. -/
theorem Filed.eq_of_isOf (h : Refines v w A H) (hfiled : Filed v w w' term weekStart weekEnd o)
    {r r' : WeeklyReport} (hr : r ∈ w'.reports) (hr' : r' ∈ w'.reports) {t : ℕ} {s : ℤ}
    {d : Option ℕ} (hof : r.IsOf t s d) (hof' : r'.IsOf t s d) : r = r' := by
  obtain ⟨_, _, _, _, _, hunique⟩ := hfiled.one
  by_cases hkey : r.IsOf term weekStart (o.map Department.id)
  · have hkey' := (hof.congr hof').mp hkey
    exact (hunique r hr hkey).trans (hunique r' hr' hkey').symm
  · have hkey' := mt (hof.congr hof').mpr hkey
    exact h.one r ((hfiled.other r hkey).mp hr) r' ((hfiled.other r' hkey').mp hr') t s d hof hof'

/-- Making a report is making it in the archive. -/
theorem Refines.filed (h : Refines v w A H) (ho : ∀ d, o = some d → d ∈ w.departments)
    (hdate : Py.IsDate weekStart) (hfiled : Filed v w w' term weekStart weekEnd o) :
    Refines v w' (A.put term weekStart ⟨w.db, weekEnd⟩ (o.map Department.id))
      (H.take term weekStart o) := by
  constructor
  · rw [hfiled.departments]
    exact h.codes
  · rw [hfiled.departments]
    exact h.takes
  · exact fun r hr r' hr' t s d hof hof' => hfiled.eq_of_isOf h hr hr' hof hof'
  · intro r hr
    by_cases hkey : r.IsOf term weekStart (o.map Department.id)
    · rw [hkey.2.1]
      exact hdate
    · exact h.dates r ((hfiled.other r hkey).mp hr)
  · intro t s d
    by_cases hkey : t = term ∧ s = weekStart ∧ d = o.map Department.id
    · obtain ⟨new, hnew, hof, -⟩ := hfiled.one
      obtain ⟨rfl, rfl, rfl⟩ := hkey
      rw [put_self]
      exact iff_of_true ⟨new, hnew, hof⟩ rfl
    · rw [put_of_ne hkey, ← h.rows t s d]
      refine exists_congr fun r => and_congr_left fun hr => hfiled.other r fun hkey' => hkey ?_
      exact ⟨hr.1.symm.trans hkey'.1, hr.2.1.symm.trans hkey'.2.1, hr.2.2.symm.trans hkey'.2.2⟩
  · intro t s
    rw [hfiled.departments]
    unfold Holder.take
    split
    · rename_i htake
      exact ⟨htake.2.2, ho⟩
    · exact h.held t s
  · intro r hr
    by_cases hkey : r.IsOf term weekStart (o.map Department.id)
    · exact ⟨o, hfiled.shelved ho hr hkey⟩
    · exact h.shelved_of_filed ho hdate hfiled ((hfiled.other r hkey).mp hr) hkey

end

/-! ### A week -/

/-- The departments that have reports are departments. -/
theorem mem_of_mem_reportedDepartments {d : Department}
    (h : d ∈ w.reportedDepartments term weekStart weekEnd) : d ∈ w.departments :=
  (List.mem_filter.mp h).1

/-- The round of a department, or of all, is a step of the archive. -/
theorem Refines.reportDepartment {A : Archive} {H : Holder} (h : Refines v w A H)
    {t : AcademicTerm} (hterm : t.status ≠ .archived) (hall : v.Takes "ALL")
    {o : Option Department} (ho : ∀ d, o = some d → d ∈ w.departments)
    (hdate : Py.IsDate weekStart) (weekEnd : ℤ) (link : String) :
    ∃ w', (reportDepartment v t weekStart weekEnd link o).run w = (.ok ⟨⟩, w') ∧ w'.db = w.db ∧
      w'.departments = w.departments ∧
      Refines v w' (A.put t.id weekStart ⟨w.db, weekEnd⟩ (o.map Department.id))
        (H.take t.id weekStart o) := by
  have htakes : v.Takes (reportLabel o) := by
    cases o with
    | none => exact hall
    | some d => exact h.takes d (ho d rfl)
  obtain ⟨w', hrun, hfiled⟩ := run_reportDepartment hterm weekEnd htakes
    (fun r hr r' hr' hof hof' => h.one r hr r' hr' _ _ _ hof hof') link
  exact ⟨w', hrun, hfiled.db, hfiled.departments, h.filed ho hdate hfiled⟩

/-- The rounds of the departments. -/
theorem Refines.reportDepartments {A : Archive} {H : Holder} (h : Refines v w A H)
    {t : AcademicTerm} (hterm : t.status ≠ .archived) (hall : v.Takes "ALL")
    {departments : List Department} (hmem : ∀ d ∈ departments, d ∈ w.departments)
    (hdate : Py.IsDate weekStart) (weekEnd : ℤ) (link : String) :
    ∃ w', (Prog.forEach departments fun d =>
        FluxTrack.reportDepartment v t weekStart weekEnd link (some d)).run w = (.ok ⟨⟩, w') ∧
      w'.db = w.db ∧ w'.departments = w.departments ∧
      Refines v w'
        (departments.foldl (fun A d => A.put t.id weekStart ⟨w.db, weekEnd⟩ (some d.id)) A)
        (departments.foldl (fun H d => H.take t.id weekStart (some d)) H) := by
  induction departments generalizing w A H with
  | nil => exact ⟨w, rfl, rfl, rfl, h⟩
  | cons d departments ih =>
    have hd : ∀ d', some d = some d' → d' ∈ w.departments := by
      rintro d' ⟨⟩
      exact hmem d List.mem_cons_self
    obtain ⟨w₁, hrun, hdb, hdepartments, h₁⟩ :=
      h.reportDepartment hterm hall hd hdate weekEnd link
    obtain ⟨w₂, hrun₂, hdb₂, hdepartments₂, h₂⟩ := ih h₁ fun d' hd' => by
      rw [hdepartments]
      exact hmem d' (List.mem_cons_of_mem _ hd')
    rw [hdb] at h₂
    refine ⟨w₂, ?_, hdb₂.trans hdb, hdepartments₂.trans hdepartments, h₂⟩
    exact (Prog.run_forEach_cons (f := fun d =>
      FluxTrack.reportDepartment v t weekStart weekEnd link (some d)) hrun).trans hrun₂

/-- No other report holds the files with the label of all departments. -/
def Holder.idle : Holder := fun _ _ => none

/-- The report of all departments is made last. -/
theorem take_foldl_idle (departments : List Department) :
    (departments.foldl (fun H d => H.take term weekStart (some d)) Holder.idle).take term weekStart
      none = Holder.idle := by
  -- the rounds before it only change what is held in this week
  have hother : ∀ (H : Holder) t s, ¬(t = term ∧ s = weekStart) → H t s = none →
      departments.foldl (fun H d => H.take term weekStart (some d)) H t s = none := by
    induction departments with
    | nil => exact fun _ _ _ _ hnone => hnone
    | cons d departments ih =>
      intro H t s hne hnone
      exact ih _ t s hne ((if_neg fun htake => hne ⟨htake.1, htake.2.1⟩).trans hnone)
  funext t s
  unfold Holder.take
  split
  · rfl
  · rename_i hne
    exact hother _ t s (fun hweek => hne ⟨hweek.1, hweek.2, rfl⟩) rfl

/-- The reports of a week are made in the archive. -/
theorem Refines.generateWeekReports {A : Archive} (h : Refines v w A Holder.idle)
    {t : AcademicTerm} (hterm : t.status ≠ .archived) (hall : v.Takes "ALL")
    (hdate : Py.IsDate weekStart) (weekEnd : ℤ) :
    ∃ w', (generateWeekReports v t weekStart weekEnd).run w =
        (.ok ((w.reportedDepartments t.id weekStart weekEnd).length + 1), w') ∧
      w'.db = w.db ∧ w'.departments = w.departments ∧
      Refines v w' (A.publish t.id weekStart ⟨w.db, weekEnd⟩
        (w.reportedDepartments t.id weekStart weekEnd)) Holder.idle := by
  have hwritable : (requireWritable t).run w = (.ok ⟨⟩, w) := by
    rw [requireWritable, if_neg hterm]
    rfl
  obtain ⟨w₁, hrun, hdb, hdepartments, h₁⟩ := h.reportDepartments hterm hall
    (fun d hd => mem_of_mem_reportedDepartments hd) hdate weekEnd
    ("/reports/" ++ reportFolder t.id weekStart)
  obtain ⟨w₂, hrun₂, hdb₂, hdepartments₂, h₂⟩ := h₁.reportDepartment hterm hall
    (o := none) nofun hdate weekEnd ("/reports/" ++ reportFolder t.id weekStart)
  rw [take_foldl_idle, hdb] at h₂
  refine ⟨w₂, ?_, hdb₂.trans hdb, hdepartments₂.trans hdepartments, h₂⟩
  unfold FluxTrack.generateWeekReports
  rw [Prog.run_bind_of_ok hwritable, Prog.run_select_bind, Prog.run_bind_of_ok hrun,
    Prog.run_bind_of_ok hrun₂]
  rfl

/-! ### Runs -/

/-- What happens: the job of the scheduler, the command, or anything else. -/
inductive ReportStep
  | job (today : ℤ)
  | command (raw : String) (lookup : TermLookup) (week : Option (Option ℤ)) (today : ℤ)
  | other (w' : ReportDesk)

namespace ReportStep

/-- The term and the week that are asked for. -/
def asked : ReportStep → ReportDesk → Option (AcademicTerm × ℤ × ℤ)
  | .job today, w => w.db.activeTerm.map fun t => (t, reportWeekBounds w.weekStart (today - 7))
  | .command raw lookup week today, w =>
    ((resolveWeeklyTerm raw lookup).run w).1.toOption.bind fun t =>
      (week.getD (some (today - 7))).map fun reference => (t, reportWeekBounds w.weekStart reference)
  | .other _, _ => none

/-- The desk after a step. -/
def act (v : ReportVendor) : ReportStep → ReportDesk → ReportDesk
  | .job today, w => ((jobWeeklyReport v today).run w).2
  | .command raw lookup week today, w => ((weeklyReportCommand v raw lookup week today).run w).2
  | .other w', _ => w'

/-- The archive after a step. -/
def publish (e : ReportStep) (w : ReportDesk) (A : Archive) : Archive :=
  match e.asked w with
  | none => A
  | some (t, weekStart, weekEnd) =>
    A.publish t.id weekStart ⟨w.db, weekEnd⟩ (w.reportedDepartments t.id weekStart weekEnd)

end ReportStep

/-- The rows and files of the reports are left alone, and departments are only added. -/
structure LeavesReports (v : ReportVendor) (w w' : ReportDesk) : Prop where
  reports : w'.reports = w.reports
  files : ∀ term weekStart label extension,
    w'.fileAt term weekStart label extension = w.fileAt term weekStart label extension
  departments : ∀ d ∈ w.departments, d ∈ w'.departments
  codes : w'.departments.Unique Department.code
  takes : ∀ d ∈ w'.departments, v.Takes d.code

/-- The desk and the archive. -/
structure ReportRun where
  desk : ReportDesk
  archive : Archive

namespace ReportRun

/-- A step of both. -/
def step (v : ReportVendor) (W : ReportRun) (e : ReportStep) : ReportRun :=
  ⟨e.act v W.desk, e.publish W.desk W.archive⟩

/-- The steps there are: a week that is asked for is one of dates, and what else happens leaves the
reports alone. -/
def Admits (v : ReportVendor) (W : ReportRun) (e : ReportStep) : Prop :=
  (∀ t weekStart weekEnd, e.asked W.desk = some (t, weekStart, weekEnd) → Py.IsDate weekStart) ∧
    ∀ w', e = .other w' → LeavesReports v W.desk w'

/-- A run of steps. -/
def run (v : ReportVendor) (W : ReportRun) (steps : List ReportStep) : ReportRun :=
  steps.foldl (step v) W

/-- The rows and the files are those of the archive. -/
def Refines (v : ReportVendor) (W : ReportRun) : Prop :=
  FluxTrack.Refines v W.desk W.archive Holder.idle

variable {W : ReportRun}

/-- The job runs where the week before has a first day. -/
theorem admits_job {today : ℤ}
    (h : Py.IsDate (reportWeekBounds W.desk.weekStart (today - 7)).1) : W.Admits v (.job today) := by
  refine ⟨fun t weekStart weekEnd hasked => ?_, nofun⟩
  simp only [ReportStep.asked, Option.map_eq_some_iff, Prod.mk.injEq] at hasked
  obtain ⟨_, -, -, heq⟩ := hasked
  rw [heq] at h
  exact h

/-- What does not touch the reports keeps the refinement. -/
theorem refines_of_left {A : Archive} (h : FluxTrack.Refines v w A Holder.idle)
    (hsame : LeavesReports v w w') : FluxTrack.Refines v w' A Holder.idle := by
  constructor
  · exact hsame.codes
  · exact hsame.takes
  · rw [hsame.reports]
    exact h.one
  · rw [hsame.reports]
    exact h.dates
  · rw [hsame.reports]
    exact h.rows
  · exact fun _ _ => ⟨rfl, nofun⟩
  · intro r hr
    rw [hsame.reports] at hr
    obtain ⟨o, hshelved⟩ := h.shelved r hr
    obtain ⟨i, hissue, hcsv, hpdf⟩ := hshelved.files
    exact ⟨o, hshelved.department, fun d hd => hsame.departments d (hshelved.known d hd),
      hshelved.csvPath, hshelved.pdfPath, i, hissue, (hsame.files _ _ _ _).trans hcsv,
      (hsame.files _ _ _ _).trans hpdf⟩

/-- The command finds a term that is active, or fails and changes nothing. -/
theorem run_resolveWeeklyTerm_cases (raw : String) (lookup : TermLookup) (w : ReportDesk) :
    (∃ t, (resolveWeeklyTerm raw lookup).run w = (.ok t, w) ∧ t.status = .active) ∨
      ∃ e, (resolveWeeklyTerm raw lookup).run w = (.error e, w) := by
  unfold resolveWeeklyTerm
  rw [Prog.run_select_bind]
  split
  · exact .inr ⟨_, rfl⟩
  · rename_i t _
    split
    · rename_i hactive
      exact .inl ⟨t, rfl, hactive⟩
    · exact .inr ⟨_, rfl⟩

/-- The scheduler and the command make the reports of a week of an active term, or do nothing. -/
theorem act_cases (v : ReportVendor) (e : ReportStep) (w : ReportDesk) :
    (∃ w', e = .other w') ∨ (e.asked w = none ∧ e.act v w = w) ∨
      ∃ t weekStart weekEnd, e.asked w = some (t, weekStart, weekEnd) ∧ t.status = .active ∧
        e.act v w = ((generateWeekReports v t weekStart weekEnd).run w).2 := by
  cases e with
  | other w' => exact .inl ⟨w', rfl⟩
  | job today =>
    refine .inr ?_
    simp only [ReportStep.asked, ReportStep.act, jobWeeklyReport, Prog.run_select_bind]
    cases hterm : w.db.activeTerm with
    | none => exact .inl ⟨rfl, rfl⟩
    | some t => exact .inr ⟨t, _, _, rfl, (Db.mem_of_activeTerm hterm).2, rfl⟩
  | command raw lookup week today =>
    refine .inr ?_
    simp only [ReportStep.asked, ReportStep.act, weeklyReportCommand]
    rcases run_resolveWeeklyTerm_cases raw lookup w with ⟨t, hrun, hactive⟩ | ⟨e, hrun⟩
    · rw [Prog.run_bind_of_ok hrun, hrun]
      cases week.getD (some (today - 7)) with
      | none => exact .inl ⟨rfl, rfl⟩
      | some reference => exact .inr ⟨t, _, _, rfl, hactive, rfl⟩
    · rw [Prog.run_bind_of_error hrun, hrun]
      exact .inl ⟨rfl, rfl⟩

/-- Every step keeps the refinement. -/
theorem Refines.step (h : W.Refines v) (hall : v.Takes "ALL") {e : ReportStep}
    (hadmits : W.Admits v e) : (W.step v e).Refines v := by
  unfold ReportRun.Refines ReportRun.step ReportStep.publish
  rcases act_cases v e W.desk with ⟨w', rfl⟩ | ⟨hasked, hact⟩ | ⟨t, s, n, hasked, hactive, hact⟩
  · exact refines_of_left h (hadmits.2 w' rfl)
  · rw [hasked, hact]
    exact h
  · have hterm : t.status ≠ .archived := by
      rw [hactive]
      nofun
    obtain ⟨w', hrun, -, -, hrefines⟩ :=
      FluxTrack.Refines.generateWeekReports h hterm hall (hadmits.1 t s n hasked) n
    rw [hasked, hact, hrun]
    exact hrefines

/-- Every run keeps it. -/
theorem Refines.run (h : W.Refines v) (hall : v.Takes "ALL") {steps : List ReportStep}
    (hadmits : Along (ReportRun.step v) (ReportRun.Admits v) W steps) : (W.run v steps).Refines v :=
  hadmits.invariant (fun _ _ hrefines hstep => hrefines.step hall hstep) h (List.prefix_refl steps)

end ReportRun

/-- A desk without reports, with departments whose codes differ, and an empty archive. -/
structure ReportDesk.Opened (v : ReportVendor) (w : ReportDesk) : Prop where
  reports : w.reports.rows = []
  codes : w.departments.Unique Department.code
  takes : ∀ d ∈ w.departments, v.Takes d.code

theorem ReportDesk.Opened.refines (h : w.Opened v) :
    (ReportRun.mk w fun _ _ _ => none).Refines v := by
  have hnone : ∀ r, ¬r ∈ w.reports := fun r hr => by
    rw [← Table.mem_rows, h.reports] at hr
    cases hr
  exact ⟨h.codes, h.takes, fun r hr => absurd hr (hnone r), fun r hr => absurd hr (hnone r),
    fun t s d => iff_of_false (fun ⟨r, hr, _⟩ => hnone r hr) nofun, fun _ _ => ⟨rfl, nofun⟩,
    fun r hr => absurd hr (hnone r)⟩

/-- After any run of the scheduler, the command and whatever leaves the reports alone, the rows and
the files are the archive: a term, a week and a department have a row, and only one, if their report
has been made, and its files render what the database said when it was last made. The files of a
department with the code `ALL` are those of the report of all departments. -/
theorem weekly_reports_refine (v : ReportVendor) (hall : v.Takes "ALL") {w : ReportDesk}
    (hw : w.Opened v) {steps : List ReportStep}
    (hadmits : Along (ReportRun.step v) (ReportRun.Admits v) ⟨w, fun _ _ _ => none⟩ steps) :
    let W := ReportRun.run v ⟨w, fun _ _ _ => none⟩ steps
    (∀ t s d, (∃ r ∈ W.desk.reports, r.IsOf t s d) ↔ (W.archive t s d).isSome) ∧
      (∀ r ∈ W.desk.reports, ∀ r' ∈ W.desk.reports, r'.IsOf r.term r.weekStart r.department →
        r = r') ∧
      ∀ r ∈ W.desk.reports, ∃ o : Option Department, r.department = o.map Department.id ∧
        (∀ d, o = some d → d ∈ W.desk.departments) ∧
        let o' := if reportLabel o = "ALL" then none else o
        ∃ i, W.archive r.term r.weekStart (o'.map Department.id) = some i ∧
          W.desk.storage.lookup r.csvPath =
            some (buildCsv (i.rows r.term r.weekStart (o'.map Department.id))) ∧
          W.desk.storage.lookup r.pdfPath =
            some (buildPdf v.render (i.rows r.term r.weekStart (o'.map Department.id)) r.weekStart
              i.weekEnd (o'.map Department.code)) := by
  intro W
  have h : FluxTrack.Refines v W.desk W.archive Holder.idle :=
    ReportRun.Refines.run hw.refines hall hadmits
  refine ⟨h.rows, fun r hr r' hr' hof => h.one r hr r' hr' _ _ _ ⟨rfl, rfl, rfl⟩ hof,
    fun r hr => ?_⟩
  obtain ⟨o, hshelved⟩ := h.shelved r hr
  obtain ⟨i, hissue, hcsv, hpdf⟩ := hshelved.files
  refine ⟨o, hshelved.department, hshelved.known, i, hissue, ?_, ?_⟩
  · rw [hshelved.csvPath]
    exact hcsv
  · rw [hshelved.pdfPath]
    exact hpdf

namespace Campus

/-- A storage that takes every name. -/
def plainVendor : ReportVendor := ⟨fun _ => false, fun _ name => name, fun title _ => title⟩

/-- The teachers are in two departments, and one of these has the code `ALL`. -/
def reportDesk : ReportDesk where
  notifications := Table.empty
  mutes := Table.empty
  db := { campus with
    users := ⟨[⟨1, "Ada", "Byron", .faculty, some 1, true, false, "ada", ""⟩,
      ⟨2, "Alan", "Turing", .faculty, some 2, true, false, "alan", ""⟩, dean], by decide⟩ }
  departments := ⟨[⟨1, "CCS"⟩, ⟨2, "ALL"⟩], by decide⟩
  reports := Table.empty
  storage := ∅
  weekStart := "monday"
  now := 0

theorem opened_reportDesk : reportDesk.Opened plainVendor where
  reports := rfl
  codes := by
    intro d hd d' hd' h
    rw [← Table.mem_rows] at hd hd'
    simp only [reportDesk, List.mem_cons, List.not_mem_nil, or_false] at hd hd'
    rcases hd with rfl | rfl <;> rcases hd' with rfl | rfl
    · rfl
    · exact absurd h (by decide)
    · exact absurd h (by decide)
    · rfl
  takes := fun _ _ _ _ _ => rfl

theorem along_reportDesk : Along (ReportRun.step plainVendor) (ReportRun.Admits plainVendor)
    ⟨reportDesk, fun _ _ _ => none⟩ [.job (monday + 7)] :=
  ⟨ReportRun.admits_job (by decide), trivial⟩

end Campus

open Campus in
/-- The week of the classes is reported: that of each teacher's department, and that of both. -/
theorem weekly_reports_refine_campus :
    let W := ReportRun.run plainVendor ⟨reportDesk, fun _ _ _ => none⟩ [.job (monday + 7)]
    ∀ d ∈ [none, some 1, some 2], ∃ r ∈ W.desk.reports, r.IsOf 1 monday d := by
  intro W
  have hissued : ∀ d ∈ [none, some 1, some 2], (W.archive 1 monday d).isSome := by
    decide +kernel
  intro d hd
  have hrows :=
    (weekly_reports_refine plainVendor (fun _ _ _ => rfl) opened_reportDesk along_reportDesk).1
  exact (hrows 1 monday d).mpr (hissued d hd)

end FluxTrack
