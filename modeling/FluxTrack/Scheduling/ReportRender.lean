import FluxTrack.Data.Csv
import FluxTrack.Data.QueryText
import FluxTrack.Web.Hr

/-!
# The rendering of reports

`scheduling/report_render.py`: the report of a range of dates as comma-separated values and as pages.
The pages are rendered by a library, from a title and a table of cells.

## Main definitions

* `reportHeader`, `reportCells` — the columns, and the cells of a row
* `buildCsv`, `buildPdf` — the files
* `readCsv` — what a spreadsheet reads from it
* `opensFormula` — the cells a spreadsheet would evaluate
-/

namespace FluxTrack

/-- `HEADER` -/
def reportHeader : List String :=
  ["Faculty", "Scheduled", "Held", "Absent", "Attendance %", "Checker-verified", "Avg min late",
    "Chronic late"]

/-- `str` of a decimal with one place. -/
def decimalTenths (q : ℚ) : String :=
  let tenths := (q * 10).floor
  let digits := toString (tenths.natAbs / 10) ++ "." ++ toString (tenths.natAbs % 10)
  if tenths < 0 then "-" ++ digits else digits

/-- The cells of a row behind its first: numbers as `str` writes them. -/
def figureCells (r : FacultyRow) : List String :=
  [toString r.scheduled, toString r.held, toString r.absent, toString r.attendancePct ++ "%",
    toString r.verified, decimalTenths r.minutesLateAvg, if r.chronicLate then "Yes" else ""]

/-- The cells of a row. -/
def reportCells (r : FacultyRow) : List String := csvSafe r.name :: figureCells r

/-- A table as text. -/
def csvText (rows : List (List String)) : String :=
  String.ofList (Csv.excel.write (rows.map fun row => row.map String.toList))

/-- `build_csv` -/
def buildCsv (rows : List FacultyRow) : String := csvText (reportHeader :: rows.map reportCells)

/-- `pdf_title`, of the code of a department -/
def pdfTitle (periodStart periodEnd : ℤ) (code : Option String) : String :=
  "Attendance Report - " ++ code.getD "All" ++ " - " ++ Py.isoformat periodStart ++ " to " ++
    Py.isoformat periodEnd

/-- What is under the title of the pages. -/
inductive PdfBody
  | paragraph (text : String)
  | table (cells : List (List String))

/-- `build_pdf`; the library renders a title and what is under it. -/
def buildPdf (render : String → PdfBody → String) (rows : List FacultyRow)
    (periodStart periodEnd : ℤ) (code : Option String) : String :=
  render (pdfTitle periodStart periodEnd code)
    (if rows.isEmpty then .paragraph "No data for this range."
    -- a page evaluates nothing, and the names are as they are
    else .table (reportHeader :: rows.map fun r => r.name :: figureCells r))

/-- The cells of a text of comma-separated values. -/
def readCsv (text : String) : List (List String) :=
  (Csv.excel.read text.toList).map fun row => row.map String.ofList

/-- A spreadsheet takes the cell for a formula. -/
def opensFormula (cell : String) : Bool :=
  cell.toList.head?.any fun c => ['=', '+', '-', '@', '\t', '\r'].contains c

/-- What is written is read back. -/
theorem readCsv_csvText (rows : List (List String)) : readCsv (csvText rows) = rows := by
  rw [readCsv, csvText, String.toList_ofList, Csv.Dialect.read_write, List.map_map]
  refine List.map_id'' (fun row => ?_) rows
  exact (List.map_map).trans (List.map_id'' (fun cell => String.ofList_toList) row)

end FluxTrack
