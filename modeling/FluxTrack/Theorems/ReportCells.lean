import FluxTrack.Data.Dates
import FluxTrack.Ops.Reports

/-!
# The cells of a report

The figures of a report are not negative, and so no cell of its file begins like a formula. The
names of the files tell the term, the week and the department.

## Main results

* `opensFormula_of_mem_reportCells` — no cell of a report is a formula
* `reportName_inj` — the name of a file tells what it is about
-/

namespace FluxTrack

open Relational

/-! ### Cells -/

/-- A cell with a letter or a digit at its start is no formula. -/
theorem opensFormula_of_isAlphanum {cell : String} {c : Char} {cs : List Char}
    (h : cell.toList = c :: cs) (hc : c.isAlphanum = true) : opensFormula cell = false := by
  rw [opensFormula, h, List.head?_cons, Option.any_some]
  by_contra hopens
  rw [Bool.not_eq_false] at hopens
  simp only [List.contains_cons, List.contains_nil, Bool.or_false, Bool.or_eq_true, beq_iff_eq]
    at hopens
  rcases hopens with rfl | rfl | rfl | rfl | rfl | rfl <;> cases hc

/-- A cell that is guarded is no formula. -/
theorem opensFormula_csvSafe (text : String) : opensFormula (csvSafe text) = false := by
  unfold csvSafe
  split
  · rw [opensFormula, String.toList_append]
    rfl
  · rename_i hplain
    simpa [opensFormula] using hplain

/-- The digits of a number begin with one. -/
theorem exists_toString_eq_cons (n : ℕ) :
    ∃ c cs, (toString n).toList = c :: cs ∧ c.isAlphanum = true := by
  rw [Nat.toString_eq_repr, Nat.toList_repr]
  cases hdigits : Nat.toDigits 10 n with
  | nil => exact absurd hdigits Nat.toDigits_ne_nil
  | cons c cs =>
    have hdigit : c.isDigit = true :=
      Nat.isDigit_of_mem_toDigits (by decide) (by decide) (hdigits ▸ List.mem_cons_self)
    exact ⟨c, cs, rfl, by simp [Char.isAlphanum, hdigit]⟩

theorem opensFormula_toString (n : ℕ) : opensFormula (toString n) = false := by
  obtain ⟨c, cs, hcell, hc⟩ := exists_toString_eq_cons n
  exact opensFormula_of_isAlphanum hcell hc

/-- What goes on behind a number is no formula either. -/
theorem opensFormula_append {cell rest : String} {c : Char} {cs : List Char}
    (h : cell.toList = c :: cs) (hc : c.isAlphanum = true) :
    opensFormula (cell ++ rest) = false := by
  have hcell : (cell ++ rest).toList = c :: (cs ++ rest.toList) := by
    rw [String.toList_append, h, List.cons_append]
  exact opensFormula_of_isAlphanum hcell hc

/-! ### Figures -/

theorem pct_nonneg (held scheduled : ℕ) : 0 ≤ pct held scheduled := by
  unfold pct
  split
  · exact le_rfl
  · have hpos : (0 : ℚ) ≤ ((100 * held : ℕ) : ℚ) / scheduled := by positivity
    rw [Rounding.halfUp_of_nonneg hpos]
    exact Int.floor_nonneg.mpr (by linarith)

theorem avgMinutes_nonneg {total : ℤ} (h : 0 ≤ total) (n : ℕ) : 0 ≤ avgMinutes total n := by
  unfold avgMinutes
  split
  · exact le_rfl
  · have hpos : (0 : ℚ) ≤ (total : ℚ) / n / 60 * (10 : ℕ) := by
      have htotal : (0 : ℚ) ≤ total := by exact_mod_cast h
      positivity
    rw [Rounding.quantize, Rounding.halfUp_of_nonneg hpos]
    have hfloor : 0 ≤ ⌊(total : ℚ) / n / 60 * (10 : ℕ) + 1 / 2⌋ :=
      Int.floor_nonneg.mpr (by linarith)
    have hcast : (0 : ℚ) ≤ (⌊(total : ℚ) / n / 60 * (10 : ℕ) + 1 / 2⌋ : ℚ) := by
      exact_mod_cast hfloor
    positivity

theorem totalSeconds_latenessMap_nonneg (qs : List Session) (faculty : ℕ) :
    0 ≤ (latenessMap qs faculty).totalSeconds := by
  have hfold : ∀ (l : List Session) (acc : Lateness), 0 ≤ acc.totalSeconds →
      0 ≤ (l.foldl Lateness.add acc).totalSeconds := by
    intro l
    induction l with
    | nil => exact fun _ h => h
    | cons s l ih =>
      intro acc h
      apply ih
      have hlate : 0 ≤ sessionMinutesLate s.scheduledStart s.actualStart := by
        unfold sessionMinutesLate
        split
        · exact le_rfl
        · exact le_max_left 0 _
      exact add_nonneg h hlate
  exact hfold _ _ le_rfl

/-- A figure that is not negative has no sign. -/
theorem opensFormula_decimalTenths {q : ℚ} (h : 0 ≤ q) :
    opensFormula (decimalTenths q) = false := by
  have hpos : (0 : ℚ) ≤ q * 10 := by positivity
  have hfloor : 0 ≤ (q * 10).floor := Int.floor_nonneg.mpr hpos
  rw [decimalTenths, if_neg (not_lt.mpr hfloor), String.append_assoc]
  obtain ⟨c, cs, hcell, hc⟩ := exists_toString_eq_cons ((q * 10).floor.natAbs / 10)
  exact opensFormula_append hcell hc

/-- No cell of a report is a formula. -/
theorem opensFormula_of_mem_reportCells {db : Db} {scope : ReportScope} {r : FacultyRow}
    (hr : r ∈ db.facultyAttendance scope) {cell : String} (hcell : cell ∈ reportCells r) :
    opensFormula cell = false := by
  obtain ⟨s, -, rfl⟩ := mem_facultyAttendance.mp hr
  generalize hrow : db.facultyRow (db.scopedSessions scope none) s.faculty = row at hcell
  have hpct : 0 ≤ row.attendancePct := by
    rw [← hrow]
    exact pct_nonneg _ _
  have hlate : 0 ≤ row.minutesLateAvg := by
    rw [← hrow]
    exact avgMinutes_nonneg (totalSeconds_latenessMap_nonneg _ _) _
  -- a name is guarded, and the figures begin with a digit since they are not negative
  simp only [reportCells, figureCells, List.mem_cons, List.not_mem_nil, or_false] at hcell
  rcases hcell with rfl | rfl | rfl | rfl | rfl | rfl | rfl | rfl
  · exact opensFormula_csvSafe _
  · exact opensFormula_toString _
  · exact opensFormula_toString _
  · exact opensFormula_toString _
  · obtain ⟨n, hn⟩ := Int.eq_ofNat_of_zero_le hpct
    obtain ⟨c, cs, hcs, hc⟩ := exists_toString_eq_cons n
    rw [hn]
    exact opensFormula_append hcs hc
  · exact opensFormula_toString _
  · exact opensFormula_decimalTenths hlate
  · split
    · have hyes : "Yes".toList = 'Y' :: ['e', 's'] := rfl
      exact opensFormula_of_isAlphanum hyes (by decide)
    · rfl

/-! ### Names -/

theorem slash_notMem_toString (n : ℕ) : '/' ∉ (toString n).toList := by
  rw [Nat.toString_eq_repr, Nat.toList_repr]
  intro h
  exact absurd (Nat.isDigit_of_mem_toDigits (by decide) (by decide) h) (by decide)

theorem slash_notMem_isoformat (d : ℤ) : '/' ∉ (Py.isoformat d).toList := by
  intro h
  have hdigit : ∀ {width n : ℕ}, '/' ∉ Py.zeroPadded width n := by
    intro width n hmem
    exact absurd (Py.isDigit_of_mem_zeroPadded hmem) (by decide)
  rw [Py.isoformat, String.toList_ofList, List.mem_append, List.mem_append, List.mem_cons,
    List.mem_cons] at h
  rcases h with (h | h | h) | h | h
  · exact hdigit h
  · cases h
  · exact hdigit h
  · cases h
  · exact hdigit h

/-- The characters of the name of a file. -/
theorem toList_reportName (term : ℕ) (weekStart : ℤ) (label extension : String) :
    (reportName term weekStart label extension).toList =
      "reports/term-".toList ++ ((toString term).toList ++ '/' ::
        ((Py.isoformat weekStart).toList ++ '/' :: (label.toList ++ extension.toList))) := by
  simp [reportName, reportFolder]

/-- The name of a file tells the term, the week, the label and the format. -/
theorem reportName_inj {term term' : ℕ} {weekStart weekStart' : ℤ} {label label' : String}
    {extension extension' : String} (hweek : Py.IsDate weekStart) (hweek' : Py.IsDate weekStart')
    (hlength : extension.length = extension'.length)
    (h : reportName term weekStart label extension =
      reportName term' weekStart' label' extension') :
    term = term' ∧ weekStart = weekStart' ∧ label = label' ∧ extension = extension' := by
  have hlist := congrArg String.toList h
  rw [toList_reportName, toList_reportName] at hlist
  -- neither a number nor a date has a slash in it, and so the parts can be told apart
  obtain ⟨hterm, hlist⟩ := Py.append_cons_inj (slash_notMem_toString _) (slash_notMem_toString _)
    (List.append_cancel_left hlist)
  obtain ⟨hdate, hlist⟩ := Py.append_cons_inj (slash_notMem_isoformat _) (slash_notMem_isoformat _)
    hlist
  obtain ⟨hlabel, hextension⟩ := List.append_inj' hlist
    (by rwa [String.length_toList, String.length_toList])
  refine ⟨?_, Py.isoformat_inj hweek hweek' (String.toList_inj.mp hdate),
    String.toList_inj.mp hlabel, String.toList_inj.mp hextension⟩
  rw [Nat.toString_eq_repr, Nat.toString_eq_repr, Nat.toList_repr, Nat.toList_repr] at hterm
  simpa only [Nat.ofDigitChars_ten_toDigits] using congrArg (Nat.ofDigitChars 10 · 0) hterm

end FluxTrack
