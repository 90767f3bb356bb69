import Mathlib.Data.List.Intervals
import Mathlib.Data.List.Flatten

/-!
# Comma-separated values

Writing and reading tables of cells as text: cells apart by a delimiter, records ended by a return
and a newline, and quotes around the cells that need them.

## Main definitions

* `Csv.Dialect` — a delimiter and a quote that can be told apart
* `Csv.Dialect.write` — a writer that quotes as little as it can
* `Csv.Dialect.read` — a reader, one character after the other

## Main results

* `Csv.Dialect.read_write` — what is written is read back
-/

namespace Csv

/-- The characters a table is written with. They are told apart from each other and from the ends of
lines. -/
structure Dialect where
  delimiter : Char
  quote : Char
  delimiter_ne_quote : delimiter ≠ quote
  delimiter_ne_return : delimiter ≠ '\r'
  delimiter_ne_newline : delimiter ≠ '\n'
  quote_ne_return : quote ≠ '\r'
  quote_ne_newline : quote ≠ '\n'

/-- Where a reader is: at the start of a record or of a cell, in a cell without quotes or with, after
a quote in a cell with quotes, or after a return. -/
inductive Mode
  | record | start | plain | quoted | quote | eat
  deriving DecidableEq

/-- What has been read: the records, the cells of the record and the characters of the cell. -/
structure Reading where
  rows : List (List (List Char))
  row : List (List Char)
  cell : List Char
  mode : Mode
  deriving DecidableEq

namespace Reading

/-- A character of the cell. -/
def push (s : Reading) (c : Char) (m : Mode) : Reading := { s with cell := s.cell ++ [c], mode := m }

/-- The cell is over. -/
def save (s : Reading) (m : Mode) : Reading :=
  { s with row := s.row ++ [s.cell], cell := [], mode := m }

/-- The record is over, and its cells are these. -/
def finish (s : Reading) (row : List (List Char)) (m : Mode) : Reading :=
  ⟨s.rows ++ [row], [], [], m⟩

end Reading

namespace Dialect

variable (d : Dialect)

/-- A cell with one of these is quoted. -/
def isSpecial (c : Char) : Bool := c == d.delimiter || c == d.quote || c == '\r' || c == '\n'

/-- A quote is written twice. -/
def double (cell : List Char) : List Char :=
  cell.flatMap fun c => if c = d.quote then [c, c] else [c]

/-- A cell with quotes around. -/
def enclose (cell : List Char) : List Char := d.quote :: d.double cell ++ [d.quote]

/-- A cell, quoted where it must be. The empty cell of a record with no other must be. -/
def field (alone : Bool) (cell : List Char) : List Char :=
  if cell.any d.isSpecial || (alone && cell.isEmpty) then d.enclose cell else cell

/-- `writerow` -/
def writeRow (row : List (List Char)) : List Char :=
  [d.delimiter].intercalate (row.map (d.field (row.length == 1))) ++ ['\r', '\n']

/-- `writerows` -/
def write (rows : List (List (List Char))) : List Char := rows.flatMap d.writeRow

/-! ### Reading -/

/-- The end of a line, in a mode where it ends a record of these cells. -/
def atEnd (s : Reading) (row : List (List Char)) (c : Char) : Reading :=
  s.finish row (if c = '\r' then .eat else .record)

/-- A character at the start of a cell. -/
def stepStart (s : Reading) (c : Char) : Reading :=
  if c = '\r' ∨ c = '\n' then atEnd s (s.row ++ [s.cell]) c
  else if c = d.quote then { s with mode := .quoted }
  else if c = d.delimiter then s.save .start
  else s.push c .plain

/-- A character at the start of a record. -/
def stepRecord (s : Reading) (c : Char) : Reading :=
  -- an empty line is a record without cells
  if c = '\r' ∨ c = '\n' then atEnd s [] c else d.stepStart s c

/-- The next character. -/
def step (s : Reading) (c : Char) : Reading :=
  match s.mode with
  | .record => d.stepRecord s c
  | .start => d.stepStart s c
  | .plain =>
    if c = '\r' ∨ c = '\n' then atEnd s (s.row ++ [s.cell]) c
    else if c = d.delimiter then s.save .start
    else s.push c .plain
  | .quoted => if c = d.quote then { s with mode := .quote } else s.push c .quoted
  | .quote =>
    if c = d.quote then s.push c .quoted
    else if c = d.delimiter then s.save .start
    else if c = '\r' ∨ c = '\n' then atEnd s (s.row ++ [s.cell]) c
    else s.push c .plain
  | .eat => if c = '\n' then { s with mode := .record } else d.stepRecord s c

/-- The records, with the one that no line has ended. -/
def atEof (s : Reading) : List (List (List Char)) :=
  match s.mode with
  | .record | .eat => s.rows
  | _ => s.rows ++ [s.row ++ [s.cell]]

/-- The records of a text. -/
def read (text : List Char) : List (List (List Char)) :=
  atEof (text.foldl d.step ⟨[], [], [], .record⟩)

end Dialect

/-! ### What is written is read back -/

namespace Dialect

variable {d : Dialect} {s : Reading} {cell : List Char} {m : Mode}

/-- Characters that need no quotes go into a cell without quotes. -/
theorem foldl_step_plain (hcell : ∀ c ∈ cell, d.isSpecial c = false) (hm : s.mode = .plain) :
    cell.foldl d.step s = { s with cell := s.cell ++ cell } := by
  induction cell generalizing s with
  | nil => simp
  | cons c cell ih =>
    have hc := hcell c List.mem_cons_self
    simp only [isSpecial, Bool.or_eq_false_iff, beq_eq_false_iff_ne] at hc
    obtain ⟨⟨⟨hdelimiter, -⟩, hreturn⟩, hnewline⟩ := hc
    have hstep : d.step s c = s.push c .plain := by
      simp [step, hm, hdelimiter, hreturn, hnewline]
    rw [List.foldl_cons, hstep, ih (fun c' hc' => hcell c' (List.mem_cons_of_mem _ hc')) rfl]
    simp [Reading.push, hm]

/-- A doubled text goes into a quoted cell as it was. -/
theorem foldl_step_double (hm : s.mode = .quoted) :
    (d.double cell).foldl d.step s = { s with cell := s.cell ++ cell } := by
  induction cell generalizing s with
  | nil => simp [double]
  | cons c cell ih =>
    have hdouble : d.double (c :: cell) = (if c = d.quote then [c, c] else [c]) ++ d.double cell := rfl
    have hstep : (if c = d.quote then [c, c] else [c]).foldl d.step s = s.push c .quoted := by
      split
      · rename_i hquote
        simp [step, hm, hquote, Reading.push]
      · rename_i hquote
        simp [step, hm, hquote]
    rw [hdouble, List.foldl_append, hstep, ih rfl]
    simp [Reading.push, hm]

/-- The reader is before a cell, the first of its record or not. -/
def Before (s : Reading) : Prop := s.cell = [] ∧ (s.mode = .start ∨ s.mode = .record ∧ s.row = [])

/-- The reader is at the end of a cell. -/
def Behind (s : Reading) : Prop := s.mode = .start ∨ s.mode = .plain ∨ s.mode = .quote

theorem step_of_before (hs : Before s) {c : Char} (hreturn : c ≠ '\r') (hnewline : c ≠ '\n') :
    d.step s c = d.stepStart s c := by
  rcases hs.2 with hm | ⟨hm, -⟩
  · simp [step, hm]
  · simp [step, hm, stepRecord, hreturn, hnewline]

/-- Some text in quotes is read up to the second quote. -/
theorem foldl_step_enclose (hs : Before s) :
    (d.enclose cell).foldl d.step s = { s with cell := cell, mode := .quote } := by
  have hopen : d.step s d.quote = { s with mode := .quoted } := by
    rw [step_of_before hs d.quote_ne_return d.quote_ne_newline]
    simp [stepStart, d.quote_ne_return, d.quote_ne_newline]
  rw [enclose, List.cons_append, List.foldl_cons, hopen, List.foldl_append, foldl_step_double rfl]
  simp [step, hs.1]

/-- A cell is read as it was, and the reader is at the end of it or, of an empty cell, where it was. -/
theorem foldl_step_field (cell : List Char) (hs : Before s) (alone : Bool) :
    ∃ m, (d.field alone cell).foldl d.step s = { s with cell := cell, mode := m } ∧
      (m = .plain ∨ m = .quote ∨ cell = [] ∧ alone = false ∧ m = s.mode) := by
  unfold field
  split
  · exact ⟨.quote, foldl_step_enclose hs, .inr (.inl rfl)⟩
  · rename_i hplain
    simp only [Bool.or_eq_true, not_or, Bool.not_eq_true, List.any_eq_false] at hplain
    obtain ⟨hcell, halone⟩ := hplain
    cases cell with
    | nil =>
      refine ⟨s.mode, ?_, .inr (.inr ⟨rfl, by simpa using halone, rfl⟩)⟩
      rw [List.foldl_nil, ← hs.1]
    | cons c cell =>
      have hc : d.isSpecial c = false := by simpa using hcell c List.mem_cons_self
      simp only [isSpecial, Bool.or_eq_false_iff, beq_eq_false_iff_ne] at hc
      obtain ⟨⟨⟨hdelimiter, hquote⟩, hreturn⟩, hnewline⟩ := hc
      have hfirst : d.step s c = s.push c .plain := by
        rw [step_of_before hs hreturn hnewline]
        simp [stepStart, hdelimiter, hquote, hreturn, hnewline]
      refine ⟨.plain, ?_, .inl rfl⟩
      rw [List.foldl_cons, hfirst, foldl_step_plain (fun c' hc' => by
        simpa using hcell c' (List.mem_cons_of_mem _ hc')) rfl]
      simp [Reading.push, hs.1]

/-- A delimiter ends a cell. -/
theorem step_delimiter (hs : Behind s ∨ Before s) : d.step s d.delimiter = s.save .start := by
  have hstart : d.stepStart s d.delimiter = s.save .start := by
    simp [stepStart, d.delimiter_ne_return, d.delimiter_ne_newline, d.delimiter_ne_quote]
  rcases hs with (hm | hm | hm) | hs
  · simpa [step, hm] using hstart
  · simp [step, hm, d.delimiter_ne_return, d.delimiter_ne_newline]
  · simp [step, hm, d.delimiter_ne_quote]
  · rwa [step_of_before hs d.delimiter_ne_return d.delimiter_ne_newline]

/-- The end of a line ends the cell and the record. -/
theorem foldl_step_newline (hs : Behind s) :
    ['\r', '\n'].foldl d.step s = ⟨s.rows ++ [s.row ++ [s.cell]], [], [], .record⟩ := by
  rcases hs with hm | hm | hm <;>
    simp [step, hm, stepStart, atEnd, Reading.finish, d.quote_ne_return.symm,
      d.delimiter_ne_return.symm]

/-- The cells of a record behind its first are read to its end. -/
theorem foldl_step_cells (cells : List (List Char)) (hs : Behind s ∨ Before s ∧ cells ≠ []) :
    ((cells.flatMap fun cell => d.delimiter :: d.field false cell) ++ ['\r', '\n']).foldl d.step s =
      ⟨s.rows ++ [s.row ++ s.cell :: cells], [], [], .record⟩ := by
  induction cells generalizing s with
  | nil => exact foldl_step_newline (hs.resolve_right fun h => h.2 rfl)
  | cons cell cells ih =>
    have hbefore : Before (s.save .start) := ⟨rfl, .inl rfl⟩
    obtain ⟨m, hfield, hm⟩ := foldl_step_field (d := d) cell hbefore false
    have hbehind : Behind { s.save .start with cell := cell, mode := m } := by
      rcases hm with hm | hm | ⟨-, -, hm⟩
      · exact .inr (.inl hm)
      · exact .inr (.inr hm)
      · exact .inl hm
    rw [List.flatMap_cons, List.append_assoc, List.foldl_append, List.foldl_cons,
      step_delimiter (hs.imp_right And.left), hfield, ih (.inl hbehind)]
    simp [Reading.save]

theorem intercalate_cons (sep head : List Char) (tail : List (List Char)) :
    sep.intercalate (head :: tail) = head ++ tail.flatMap fun cell => sep ++ cell := by
  induction tail generalizing head with
  | nil => simp [List.intercalate]
  | cons next tail ih =>
    have hnext := ih next
    simp only [List.intercalate, List.intersperse_cons_cons, List.flatten_cons] at hnext ⊢
    rw [hnext]
    simp

/-- A record is read to its end. -/
theorem foldl_step_writeRow (rows : List (List (List Char))) (row : List (List Char)) :
    (d.writeRow row).foldl d.step ⟨rows, [], [], .record⟩ = ⟨rows ++ [row], [], [], .record⟩ := by
  cases row with
  | nil => simp [writeRow, List.intercalate, step, stepRecord, atEnd, Reading.finish]
  | cons head tail =>
    have hbefore : Before ⟨rows, [], [], .record⟩ := ⟨rfl, .inr ⟨rfl, rfl⟩⟩
    obtain ⟨m, hfield, hm⟩ :=
      foldl_step_field (d := d) head hbefore ((head :: tail).length == 1)
    have hcells : Behind ⟨rows, [], head, m⟩ ∨ Before ⟨rows, [], head, m⟩ ∧ tail ≠ [] := by
      rcases hm with hm | hm | ⟨hempty, halone, hm⟩
      · exact .inl (.inr (.inl hm))
      · exact .inl (.inr (.inr hm))
      -- the empty cell of a record with no other is quoted
      · exact .inr ⟨⟨hempty, .inr ⟨hm, rfl⟩⟩, fun htail => by simp [htail] at halone⟩
    have htail : (tail.flatMap fun cell =>
        [d.delimiter] ++ d.field ((head :: tail).length == 1) cell) =
        tail.flatMap fun cell => d.delimiter :: d.field false cell := by
      cases tail with
      | nil => rfl
      | cons next tail => rfl
    rw [writeRow, List.map_cons, intercalate_cons, List.flatMap_map, htail, List.append_assoc,
      List.foldl_append, hfield, foldl_step_cells tail hcells]
    rfl

/-- What is written is read back. -/
theorem read_write (d : Dialect) (rows : List (List (List Char))) : d.read (d.write rows) = rows := by
  have hrows : ∀ done : List (List (List Char)),
      (d.write rows).foldl d.step ⟨done, [], [], .record⟩ = ⟨done ++ rows, [], [], .record⟩ := by
    induction rows with
    | nil => simp [write]
    | cons row rows ih =>
      intro done
      have hwrite : d.write (row :: rows) = d.writeRow row ++ d.write rows := rfl
      rw [hwrite, List.foldl_append, foldl_step_writeRow, ih, List.append_assoc,
        List.singleton_append]
  rw [read, hrows]
  rfl

end Dialect

/-- The dialect of spreadsheets. -/
def excel : Dialect :=
  ⟨',', '"', by decide, by decide, by decide, by decide, by decide⟩

example : excel.write [["a,b".toList, []], [[]]] = "\"a,b\",\r\n\"\"\r\n".toList := by decide

end Csv
