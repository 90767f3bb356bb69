import FluxTrack.Scheduling.Xlsx
import Mathlib.Tactic.IntervalCases

/-!
# Spreadsheet addresses

The letters of a reference number the columns in base 26 without a zero, in either case. A
worksheet whose cells stand at references of their own is laid out as it is addressed: every cell
is where its reference says, and everything else is empty, in whatever order the cells come.

## Main definitions

* `columnName` — the letters of a column
* `Addressed` — the row and column that a cell's reference gives
* `WellAddressed`, `DenseGrid` — the worksheets that are laid out, and how

## Main results

* `colIndex_columnName` — a reference gives its column
* `spreadsheet_addressing` — and the grid is laid out by references
-/

namespace FluxTrack.Xlsx

/-! ### Columns -/

/-- The letters of a column, counted from zero. -/
def columnName (n : ℕ) : List Char :=
  (Numeration.digits 26 (n + 1)).map fun d => Char.ofNat (64 + d)

section

variable {n : ℕ} {name rest : List Char}

/-- A digit of a numeral in base 26 is written as a capital. -/
theorem toNat_ofNat_digit {d : ℕ} (h : 1 ≤ d ∧ d ≤ 26) : (Char.ofNat (64 + d)).toNat = 64 + d := by
  obtain ⟨hlo, hhi⟩ := h
  interval_cases d <;> rfl

/-- The letters are those whose capital is one. -/
theorem isLetter_of_toUpper {c : Char} (h : 65 ≤ c.toUpper.toNat ∧ c.toUpper.toNat ≤ 90) :
    isLetter c = true := by
  by_cases hlower : 'a'.val ≤ c.val ∧ c.val ≤ 'z'.val
  · exact Bool.or_eq_true_iff.mpr (.inr (decide_eq_true hlower))
  · have hupper : c.toUpper = c := dif_neg hlower
    rw [hupper] at h
    refine Bool.or_eq_true_iff.mpr (.inl (decide_eq_true ⟨?_, ?_⟩))
    · exact UInt32.le_iff_toNat_le.mpr h.1
    · exact UInt32.le_iff_toNat_le.mpr h.2

theorem isLetter_of_columnName (hname : name.map Char.toUpper = columnName n) :
    ∀ c ∈ name, isLetter c = true := by
  intro c hc
  have hmem : c.toUpper ∈ columnName n := hname ▸ List.mem_map_of_mem hc
  obtain ⟨d, hd, hletter⟩ := List.mem_map.mp hmem
  have hdigit := Numeration.mem_digits (by decide) hd
  refine isLetter_of_toUpper ?_
  rw [← hletter, toNat_ofNat_digit hdigit]
  omega

/-- The letters of a reference that starts with a column. -/
theorem takeWhile_isLetter (hname : name.map Char.toUpper = columnName n)
    (hrest : ∀ c ∈ rest, isLetter c = false) : (name ++ rest).takeWhile isLetter = name := by
  rw [List.takeWhile_append_of_pos (isLetter_of_columnName hname)]
  cases rest with
  | nil => exact List.append_nil name
  | cons c rest =>
    rw [List.takeWhile_cons_of_neg (by simp [hrest c List.mem_cons_self]), List.append_nil]

/-- The column that capitals count up to is the value of their numeral. -/
theorem foldl_letters {ds : List ℕ} (hds : ∀ d ∈ ds, 1 ≤ d ∧ d ≤ 26) (col : ℕ) :
    (ds.map fun d => Char.ofNat (64 + d)).foldl
      (fun (col : ℤ) c => col * 26 + ((c.toNat : ℤ) - 'A'.toNat + 1)) col =
      (ds.foldl (fun n d => n * 26 + d) col : ℕ) := by
  induction ds generalizing col with
  | nil => rfl
  | cons d ds ih =>
    have hd := toNat_ofNat_digit (hds d List.mem_cons_self)
    have hstep : (col : ℤ) * 26 + (((64 + d : ℕ) : ℤ) - 'A'.toNat + 1) = (col * 26 + d : ℕ) := by
      have hA : 'A'.toNat = 65 := rfl
      rw [hA]
      push_cast
      ring
    rw [List.map_cons, List.foldl_cons, hd, hstep, ih fun d h => hds d (List.mem_cons_of_mem _ h),
      List.foldl_cons]

/-- A reference gives the column it names. -/
theorem colIndex_columnName (hname : name.map Char.toUpper = columnName n)
    (hrest : ∀ c ∈ rest, isLetter c = false) : colIndex (String.ofList (name ++ rest)) = n := by
  have hdigits : ∀ d ∈ Numeration.digits 26 (n + 1), 1 ≤ d ∧ d ≤ 26 :=
    fun d hd => Numeration.mem_digits (by decide) hd
  have hvalue : name.foldl (fun (col : ℤ) c => col * 26 + ((c.toUpper.toNat : ℤ) - 'A'.toNat + 1))
      0 = n + 1 := by
    have hmap : (name.map Char.toUpper).foldl
        (fun (col : ℤ) c => col * 26 + ((c.toNat : ℤ) - 'A'.toNat + 1)) 0 = name.foldl
          (fun (col : ℤ) c => col * 26 + ((c.toUpper.toNat : ℤ) - 'A'.toNat + 1)) 0 :=
      List.foldl_map
    rw [← hmap, hname]
    refine (foldl_letters hdigits 0).trans ?_
    exact_mod_cast Numeration.value_digits (n + 1)
  rw [colIndex, String.toList_ofList, takeWhile_isLetter hname hrest]
  cases name with
  | nil =>
    -- no column is without letters
    rw [List.foldl_nil] at hvalue
    omega
  | cons c name =>
    simp only [hvalue]
    omega

theorem isLetter_of_isDigit {c : Char} (h : c.isDigit = true) : isLetter c = false := by
  rw [Char.isDigit, Bool.and_eq_true, decide_eq_true_iff, decide_eq_true_iff] at h
  have hhi : c.toNat ≤ 57 := UInt32.le_iff_toNat_le.mp h.2
  refine Bool.or_eq_false_iff.mpr ⟨decide_eq_false fun hcap => ?_, decide_eq_false fun hlow => ?_⟩
  · have hlo : 65 ≤ c.toNat := UInt32.le_iff_toNat_le.mp hcap.1
    omega
  · have hlo : 97 ≤ c.toNat := UInt32.le_iff_toNat_le.mp hlow.1
    omega

end

/-! ### Addresses -/

/-- The number that decimal digits write. -/
def rowNumber (digits : List Char) : ℕ := digits.foldl (fun n c => 10 * n + (c.toNat - 48)) 0

/-- The text is a reference to a cell, rows and columns counted from zero. -/
def IsReference (ref : String) (r c : ℕ) : Prop :=
  ∃ name digits : List Char, ref = String.ofList (name ++ digits) ∧
    name.map Char.toUpper = columnName c ∧ digits ≠ [] ∧ (∀ d ∈ digits, d.isDigit = true) ∧
    rowNumber digits = r + 1

/-- The cells of a worksheet, each with its row. -/
def sheetCells (root : Element) : List ((Element × ℕ) × Element) :=
  (sheetRows root).flatMap fun row => (rowCells row.1).map fun cell => (row, cell)

section

variable (int : String → Option ℤ)

/-- The row has the number, or no number and the position. -/
def HasNumber (row : Element × ℕ) (r : ℕ) : Prop :=
  (∃ s, row.1.get "r" = some s ∧ s ≠ "" ∧ int s = some ((r : ℤ) + 1)) ∨
    (row.1.get "r" = none ∨ row.1.get "r" = some "") ∧ row.2 = r

/-- The cell stands in the row and column that its reference gives, in a row of that number. -/
def Addressed (x : (Element × ℕ) × Element) (r c : ℕ) : Prop :=
  HasNumber int x.1 r ∧ ∃ ref, x.2.get "r" = some ref ∧ IsReference ref r c

/-- Every row has a number, and every cell a reference of its own in it. -/
structure WellAddressed (root : Element) : Prop where
  rows : ∀ row ∈ sheetRows root, ∃ r, HasNumber int row r
  cells : ∀ x ∈ sheetCells root, ∃ r c, Addressed int x r c
  distinct : (sheetCells root).Pairwise fun x y =>
    ∀ r c, Addressed int x r c → ¬ Addressed int y r c

/-- The grid has every cell where its reference says, and nothing else, and is no larger than it
must be. -/
structure DenseGrid (shared : List String) (root : Element) (grid : List (List String)) :
    Prop where
  rectangular : ∃ width : ℕ, (∀ row ∈ grid, row.length = width) ∧
    ∀ c, c < width ↔ ∃ x ∈ sheetCells root, ∃ r c', c ≤ c' ∧ Addressed int x r c'
  height : ∀ r, r < grid.length ↔ ∃ row ∈ sheetRows root, ∃ r', r ≤ r' ∧ HasNumber int row r'
  present : ∀ x ∈ sheetCells root, ∀ r c, Addressed int x r c →
    (grid[r]?.bind fun row => row[c]?) = some (cellText int shared x.2)
  absent : ∀ r c t, (grid[r]?.bind fun row => row[c]?) = some t →
    (∀ x ∈ sheetCells root, ¬ Addressed int x r c) → t = ""

end

section

variable {int : String → Option ℤ} {row : Element × ℕ} {x : (Element × ℕ) × Element} {r c : ℕ}

theorem rowIndex_of_hasNumber (h : HasNumber int row r) : rowIndex int row = .ok r := by
  rw [rowIndex]
  rcases h with ⟨s, hget, hne, hint⟩ | ⟨hget | hget, hpos⟩
  · simp [hget, hne, hint]
  · simp [hget, hpos]
  · simp [hget, hpos]

theorem HasNumber.unique {r' : ℕ} (h : HasNumber int row r) (h' : HasNumber int row r') :
    r = r' := by
  have heq := (rowIndex_of_hasNumber h).symm.trans (rowIndex_of_hasNumber h')
  simpa using heq

theorem cellColumn_of_addressed (h : Addressed int x r c) : cellColumn x.2 = c := by
  obtain ⟨-, ref, hget, name, digits, rfl, hname, hne, hdigits, -⟩ := h
  have hnonempty : String.ofList (name ++ digits) ≠ "" := by
    intro hempty
    have hnil := congrArg String.toList hempty
    rw [String.toList_ofList] at hnil
    exact hne (List.append_eq_nil_iff.mp hnil).2
  rw [cellColumn, hget]
  exact (if_neg hnonempty).trans
    (colIndex_columnName hname fun d hd => isLetter_of_isDigit (hdigits d hd))

end

/-! ### The loops -/

section

variable {int : String → Option ℤ} {shared : List String} {root : Element}

namespace Cells

variable {acc : Cells} {row col r c : ℤ} {text : String}

theorem get_place : (acc.place row col text).get r c =
    if row = r ∧ col = c then some text else acc.get r c := by
  rw [get, place]
  by_cases hrow : row = r
  · subst hrow
    rw [Dict.lookup_update, Option.getD_some]
    by_cases hcol : col = c
    · subst hcol
      rw [AList.lookup_insert, if_pos ⟨rfl, rfl⟩]
    · rw [AList.lookup_insert_ne (Ne.symm hcol), if_neg fun h => hcol h.2]
      rfl
  · rw [Dict.lookup_update_of_ne (Ne.symm hrow), if_neg fun h => hrow h.1]
    rfl

theorem maxCol_place : (acc.place row col text).maxCol = max acc.maxCol col := by
  rw [place]
  change (if col > acc.maxCol then col else acc.maxCol) = _
  split <;> omega

/-- The cells of a row are written to their columns. -/
theorem foldl_place (int : String → Option ℤ) (shared : List String) (row r c : ℤ)
    (cells : List Element) (acc : Cells) :
    let placed := cells.foldl
      (fun acc cell => acc.place row (cellColumn cell) (cellText int shared cell)) acc
    placed.get r c = Dict.write (fun cell => row = r ∧ cellColumn cell = c)
        (cellText int shared) (acc.get r c) cells ∧
      placed.maxCol = (cells.map cellColumn).foldl max acc.maxCol ∧
      placed.maxRow = acc.maxRow := by
  induction cells generalizing acc with
  | nil => exact ⟨rfl, rfl, rfl⟩
  | cons cell cells ih =>
    obtain ⟨hget, hcol, hrow⟩ := ih (acc.place row (cellColumn cell) (cellText int shared cell))
    rw [get_place] at hget
    rw [maxCol_place] at hcol
    exact ⟨hget, hcol, hrow⟩

/-- What rows whose numbers are known leave behind. -/
def addRows (int : String → Option ℤ) (shared : List String) (index : Element × ℕ → ℤ)
    (acc : Cells) (rows : List (Element × ℕ)) : Cells :=
  rows.foldl (fun acc row => acc.addRow int shared row.1 (index row)) acc

/-- The cells of the rows are written to their places, and the extent grows to them. -/
theorem addRows_spec (int : String → Option ℤ) (shared : List String) (index : Element × ℕ → ℤ)
    (r c : ℤ) (rows : List (Element × ℕ)) (acc : Cells) :
    let cells := rows.flatMap fun row => (rowCells row.1).map fun cell => (row, cell)
    let added := addRows int shared index acc rows
    added.get r c = Dict.write (fun x => index x.1 = r ∧ cellColumn x.2 = c)
        (fun x => cellText int shared x.2) (acc.get r c) cells ∧
      added.maxCol = (cells.map fun x => cellColumn x.2).foldl max acc.maxCol ∧
      added.maxRow = (rows.map index).foldl max acc.maxRow := by
  induction rows generalizing acc with
  | nil => exact ⟨rfl, rfl, rfl⟩
  | cons row rows ih =>
    obtain ⟨hget, hcol, hrow⟩ := ih (acc.addRow int shared row.1 (index row))
    obtain ⟨hget', hcol', hrow'⟩ := foldl_place int shared (index row) r c (rowCells row.1) acc
    have hmax : (acc.addRow int shared row.1 (index row)).maxRow = max acc.maxRow (index row) := by
      rw [addRow]
      simp only [hrow']
      split <;> omega
    refine ⟨hget.trans ?_, hcol.trans ?_, hrow.trans ?_⟩
    · rw [List.flatMap_cons, Dict.write, Dict.write, List.foldl_append, List.foldl_map]
      exact congrArg (fun o => List.foldl _ o _) hget'
    · rw [List.flatMap_cons, List.map_append, List.foldl_append, List.map_map]
      exact congrArg (fun b => List.foldl max b _) hcol'
    · rw [List.map_cons, List.foldl_cons, hmax]

/-- The grid has as many rows and columns as the extent says. -/
theorem getElem?_grid (acc : Cells) (r c : ℕ) : (acc.grid[r]?.bind fun row => row[c]?) =
    if (r : ℤ) ≤ acc.maxRow ∧ (c : ℤ) ≤ acc.maxCol then some ((acc.get r c).getD "") else none := by
  rw [grid]
  by_cases hr : (r : ℤ) ≤ acc.maxRow
  · rw [if_neg (by omega), List.getElem?_map, List.getElem?_range (by omega), Option.map_some,
      Option.bind_some, List.getElem?_map]
    by_cases hc : (c : ℤ) ≤ acc.maxCol
    · rw [List.getElem?_range (by omega), Option.map_some, if_pos ⟨hr, hc⟩]
    · rw [List.getElem?_eq_none (by rw [List.length_range]; omega), Option.map_none,
        if_neg fun h => hc h.2]
  · have hout : ¬ ((r : ℤ) ≤ acc.maxRow ∧ (c : ℤ) ≤ acc.maxCol) := fun h => hr h.1
    rw [if_neg hout]
    split
    · rfl
    · rw [List.getElem?_eq_none (by rw [List.length_map, List.length_range]; omega)]
      rfl

theorem length_grid (acc : Cells) : acc.grid.length = (acc.maxRow + 1).toNat := by
  rw [grid]
  split
  · rw [List.length_nil]
    omega
  · rw [List.length_map, List.length_range]

theorem length_of_mem_grid {row : List String} (h : row ∈ acc.grid) :
    row.length = (acc.maxCol + 1).toNat := by
  rw [grid] at h
  split at h
  · cases h
  · obtain ⟨r, -, rfl⟩ := List.mem_map.mp h
    rw [List.length_map, List.length_range]

end Cells

/-- The loop over rows whose numbers can be read. -/
theorem foldlM_readRow {rows : List (Element × ℕ)} {index : Element × ℕ → ℤ}
    (hindex : ∀ row ∈ rows, rowIndex int row = .ok (index row)) (acc : Cells) :
    rows.foldlM (readRow int shared) acc = .ok (Cells.addRows int shared index acc rows) := by
  induction rows generalizing acc with
  | nil => rfl
  | cons row rows ih =>
    rw [List.foldlM_cons, readRow, hindex row List.mem_cons_self]
    exact ih (fun row h => hindex row (List.mem_cons_of_mem _ h)) _

/-- The index of a row, where it has one. -/
def indexOf (int : String → Option ℤ) (row : Element × ℕ) : ℤ :=
  match rowIndex int row with
  | .ok index => index
  | .error _ => 0

theorem indexOf_of_hasNumber {row : Element × ℕ} {r : ℕ} (h : HasNumber int row r) :
    indexOf int row = r := by
  rw [indexOf, rowIndex_of_hasNumber h]

/-- A cell is written to one place, its address. -/
theorem addressed_iff (h : WellAddressed int root) {x : (Element × ℕ) × Element}
    (hx : x ∈ sheetCells root) (r c : ℕ) :
    Addressed int x r c ↔ indexOf int x.1 = r ∧ cellColumn x.2 = c := by
  constructor
  · intro haddr
    exact ⟨indexOf_of_hasNumber haddr.1, cellColumn_of_addressed haddr⟩
  · rintro ⟨hrow, hcol⟩
    obtain ⟨r', c', haddr⟩ := h.cells x hx
    have hr := hrow.symm.trans (indexOf_of_hasNumber haddr.1)
    have hc := hcol.symm.trans (cellColumn_of_addressed haddr)
    rw [Nat.cast_inj] at hr hc
    rw [hr, hc]
    exact haddr

/-- An extent that grows from `-1` along things with numbers reaches up to the highest of them. -/
theorem le_extent_iff {α ι : Type*} {l : List α} {f : α → ℤ} {p : α → ι → Prop} {g : ι → ℕ}
    (hex : ∀ a ∈ l, ∃ i, p a i) (hf : ∀ a i, p a i → f a = g i) (k : ℕ) :
    (k : ℤ) ≤ (l.map f).foldl max (-1) ↔ ∃ a ∈ l, ∃ i, k ≤ g i ∧ p a i := by
  rw [Dict.le_foldl_max]
  constructor
  · rintro (hneg | ⟨x, hmem, hle⟩)
    · omega
    · obtain ⟨a, ha, rfl⟩ := List.mem_map.mp hmem
      obtain ⟨i, hi⟩ := hex a ha
      rw [hf a i hi] at hle
      exact ⟨a, ha, i, by exact_mod_cast hle, hi⟩
  · rintro ⟨a, ha, i, hle, hi⟩
    refine .inr ⟨f a, List.mem_map_of_mem ha, ?_⟩
    rw [hf a i hi]
    exact_mod_cast hle

/-- The last row is that of the row with the highest number. -/
theorem le_maxRow_iff (h : WellAddressed int root) (r : ℕ) :
    (r : ℤ) ≤ ((sheetRows root).map (indexOf int)).foldl max (-1) ↔
      ∃ row ∈ sheetRows root, ∃ r', r ≤ r' ∧ HasNumber int row r' :=
  le_extent_iff (g := id) h.rows (fun _ _ => indexOf_of_hasNumber) r

/-- The last column is that of the cell furthest to the right. -/
theorem le_maxCol_iff (h : WellAddressed int root) (c : ℕ) :
    (c : ℤ) ≤ ((sheetCells root).map fun x => cellColumn x.2).foldl max (-1) ↔
      ∃ x ∈ sheetCells root, ∃ r c', c ≤ c' ∧ Addressed int x r c' := by
  have hextent := le_extent_iff (p := fun x (i : ℕ × ℕ) => Addressed int x i.1 i.2)
    (fun x hx => Prod.exists.mpr (h.cells x hx)) (fun _ _ => cellColumn_of_addressed) c
  simpa only [Prod.exists] using hextent

/-- No two cells are written to one place. -/
theorem pairwise_written (h : WellAddressed int root) (r c : ℕ) :
    (sheetCells root).Pairwise fun x y => indexOf int x.1 = r ∧ cellColumn x.2 = c →
      ¬ (indexOf int y.1 = r ∧ cellColumn y.2 = c) := by
  refine h.distinct.imp_of_mem fun {x y} hx hy hne => ?_
  rw [← addressed_iff h hx, ← addressed_iff h hy]
  exact hne r c

/-- The cells of a well addressed worksheet are laid out in a dense grid. -/
theorem dense_grid (h : WellAddressed int root) : DenseGrid int shared root
    (Cells.addRows int shared (indexOf int) .empty (sheetRows root)).grid := by
  have hspec := fun r c : ℕ => Cells.addRows_spec int shared (indexOf int) r c (sheetRows root) .empty
  generalize Cells.addRows int shared (indexOf int) .empty (sheetRows root) = acc at hspec ⊢
  have hget : ∀ r c : ℕ, acc.get r c = Dict.write
      (fun x => indexOf int x.1 = r ∧ cellColumn x.2 = c) (fun x => cellText int shared x.2) none
      (sheetCells root) := fun r c => (hspec r c).1
  obtain ⟨hcol, hrow⟩ :
      acc.maxCol = ((sheetCells root).map fun x => cellColumn x.2).foldl max (-1) ∧
        acc.maxRow = ((sheetRows root).map (indexOf int)).foldl max (-1) := (hspec 0 0).2
  have hwidth := le_maxCol_iff h
  have hheight := le_maxRow_iff h
  rw [← hcol] at hwidth
  rw [← hrow] at hheight
  constructor
  · refine ⟨(acc.maxCol + 1).toNat, fun row h => Cells.length_of_mem_grid h, fun c => ?_⟩
    rw [← hwidth]
    omega
  · intro r
    rw [← hheight, Cells.length_grid]
    omega
  · -- the only write to the place of a cell is its own
    intro x hx r c haddr
    obtain ⟨row, hmem, hcell⟩ := List.mem_flatMap.mp hx
    obtain ⟨cell, -, rfl⟩ := List.mem_map.mp hcell
    rw [Cells.getElem?_grid, if_pos ⟨(hheight r).mpr ⟨row, hmem, r, le_rfl, haddr.1⟩,
      (hwidth c).mpr ⟨_, hx, r, c, le_rfl, haddr⟩⟩, hget,
      Dict.write_of_mem (pairwise_written h r c) hx ((addressed_iff h hx r c).mp haddr),
      Option.getD_some]
  · -- nothing is written to the other places
    intro r c t htext hnone
    rw [Cells.getElem?_grid] at htext
    split at htext
    · rw [hget, Dict.write_of_forall_not] at htext
      · exact (Option.some.inj htext).symm
      · exact fun x hx hplace => hnone x hx ((addressed_iff h hx r c).mpr hplace)
    · cases htext

/-- Reading a well addressed worksheet of an archive. -/
theorem readGrid_eq {zf : Archive} {sheet : Option String} {part : String}
    (hshared : loadSharedStrings zf = .ok shared) (hpart : worksheetPart zf sheet = .ok (some part))
    (hroot : zf part = .ok (some root)) (h : WellAddressed int root) :
    readGrid int zf sheet =
      .ok (Cells.addRows int shared (indexOf int) .empty (sheetRows root)).grid := by
  have hrows : ∀ row ∈ sheetRows root, rowIndex int row = .ok (indexOf int row) := by
    intro row hrow
    obtain ⟨r, hnumber⟩ := h.rows row hrow
    rw [indexOf_of_hasNumber hnumber, rowIndex_of_hasNumber hnumber]
  rw [readGrid, hshared]
  change (worksheetPart zf sheet >>= _) = _
  rw [hpart]
  change (zf part >>= _) = _
  rw [hroot]
  change ((sheetRows root).foldlM (readRow int shared) .empty >>= _) = _
  rw [foldlM_readRow hrows]
  rfl

/-- Addressing is exact: a reference gives the column it names, and a worksheet of an archive whose
cells have references of their own in their rows is laid out by them. -/
theorem spreadsheet_addressing :
    (∀ (n : ℕ) (name digits : List Char), name.map Char.toUpper = columnName n →
      (∀ d ∈ digits, d.isDigit = true) → colIndex (String.ofList (name ++ digits)) = n) ∧
    ∀ (int : String → Option ℤ) (zf : Archive) (sheet : Option String) (shared : List String)
      (part : String) (root : Element), loadSharedStrings zf = .ok shared →
      worksheetPart zf sheet = .ok (some part) → zf part = .ok (some root) →
      WellAddressed int root →
      ∃ grid, readGrid int zf sheet = .ok grid ∧ DenseGrid int shared root grid :=
  ⟨fun _ _ _ hname hdigits => colIndex_columnName hname fun d hd =>
      isLetter_of_isDigit (hdigits d hd),
    fun _ _ _ _ _ _ hshared hpart hroot h => ⟨_, readGrid_eq hshared hpart hroot h, dense_grid h⟩⟩

end

/-! ### A worksheet with gaps -/

/-- A row with one cell. -/
def rowOf (number ref text : String) : Element :=
  .mk "row" [("r", number)] none [.mk "c" [("r", ref)] none [.mk "v" [] (some text) []]]

/-- Two rows, the second first, with one cell each. -/
def sparseSheet : Element :=
  .mk "worksheet" [] none [.mk "sheetData" [] none [rowOf "2" "B2" "7", rowOf "1" "a1" "5"]]

/-- An archive with this worksheet. -/
def sparseArchive : Archive := fun member =>
  .ok (if member = "xl/workbook.xml" then
      some (.mk "workbook" [] none [.mk "sheets" [] none
        [.mk "sheet" [("name", "Sheet1"), (ridKey, "rId1")] none []]])
    else if member = "xl/_rels/workbook.xml.rels" then
      some (.mk "Relationships" [] none
        [.mk "Relationship" [("Id", "rId1"), ("Target", "worksheets/sheet1.xml")] none []])
    else if member = "xl/worksheets/sheet1.xml" then some sparseSheet
    else none)

/-- `int`, on the row numbers of the worksheet. -/
def smallInt (s : String) : Option ℤ := if s = "1" then some 1 else if s = "2" then some 2 else none

theorem wellAddressed_sparseSheet : WellAddressed smallInt sparseSheet := by
  have hsecond : HasNumber smallInt (rowOf "2" "B2" "7", 0) 1 := .inl ⟨"2", rfl, by decide, rfl⟩
  have hfirst : HasNumber smallInt (rowOf "1" "a1" "5", 1) 0 := .inl ⟨"1", rfl, by decide, rfl⟩
  have hB2 : IsReference "B2" 1 1 :=
    ⟨['B'], ['2'], rfl, by simp [columnName, Numeration.digits], by decide, by simp, rfl⟩
  have ha1 : IsReference "a1" 0 0 :=
    ⟨['a'], ['1'], rfl, by simp [columnName, Numeration.digits], by decide, by simp, rfl⟩
  have hrows : sheetRows sparseSheet = [(rowOf "2" "B2" "7", 0), (rowOf "1" "a1" "5", 1)] := rfl
  constructor
  · rw [hrows]
    intro row hrow
    rcases List.mem_pair.mp hrow with rfl | rfl
    · exact ⟨1, hsecond⟩
    · exact ⟨0, hfirst⟩
  · intro x hx
    rcases List.mem_pair.mp hx with rfl | rfl
    · exact ⟨1, 1, hsecond, "B2", rfl, hB2⟩
    · exact ⟨0, 0, hfirst, "a1", rfl, ha1⟩
  · refine List.pairwise_pair.mpr fun r c hx hy => ?_
    -- the rows differ
    have hone := hsecond.unique hx.1
    have hzero := hfirst.unique hy.1
    omega

theorem spreadsheet_addressing_sparse :
    colIndex "aB12" = 27 ∧ ∃ grid, readGrid smallInt sparseArchive none = .ok grid ∧
      DenseGrid smallInt [] sparseSheet grid :=
  ⟨spreadsheet_addressing.1 27 ['a', 'B'] ['1', '2'] (by simp [columnName, Numeration.digits])
      (by simp),
    spreadsheet_addressing.2 smallInt sparseArchive none [] "xl/worksheets/sheet1.xml" sparseSheet
      rfl rfl rfl wellAddressed_sparseSheet⟩

end FluxTrack.Xlsx
