import FluxTrack.Data.Grouping
import FluxTrack.Data.Numeration
import Mathlib.Data.List.Range

/-!
# Reading spreadsheets

`scheduling/xlsx.py`: the parts of a spreadsheet are trees of elements, and the cells of one
worksheet are laid out in a grid by their references. The container and its parts are read by the
standard library, so an archive is given by the tree of each of its members.

## Main definitions

* `Element`, `Archive` — parsed parts, and the members of a file
* `colIndex` — `_col_index`
* `cellText` — `_cell_text`, with `loadSharedStrings` for the table it reads
* `worksheetPart` — `_worksheet_part`
* `readGrid` — `read_grid`
-/

namespace FluxTrack.Xlsx

/-- An element of a parsed part. -/
inductive Element where
  | mk (tag : String) (attributes : List (String × String)) (text : Option String)
      (children : List Element)

/-- What reading raises. -/
inductive Fault
  /-- a part that is no XML -/
  | parseError
  /-- a row number that is no number -/
  | valueError
  deriving DecidableEq

/-- `_parse(zf, member)`: the root of a member, if there is the member. -/
abbrev Archive := String → Except Fault (Option Element)

/-- The part of a text behind its last `}`. -/
def localname (tag : String) : String :=
  String.ofList (tag.toList.reverse.takeWhile fun c => c != '\x7d').reverse

namespace Element

/-- The tag without its namespace. -/
def name : Element → String
  | mk tag _ _ _ => localname tag

/-- `e.text` -/
def text : Element → Option String
  | mk _ _ text _ => text

/-- `for child in e` -/
def children : Element → List Element
  | mk _ _ _ children => children

/-- `e.get(key)` -/
def get (key : String) : Element → Option String
  | mk _ attributes _ _ => (attributes.find? fun a => a.1 == key).map Prod.snd

mutual

/-- `e.iter()`: the element and all below it, in document order. -/
def iter : Element → List Element
  | mk tag attributes text children => mk tag attributes text children :: iterAll children

/-- The elements of a list, each with all below it. -/
def iterAll : List Element → List Element
  | [] => []
  | e :: es => iter e ++ iterAll es

end

end Element

/-! ### References -/

/-- `[A-Za-z]` -/
def isLetter (c : Char) : Bool := decide ('A' ≤ c ∧ c ≤ 'Z') || decide ('a' ≤ c ∧ c ≤ 'z')

/-- `_col_index` -/
def colIndex (cellRef : String) : ℤ :=
  match cellRef.toList.takeWhile isLetter with
  | [] => 0
  | letters => letters.foldl (fun col c => col * 26 + ((c.toUpper.toNat : ℤ) - 'A'.toNat + 1)) 0 - 1

/-- The column of a cell, the first one if it has no reference. -/
def cellColumn (cell : Element) : ℤ :=
  match cell.get "r" with
  | some ref => if ref = "" then 0 else colIndex ref
  | none => 0

/-! ### Texts -/

/-- `_si_text`: the texts of all elements `t`, one after another. -/
def siText (si : Element) : String :=
  String.join (si.iter.filterMap fun node => if node.name = "t" then node.text else none)

/-- `_load_shared_strings` -/
def loadSharedStrings (zf : Archive) : Except Fault (List String) := do
  match ← zf "xl/sharedStrings.xml" with
  | none => pure []
  | some root => pure ((root.children.filter fun si => si.name == "si").map siText)

/-- `l[i]`, counted from the end below zero. -/
def pyIndex (l : List String) (i : ℤ) : Option String :=
  if 0 ≤ i then l[i.toNat]? else if 0 ≤ l.length + i then l[(l.length + i).toNat]? else none

/-- The text of the first `v` of a cell. -/
def valueText (cell : Element) : String :=
  match cell.children.find? fun child => child.name == "v" with
  | some child => child.text.getD ""
  | none => ""

section

-- `int(s)`, which raises on a text that is no number
variable (int : String → Option ℤ)

/-- `_cell_text` -/
def cellText (shared : List String) (cell : Element) : String :=
  if cell.get "t" = some "s" then
    -- the first index that is written out, if it is one of the table
    match (cell.children.filter fun child => child.name == "v").findSome? Element.text with
    | some index => ((int index).bind (pyIndex shared)).getD ""
    | none => ""
  else if cell.get "t" = some "inlineStr" then siText cell
  else valueText cell

/-! ### Worksheets -/

/-- The attribute `id` of the relationships namespace. -/
def ridKey : String :=
  "\x7bhttp://schemas.openxmlformats.org/officeDocument/2006/relationships\x7did"

/-- `_workbook_sheets` -/
def workbookSheets (zf : Archive) : Except Fault (List (String × Option String)) := do
  match ← zf "xl/workbook.xml" with
  | none => pure []
  | some root =>
    let sheets := (root.children.filter fun e => e.name == "sheets").flatMap fun e =>
      e.children.filter fun sheet => sheet.name == "sheet"
    pure (sheets.map fun sheet => ((sheet.get "name").getD "", sheet.get ridKey))

/-- `xl/` in front of a target that does not begin with it. -/
def partName (target : String) : String :=
  if "xl/".toList.isPrefixOf target.toList then target
  else "xl/" ++ String.ofList (target.toList.dropWhile fun c => c == '/')

/-- One relationship of `_rels_map`. -/
def addRel (out : Dict String String) (rel : Element) : Dict String String :=
  match rel.get "Id", rel.get "Target" with
  | some rid, some target => if rid = "" ∨ target = "" then out else out.insert rid (partName target)
  | _, _ => out

/-- `_rels_map` -/
def relsMap (zf : Archive) : Except Fault (Dict String String) := do
  match ← zf "xl/_rels/workbook.xml.rels" with
  | none => pure ∅
  | some root => pure (root.children.foldl addRel ∅)

/-- `_worksheet_part` -/
def worksheetPart (zf : Archive) (sheet : Option String) :
    Except Fault (Option String) := do
  match ← workbookSheets zf with
  | [] => pure none
  | first :: others =>
    let rels ← relsMap zf
    let entry := match sheet with
      | none => some first
      | some name => (first :: others).find? fun s => s.1 == name
    pure (entry.bind fun s => s.2.bind rels.lookup)

/-! ### The grid -/

/-- The elements `row`, each with its position in its `sheetData`. -/
def sheetRows (root : Element) : List (Element × ℕ) :=
  (root.children.filter fun e => e.name == "sheetData").flatMap fun e =>
    e.children.zipIdx.filter fun row => row.1.name == "row"

/-- The elements `c` of a row. -/
def rowCells (row : Element) : List Element := row.children.filter fun e => e.name == "c"

/-- `int(r_attr) - 1 if r_attr else ri` -/
def rowIndex (row : Element × ℕ) : Except Fault ℤ :=
  match row.1.get "r" with
  | none => .ok row.2
  | some r =>
    if r = "" then .ok row.2
    else match int r with
      | some n => .ok (n - 1)
      | none => .error .valueError

/-- The cells so far, and their extent. -/
structure Cells where
  cells : Dict ℤ (Dict ℤ String)
  maxRow : ℤ
  maxCol : ℤ

namespace Cells

/-- No cells. -/
def empty : Cells := ⟨∅, -1, -1⟩

/-- A text in a cell. -/
def place (acc : Cells) (row col : ℤ) (text : String) : Cells :=
  { acc with
    cells := acc.cells.update row ∅ fun cells => cells.insert col text
    maxCol := if col > acc.maxCol then col else acc.maxCol }

/-- The cells of a row, and the row. -/
def addRow (shared : List String) (acc : Cells) (row : Element) (index : ℤ) : Cells :=
  let acc := (rowCells row).foldl
    (fun acc cell => acc.place index (cellColumn cell) (cellText int shared cell)) acc
  { acc with maxRow := if index > acc.maxRow then index else acc.maxRow }

/-- `cells.get(r, {}).get(c)` -/
def get (acc : Cells) (r c : ℤ) : Option String := ((acc.cells.lookup r).getD ∅).lookup c

/-- The dense grid, as wide in every row. -/
def grid (acc : Cells) : List (List String) :=
  if acc.maxRow < 0 then []
  else (List.range (acc.maxRow + 1).toNat).map fun r : ℕ =>
    (List.range (acc.maxCol + 1).toNat).map fun c : ℕ => (acc.get r c).getD ""

end Cells

/-- One round of the loop over the rows. -/
def readRow (shared : List String) (acc : Cells) (row : Element × ℕ) : Except Fault Cells := do
  let index ← rowIndex int row
  pure (acc.addRow int shared row.1 index)

/-- `read_grid` -/
def readGrid (zf : Archive) (sheet : Option String) : Except Fault (List (List String)) := do
  let shared ← loadSharedStrings zf
  match ← worksheetPart zf sheet with
  | none => pure []
  | some part =>
    match ← zf part with
    | none => pure []
    | some root =>
      let acc ← (sheetRows root).foldlM (readRow int shared) .empty
      pure acc.grid

end

end FluxTrack.Xlsx
