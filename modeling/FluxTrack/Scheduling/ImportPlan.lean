import FluxTrack.Scheduling.ImportOfferings
import FluxTrack.Scheduling.Importing

/-!
# Planning an import

The reading half of `handle` of `scheduling/management/commands/import_offerings.py`: the rows
of a grid are counted, skipped or planned, and a planned row is made out for the writing half.

## Main definitions

* `ImportOptions`, `ImportStats` — the options and the counters of a run
* `planRow`, `planGrid` — one row, and the loop with its limit
* `plannedRow`, `importGrid` — the planned rows as they are written, and the command
-/

namespace FluxTrack

open Calendar Relational Process

/-- The options of the command: a blank building, no floor and a limit of zero are not given. -/
structure ImportOptions where
  building : String
  floor : Option ℤ
  limit : ℤ
  dryRun : Bool

/-- A filter is given. -/
def ImportOptions.filtered (o : ImportOptions) : Bool := o.building != "" || o.floor.isSome

/-- The counters of a run. -/
structure ImportStats where
  sections : ℕ
  skipNoSchedule : ℕ
  skipBadTime : ℕ
  skipFiltered : ℕ
  tbaRows : ℕ
  onlineNoRoomRows : ℕ
  deriving DecidableEq

/-- The counters before the loop. -/
def ImportStats.zero : ImportStats := ⟨0, 0, 0, 0, 0, 0⟩

/-- An entry of a plan: its room, or none for the shared placeholder. -/
structure PlanEntry where
  info : Option RoomInfo
  modality : Modality
  day : ℕ
  start : TimeOfDay
  finish : TimeOfDay
  deriving DecidableEq

/-! ### One row -/

/-- The meetings of a row: how many have no slot, how many are filtered out, and those with a
real room and without. -/
structure RowMeetings where
  badTime : ℕ
  offFilter : ℕ
  real : List (ℕ × TimeOfDay × TimeOfDay × RoomInfo)
  roomless : List (ℕ × TimeOfDay × TimeOfDay)

/-- The room passes the filters. -/
def ImportOptions.admits (o : ImportOptions) (tables : TextTables) (info : RoomInfo) : Bool :=
  (o.building == "" || info.codePrefix == tables.upper o.building) &&
    o.floor.all fun f => info.floor == f

/-- One round of the loop over the meetings of a row. -/
def RowMeetings.add (tables : TextTables) (o : ImportOptions) (sec : String) (ms : RowMeetings)
    (m : MeetingParse) : RowMeetings :=
  match m.slot? with
  -- a day nobody knows, or no slot of positive length
  | none => { ms with badTime := ms.badTime + 1 }
  | some (d, s, e) =>
    if isRealRoom tables m.roomRaw sec then
      let info := classifyRoom tables m.roomRaw
      if o.admits tables info then { ms with real := ms.real ++ [(d, s, e, info)] }
      else { ms with offFilter := ms.offFilter + 1 }
    else { ms with roomless := ms.roomless ++ [(d, s, e)] }

/-- The meetings of a row. -/
def rowMeetings (tables : TextTables) (o : ImportOptions) (schedule sec : String) : RowMeetings :=
  (parseMeetings tables schedule).foldl (RowMeetings.add tables o sec) ⟨0, 0, [], []⟩

/-- Where the entries of a row go. -/
inductive RowKind
  | real | offFilter | online | tba
  deriving DecidableEq

/-- `TBA_ROOM_CODE` and `ONLINE_TBA_ROOM_CODE`. -/
def RowKind.placeholder : RowKind → String
  | .online => "VTBA"
  | _ => "TBA"

/-- The kind of a row and its plan. -/
def planEntries (tables : TextTables) (o : ImportOptions) (courseMode : String)
    (ms : RowMeetings) : RowKind × List PlanEntry :=
  if ms.real ≠ [] then
    (.real, ms.real.map fun (d, s, e, info) =>
      ⟨some info, modalityForRoom tables (some info) courseMode, d, s, e⟩)
  -- the placeholders lie in other buildings than the filters ask for
  else if o.filtered then (.offFilter, [])
  else if tables.lower (Py.strip courseMode) = "online" then
    (.online, ms.roomless.map fun (d, s, e) => ⟨none, .online, d, s, e⟩)
  else
    (.tba, ms.roomless.map fun (d, s, e) =>
      ⟨none, modalityForRoom tables none courseMode, d, s, e⟩)

/-- A row with a plan that is not empty. -/
structure PlannedSection where
  row : List String
  kind : RowKind
  entries : List PlanEntry

/-! ### The loop -/

/-- The counters and the planned rows so far. -/
structure PlanAcc where
  stats : ImportStats
  planned : List PlannedSection

/-- One round of the loop over the rows. -/
def PlanAcc.addRow (tables : TextTables) (o : ImportOptions) (col : String → Option ℕ)
    (acc : PlanAcc) (row : List String) : PlanAcc :=
  let schedule := rowCell row col "Schedule"
  if schedule = "" then
    { acc with stats := { acc.stats with skipNoSchedule := acc.stats.skipNoSchedule + 1 } }
  else
    let ms := rowMeetings tables o schedule (rowCell row col "Sec")
    let plan := planEntries tables o (rowCell row col "Mode") ms
    { stats :=
        -- a row counts as a section once there is an entry to write
        { sections := if plan.2 = [] then acc.stats.sections else acc.stats.sections + 1
          skipNoSchedule := acc.stats.skipNoSchedule
          skipBadTime := acc.stats.skipBadTime + ms.badTime
          skipFiltered := acc.stats.skipFiltered + ms.offFilter
          tbaRows := if plan.1 = .tba then acc.stats.tbaRows + 1 else acc.stats.tbaRows
          onlineNoRoomRows :=
            if plan.1 = .online then acc.stats.onlineNoRoomRows + 1
            else acc.stats.onlineNoRoomRows }
      planned := if plan.2 = [] then acc.planned else acc.planned ++ [⟨row, plan.1, plan.2⟩] }

/-- The loop, up to the limit. -/
def planRows (tables : TextTables) (o : ImportOptions) (col : String → Option ℕ) :
    List (List String) → PlanAcc → PlanAcc
  | [], acc => acc
  | row :: rest, acc =>
    -- the limit is looked at before a row is read
    if o.limit ≠ 0 ∧ o.limit ≤ acc.stats.sections then acc
    else planRows tables o col rest (acc.addRow tables o col row)

/-- The counters and the planned rows of a grid without its header. -/
def planGrid (tables : TextTables) (o : ImportOptions) (col : String → Option ℕ)
    (data : List (List String)) : PlanAcc :=
  planRows tables o col data ⟨.zero, []⟩

/-! ### The command -/

/-- The user name of the instructor: the local part of the e-mail, or a slug of the name. -/
def instructorUsername (tables : TextTables) (name email : String) : String :=
  if email ≠ "" then (Py.split '@' email).headD ""
  else "fac-" ++ Py.truncate 24 (tables.slugify (normalizeNameKey tables name))

/-- `int(enrolled_raw) if enrolled_raw.isdigit() else 0`, if it is read. -/
def enrolledCount (tables : TextTables) (raw : String) : Option ℕ :=
  if tables.isDigit raw then tables.int raw else some 0

/-- A meeting as it is written, with the token and the code that are minted for its room. -/
def plannedMeeting (tables : TextTables) (kind : RowKind) (entry : PlanEntry)
    (minted : String × String) : PlannedMeeting :=
  let info := entry.info.getD (classifyRoom tables kind.placeholder)
  { day := entry.day
    startTime := entry.start
    endTime := entry.finish
    modality := entry.modality
    roomCode := info.rawCode
    buildingCode := info.building.code
    buildingName := info.building.name
    floor := info.floor
    qrToken := minted.1
    manualCode := minted.2 }

/-- A planned row as it is written; `mint` gives the credentials for each of its entries. -/
def plannedRow (tables : TextTables) (col : String → Option ℕ) (mint : ℕ → String × String)
    (plan : PlannedSection) : Option PlannedRow :=
  let name := rowCell plan.row col "Instructor"
  let email := rowCell plan.row col "Email"
  -- "Last, First": what follows a second comma is left out
  let parts := (Py.split ',' name).map Py.strip
  (enrolledCount tables (rowCell plan.row col "Enrolled")).map fun enrolled =>
    { email := email
      nameKey := normalizeNameKey tables name
      username := instructorUsername tables name email
      firstName := (parts[1]?).elim "" tables.title
      lastName := tables.title (parts.headD "")
      courseCode := rowCell plan.row col "Code"
      sectionName := rowCell plan.row col "Sec"
      enrolled := enrolled
      meetings := plan.entries.zipIdx.map fun p =>
        plannedMeeting tables plan.kind p.1 (mint p.2) }

/-- The planned rows as they are written, if every count of students is read. -/
def plannedRows (tables : TextTables) (col : String → Option ℕ) (mint : ℕ → ℕ → String × String)
    (plans : List PlannedSection) : Option (List PlannedRow) :=
  plans.zipIdx.mapM fun p => plannedRow tables col (mint p.2) p.1

/-- `import_offerings` on a grid with its header. A count that is not read ends the run, and
what was written before is rolled back. -/
def importGrid (tables : TextTables) (lookup : TermLookup) (grid : List (List String))
    (o : ImportOptions) (mint : ℕ → ℕ → String × String) : M Unit :=
  match grid with
  | [] => do
    -- the term is looked up before the file is read
    let _ ← resolveTerm lookup
    pure ()
  | header :: data =>
    let col := columns header
    match plannedRows tables col mint (planGrid tables o col data).planned with
    | some rows => importOfferings lookup rows o.dryRun
    | none =>
      -- a dry run does not read the count
      if o.dryRun then importOfferings lookup [] true
      else do
        let _ ← resolveTerm lookup
        .raise .value

end FluxTrack
