import FluxTrack.Data.Builtins
import FluxTrack.Data.Pattern
import FluxTrack.Models
import Mathlib.Data.List.Dedup
import Mathlib.Data.List.Sort

/-!
# Reading course offerings

`scheduling/importing.py`: a schedule cell is read as meetings, a room code as a building and
a floor, an instructor's name as a key; and the rows of a grid are told apart into four
buckets. Nothing here reads the database.

## Main definitions

* `TextTables` — the tables of the interpreter
* `parseTime`, `parseMeetings` — `parse_time`, `parse_meetings`
* `classifyRoom`, `modalityForRoom`, `normalizeNameKey` — rooms, modalities and names
* `isRealRoom`, `reconcile` — `_is_real_room`, `reconcile`
-/

namespace FluxTrack

open Calendar

/-- What the services read off the tables of the interpreter: the case mappings, the letters
and digits of Unicode, `int`, and the slug filter. -/
structure TextTables where
  upper : String → String
  lower : String → String
  title : String → String
  slugify : String → String
  isAlpha : Char → Bool
  /-- `str.isdigit()` -/
  isDigit : String → Bool
  /-- `int(s)`, which not every text of digits has -/
  int : String → Option ℕ
  /-- the value of a character of `\d` -/
  digit : Char → Option ℕ

/-! ### Maps -/

/-- `PREFIX_BUILDING` with its code and name, and the fallback. -/
structure BuildingRef where
  code : String
  name : String
  deriving DecidableEq

/-- `UNASSIGNED_BUILDING`. -/
def unassignedBuilding : BuildingRef := ⟨"UNASSIGNED", "Unassigned"⟩

/-- `DAY_MAP`. -/
def dayMap (token : String) : Option ℕ :=
  match token with
  | "M" => some 0
  | "T" => some 1
  | "W" => some 2
  | "TH" => some 3
  | "F" => some 4
  | "S" => some 5
  | "SU" => some 6
  | _ => none

/-- `MODE_MAP`. -/
def modeMap (mode : String) : Option Modality :=
  match mode with
  | "online" => some .online
  | "blended" => some .blended
  | "f2f" => some .f2f
  | "rotation" => some .blended
  | _ => none

/-! ### Times and meetings -/

/-- `[A-Z]`. -/
def isCapital (c : Char) : Bool := decide ('A' ≤ c ∧ c ≤ 'Z')

/-- `[0-9: APM]`. -/
def isTimeChar (c : Char) : Bool :=
  decide ('0' ≤ c ∧ c ≤ '9') || c == ':' || c == ' ' || c == 'A' || c == 'P' || c == 'M'

/-- `[A-Za-z0-9\-]`. -/
def isRoomChar (c : Char) : Bool :=
  isCapital c || decide ('a' ≤ c ∧ c ≤ 'z') || decide ('0' ≤ c ∧ c ≤ '9') || c == '-'

/-- `MEET_RE`: a day, a slot in brackets, and a room or nothing. -/
def meetRe : Pattern :=
  .all [.group (.seq (.char isCapital) (.opt (.char isCapital))), .many Py.isSpace, .lit '[',
    .group (.plus isTimeChar), .lit '-', .group (.plus isTimeChar), .lit ']', .many Py.isSpace,
    .group (.many isRoomChar)]

/-- `(\d{1,2}):(\d{2})([AP])M?$`, in either case. -/
def timeRe (tables : TextTables) : Pattern :=
  let digit : Char → Bool := fun c => (tables.digit c).isSome
  .all [.group (.seq (.char digit) (.opt (.char digit))), .lit ':',
    .group (.seq (.char digit) (.char digit)),
    .group (.char fun c => c == 'A' || c == 'P' || c == 'a' || c == 'p'),
    .opt (.char fun c => c == 'M' || c == 'm'), .stop]

/-- The number that digits write. -/
def TextTables.number (tables : TextTables) (digits : List Char) : ℕ :=
  digits.foldl (fun n c => 10 * n + (tables.digit c).getD 0) 0

theorem lt_dayLength_of_le {h m : ℕ} (hle : h ≤ 23 ∧ m ≤ 59) :
    ((h * 60 + m) * 60000000 : ℕ) < dayLength := by
  rw [dayLength]
  omega

/-- `time(hh, mm)`, if there is such a time. -/
def timeOf (h m : ℕ) : Option TimeOfDay :=
  if hle : h ≤ 23 ∧ m ≤ 59 then some (.ofHM h m (lt_dayLength_of_le hle)) else none

/-- The hour on a clock of twenty-four hours. -/
def hourOf (h : ℕ) (afternoon : Bool) : ℕ :=
  if afternoon && h != 12 then h + 12 else if !afternoon && h == 12 then 0 else h

/-- `parse_time`. -/
def parseTime (tables : TextTables) (raw : List Char) : Option TimeOfDay :=
  -- `.strip().replace(" ", "")`: blanks inside go too, other white space does not
  let t := (Py.strip (String.ofList raw)).toList.filter fun c => c != ' '
  match (timeRe tables).matchStart t with
  | some ⟨[hh, mm, ap], _⟩ =>
    timeOf (hourOf (tables.number hh) (ap == ['P'] || ap == ['p'])) (tables.number mm)
  | _ => none

/-- `MeetingParse`. -/
structure MeetingParse where
  day : Option ℕ
  start : Option TimeOfDay
  finish : Option TimeOfDay
  roomRaw : String
  deriving DecidableEq

/-- The meeting that a part of a schedule cell gives. -/
def parsePart (tables : TextTables) (part : String) : Option MeetingParse :=
  match meetRe.search part.toList with
  | some ⟨[day, start, finish, room], _⟩ =>
    some ⟨dayMap (String.ofList day), parseTime tables start, parseTime tables finish,
      Py.strip (String.ofList room)⟩
  | _ => none

/-- `parse_meetings`: the parts that the pattern does not match are passed over. -/
def parseMeetings (tables : TextTables) (schedule : String) : List MeetingParse :=
  (Py.split ',' schedule).filterMap (parsePart tables)

/-! ### Rooms, modalities and names -/

/-- `RoomInfo`. -/
structure RoomInfo where
  rawCode : String
  codePrefix : String
  building : BuildingRef
  floor : ℤ
  isVirtual : Bool
  isUnassigned : Bool
  isTypo : Bool
  scannable : Bool
  deriving DecidableEq

/-- `derive_floor`: the first digit after the leading letters. -/
def deriveFloor (tables : TextTables) (code : String) : ℤ :=
  let c := (tables.upper (Py.strip code)).toList
  if "GYM".toList.isPrefixOf c then 1
  else (((c.dropWhile isCapital).head?.bind tables.digit).map Int.ofNat).getD 0

/-- `classify_room`. -/
def classifyRoom (tables : TextTables) (code : String) : RoomInfo :=
  let c := Py.strip code
  let cu := tables.upper c
  let floor := deriveFloor tables cu
  if "GYM".toList.isPrefixOf cu.toList then
    ⟨c, "GYM", ⟨"GYM", "Gym"⟩, floor, false, false, false, true⟩
  else
    match cu.toList.head? with
    -- only virtual rooms are not scannable
    | some 'V' => ⟨c, "V", ⟨"ONLINE", "Online (virtual)"⟩, floor, true, false, false, false⟩
    | some 'R' => ⟨c, "R", ⟨"ACAD", "Academic Building"⟩, floor, false, false, false, true⟩
    | some 'A' => ⟨c, "A", ⟨"ADMIN", "Admin Building"⟩, floor, false, false, false, true⟩
    -- digits first is a typo, another letter is a building nobody knows
    | first =>
      ⟨c, String.ofList (cu.toList.takeWhile isCapital), unassignedBuilding, floor, false, true,
        !first.any tables.isAlpha, true⟩

/-- `modality_for_room`. -/
def modalityForRoom (tables : TextTables) (room : Option RoomInfo) (courseMode : String) : Modality :=
  if room.any RoomInfo.isVirtual then .online
  else (modeMap (tables.lower (Py.strip courseMode))).getD .f2f

/-- `normalize_name_key`. -/
def normalizeNameKey (tables : TextTables) (name : String) : String :=
  -- a token of one letter is a middle initial and does not count
  let cleaned := (tables.upper name).toList.map fun c => if c == ',' || c == '.' then ' ' else c
  Py.join " " ((Py.words (String.ofList cleaned)).filter fun w => decide (1 < w.length))

/-! ### Rows -/

/-- `header -> index`: of equal headers the last one counts. -/
def columns (header : List String) (name : String) : Option ℕ :=
  (header.zipIdx.filter fun p => Py.strip p.1 == name).getLast?.map Prod.snd

/-- `_row_cell`: a missing cell is blank. -/
def rowCell (row : List String) (col : String → Option ℕ) (name : String) : String :=
  (col name).elim "" fun i => Py.strip ((row[i]?).getD "")

/-- `_is_real_room`: a room token, unless it is the row's section and no known room. -/
def isRealRoom (tables : TextTables) (roomRaw sec : String) : Bool :=
  if roomRaw = "" then false
  else !(tables.upper (Py.strip roomRaw) == tables.upper (Py.strip sec) &&
    (classifyRoom tables roomRaw).isUnassigned)

/-- The meeting has a weekday and a slot: what both readers of a row ask first. -/
def MeetingParse.slot? (m : MeetingParse) : Option (ℕ × TimeOfDay × TimeOfDay) :=
  match m.day, m.start, m.finish with
  | some d, some s, some e => if s = e then none else some (d, s, e)
  | _, _, _ => none

/-! ### Reconciliation -/

/-- `Reconciliation`. -/
structure Reconciliation where
  totalRows : ℕ
  noSchedule : ℕ
  intactRows : ℕ
  roomlessTbaRows : ℕ
  onlineNoRoomRows : ℕ
  totalMeetings : ℕ
  flaggedUnassigned : List String
  flaggedTypo : List String
  distinctRooms : ℕ
  distinctInstructors : ℕ
  emaillessInstructorKeys : List String
  deriving DecidableEq

/-- The accumulators of `reconcile`. -/
structure ReconcileAcc where
  noSchedule : ℕ
  intact : ℕ
  roomless : ℕ
  online : ℕ
  totalMeetings : ℕ
  flaggedUnassigned : List String
  flaggedTypo : List String
  distinctRooms : List String
  emailKeys : List String
  nameEmail : List (String × Bool)

/-- The accumulators before the loop. -/
def ReconcileAcc.zero : ReconcileAcc := ⟨0, 0, 0, 0, 0, [], [], [], [], []⟩

/-- The instructor of a row is noted by e-mail, else by name. -/
def ReconcileAcc.addInstructor (tables : TextTables) (acc : ReconcileAcc) (name email : String) :
    ReconcileAcc :=
  let nk := normalizeNameKey tables name
  if email ≠ "" then
    { acc with
      emailKeys := acc.emailKeys.insert (tables.lower email)
      -- `name_email[nk] = True`, whatever it was
      nameEmail :=
        if nk ≠ "" then (nk, true) :: acc.nameEmail.filter fun e => e.1 != nk else acc.nameEmail }
  else if nk ≠ "" then
    { acc with
      nameEmail :=
        -- `setdefault`: a name that ever had an address keeps it
        if acc.nameEmail.any fun e => e.1 == nk then acc.nameEmail else (nk, false) :: acc.nameEmail }
  else acc

/-- The room of a meeting is noted, and flagged if no building is known for it. -/
def ReconcileAcc.addRoom (tables : TextTables) (acc : ReconcileAcc) (roomRaw : String) :
    ReconcileAcc :=
  let info := classifyRoom tables roomRaw
  let code := tables.upper (Py.strip roomRaw)
  { acc with
    distinctRooms := acc.distinctRooms.insert code
    flaggedTypo := if info.isTypo then acc.flaggedTypo.insert code else acc.flaggedTypo
    flaggedUnassigned :=
      if !info.isTypo && info.isUnassigned then acc.flaggedUnassigned.insert code
      else acc.flaggedUnassigned }

/-- The meetings of a row that have a slot and a real room. -/
def realMeetings (tables : TextTables) (schedule sec : String) : List MeetingParse :=
  (parseMeetings tables schedule).filter fun m =>
    m.slot?.isSome && isRealRoom tables m.roomRaw sec

/-- One round of the loop of `reconcile`. -/
def ReconcileAcc.addRow (tables : TextTables) (col : String → Option ℕ) (acc : ReconcileAcc)
    (row : List String) : ReconcileAcc :=
  -- instructors are counted on every row, also without a schedule
  let acc := acc.addInstructor tables (rowCell row col "Instructor") (rowCell row col "Email")
  let schedule := rowCell row col "Schedule"
  if schedule = "" then { acc with noSchedule := acc.noSchedule + 1 }
  else
    let mode := tables.lower (rowCell row col "Mode")
    -- meetings without a slot or a real room are neither counted nor flagged
    let real := realMeetings tables schedule (rowCell row col "Sec")
    let acc := real.foldl (fun acc m => acc.addRoom tables m.roomRaw) acc
    let acc := { acc with totalMeetings := acc.totalMeetings + real.length }
    if real ≠ [] then { acc with intact := acc.intact + 1 }
    else if mode = "online" then { acc with online := acc.online + 1 }
    else { acc with roomless := acc.roomless + 1 }

/-- `sorted`. -/
def sortedTexts (l : List String) : List String := l.insertionSort fun a b => a ≤ b

/-- `reconcile`. -/
def reconcile (tables : TextTables) (rows : List (List String)) (col : String → Option ℕ) :
    Reconciliation :=
  let acc := rows.foldl (ReconcileAcc.addRow tables col) .zero
  let emailless := sortedTexts ((acc.nameEmail.filter fun e => !e.2).map Prod.fst)
  { totalRows := rows.length
    noSchedule := acc.noSchedule
    intactRows := acc.intact
    roomlessTbaRows := acc.roomless
    onlineNoRoomRows := acc.online
    totalMeetings := acc.totalMeetings
    flaggedUnassigned := sortedTexts acc.flaggedUnassigned
    flaggedTypo := sortedTexts acc.flaggedTypo
    distinctRooms := acc.distinctRooms.length
    distinctInstructors := acc.emailKeys.length + emailless.length
    emaillessInstructorKeys := emailless }

end FluxTrack
