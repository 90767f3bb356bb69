import FluxTrack.Db

/-!
# Importing course offerings

`handle` of `scheduling/management/commands/import_offerings.py` from the resolution of the
term on. The rows of the grid arrive as they are planned: with the cells that are written and
the meetings with their rooms, as `parse_meetings`, `classify_room` and `modality_for_room`
make them out; planning reads nothing of the database.

## Main definitions

* `PlannedMeeting`, `PlannedRow` — the grid as it is planned
* `facultyFor`, `roomFor`, `getOrCreateSchedule` — the rows found or created
* `importOfferings` — the command
-/

namespace FluxTrack

open Calendar Relational Process

/-- A meeting of a row with its room, as `classify_room` makes it out. The token and the code
are those drawn should the room be new. -/
structure PlannedMeeting where
  day : ℕ
  startTime : TimeOfDay
  endTime : TimeOfDay
  modality : Modality
  roomCode : String
  buildingCode : String
  buildingName : String
  floor : ℤ
  qrToken : String
  manualCode : String
  deriving DecidableEq

/-- A row with a plan: its cells, the key of the instructor's name, and the user name and the
names that a new user is given. -/
structure PlannedRow where
  email : String
  nameKey : String
  username : String
  firstName : String
  lastName : String
  courseCode : String
  sectionName : String
  enrolled : ℕ
  meetings : List PlannedMeeting
  deriving DecidableEq

/-- What `--term` gives: blank, a primary key or a name. -/
inductive TermLookup
  | blank
  | pk (n : ℕ)
  | name (text : String)
  deriving DecidableEq

/-- `_resolve_term`. -/
def resolveTerm (lookup : TermLookup) : M AcademicTerm :=
  match lookup with
  | .blank => .raise (.command .termRequired)
  | lookup => do
    match ← Prog.select fun db =>
        match lookup with
        | .pk n => db.terms.table.get? n
        | .name text => db.terms.table.rows.find? fun t => t.name == text
        | .blank => none with
    | none => .raise (.command .termNotFound)
    | some term =>
      if term.status = .archived then .raise (.command .termArchived) else pure term

/-! ### Rows found or created -/

/-- `get_or_create`: the only row that is found, or a new one. -/
def getOrCreate {α : Type} [Keyed α] (find : Db → List α) (create : M ℕ) : M ℕ := do
  match ← Prog.select find with
  | [] => create
  | [row] => pure (key row)
  | _ => .raise .multipleObjects

/-- A new user, under a user name that nobody has, and with its names. -/
def createUser (row : PlannedRow) : M ℕ := do
  if ← Prog.select fun db => db.users.rows.any fun u => u.username == row.username then
    .raise .integrity
  else do
    let pk ← Prog.modifyGet (fun db => db.users.nextKey) fun db =>
      { db with
        users := db.users.insert fun pk =>
          ⟨pk, "", "", .faculty, none, true, false, row.username, row.email⟩ }
    Prog.modify fun db =>
      { db with
        users := db.users.update (fun u => u.id == pk)
          (fun u => { u with firstName := row.firstName, lastName := row.lastName }) }
    pure pk

/-- `_faculty`, with the cache of the run from name keys to users. -/
def facultyFor (row : PlannedRow) (cache : List (String × ℕ)) : M (ℕ × List (String × ℕ)) :=
  if row.email ≠ "" then do
    let pk ← getOrCreate (fun db => db.users.rows.filter fun u => u.email == row.email)
      (createUser row)
    pure (pk, cache)
  else
    match cache.find? fun e => e.1 == row.nameKey with
    | some e => pure (e.2, cache)
    | none => do
      let pk ← getOrCreate (fun db => db.users.rows.filter fun u => u.username == row.username)
        (createUser row)
      pure (pk, (row.nameKey, pk) :: cache)

/-- `_room_for`. -/
def roomFor (m : PlannedMeeting) : M ℕ := do
  let building ← getOrCreate (fun db => db.buildings.rows.filter fun b => b.code == m.buildingCode)
    (Prog.modifyGet (fun db => db.buildings.nextKey) fun db =>
      { db with buildings := db.buildings.insert fun pk => ⟨pk, m.buildingCode, m.buildingName⟩ })
  let floor ← getOrCreate
    (fun db => db.floors.rows.filter fun f => f.building == building && f.number == m.floor)
    (Prog.modifyGet (fun db => db.floors.nextKey) fun db =>
      { db with floors := db.floors.insert fun pk => ⟨pk, building, m.floor⟩ })
  getOrCreate (fun db => db.rooms.rows.filter fun r => r.code == m.roomCode)
    (Prog.modifyGet (fun db => db.rooms.nextKey) fun db =>
      { db with
        rooms := db.rooms.insert fun pk =>
          ⟨pk, floor, m.roomCode, m.qrToken, m.manualCode, false, ""⟩ })

/-- `Schedule.objects.get_or_create`. -/
def getOrCreateSchedule (term faculty room : ℕ) (row : PlannedRow) (m : PlannedMeeting) : M ℕ :=
  getOrCreate
    (fun db => db.schedules.rows.filter fun s =>
      s.term == term && s.courseCode == row.courseCode && s.sectionName == row.sectionName &&
        s.dayOfWeek == m.day && s.room == room && s.startTime == m.startTime)
    (Prog.modifyGet (fun db => db.schedules.nextKey) fun db =>
      { db with
        schedules := db.schedules.insert fun pk =>
          ⟨pk, term, row.courseCode, row.sectionName, row.enrolled, faculty, room, m.day,
            m.startTime, m.endTime, m.modality, .active⟩ })

/-! ### The command -/

/-- One meeting of a row. -/
def importMeeting (term faculty : ℕ) (row : PlannedRow) (m : PlannedMeeting) : M Unit := do
  let room ← roomFor m
  let _ ← getOrCreateSchedule term faculty room row m

/-- The rows of the grid, one after another. -/
def importRows (term : ℕ) : List PlannedRow → List (String × ℕ) → M Unit
  | [], _ => pure ()
  | row :: rest, cache => do
    let (faculty, cache) ← facultyFor row cache
    Prog.forEach row.meetings (importMeeting term faculty row)
    importRows term rest cache

/-- `import_offerings`; a dry run writes nothing. -/
def importOfferings (lookup : TermLookup) (rows : List PlannedRow) (dryRun : Bool) : M Unit := do
  let term ← resolveTerm lookup
  if dryRun then pure ()
  else Prog.atomic (importRows term.id rows [])

end FluxTrack
