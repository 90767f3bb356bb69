import FluxTrack.Data.Grouping
import FluxTrack.Data.References
import FluxTrack.Db
import FluxTrack.Scheduling.Importing

/-!
# The structure of the campus

Buildings, floors and rooms as the facilities office edits them: `campus/services.py`,
`campus/codes.py`, and the views of `web/ifo.py` on rooms, buildings and floors. A room is created
with the credentials it is scanned by, a rotation replaces these, and what is referred to is not
deleted.

## Main definitions

* `CampusConsole` — the database, the columns of rooms that are not in its rows, the audit trail
* `roomDeleteBlockers`, `floorDeleteBlockers`, `buildingDeleteBlockers` — what forbids a delete
* `generateManualCode` — the six digits that are minted
* `roomNew`, `roomEdit`, `roomRotate`, `roomDelete`, `roomToggleService` — the views on rooms
* `buildingCreate`, `buildingEdit`, `buildingDelete`, `floorCreate`, `floorDelete`
-/

namespace FluxTrack

open Calendar Relational

/-! ### The store -/

/-- What the console reads off the interpreter, and the collation of the columns of codes: two codes
are the same where these texts are. -/
structure CampusTexts extends TextTables where
  /-- `int(s)` of any text -/
  integer : String → Option ℤ
  collate : String → String

/-- The columns of `Room` that are not in its row of the database. -/
structure RoomDetails where
  name : String
  capacity : ℕ
  codeRotatedAt : Option ℤ
  codeRotatedBy : Option ℕ
  deriving DecidableEq

/-- The relations that keep a room from being deleted. -/
inductive RoomRelation
  | schedules | sessions | bookings | validations | reservations
  deriving DecidableEq, Repr

/-- The relations that keep a floor or a building from being deleted. -/
inductive StructureRelation
  | floors | rooms
  deriving DecidableEq, Repr

/-- What an audit row about the campus records. -/
inductive CampusEvent
  /-- `room.created` -/
  | roomCreated (room : ℕ) (code name : String) (floor : ℕ) (floorLabel : String) (capacity : ℕ)
  /-- `room.updated`, with the values that have changed as they were -/
  | roomUpdated (room : ℕ) (code : String) (name : Option String) (capacity floor : Option ℕ)
  /-- `room.out_of_service` -/
  | roomOutOfService (room : ℕ) (code reason : String)
  /-- `room.in_service` -/
  | roomInService (room : ℕ) (code reason : String)
  /-- `room.code_rotated` -/
  | roomCodeRotated (room : ℕ) (code floor : String) (rotatedAt : ℤ)
  /-- `room.delete_refused` -/
  | roomDeleteRefused (room : ℕ) (code : String) (blockers : List (RoomRelation × ℕ))
      (protectedError : Bool)
  /-- `room.deleted` -/
  | roomDeleted (room : ℕ) (code floor : String)
  /-- `building.created` -/
  | buildingCreated (building : ℕ) (code name : String)
  /-- `building.updated` -/
  | buildingUpdated (building : ℕ) (code name : String)
  /-- `building.deleted` -/
  | buildingDeleted (building : ℕ) (code name : String)
  /-- `floor.created` -/
  | floorCreated (floor : ℕ) (building : String) (number : ℤ)
  /-- `floor.deleted` -/
  | floorDeleted (floor : ℕ) (building : String) (number : ℤ)
  deriving DecidableEq

/-- The database, the remaining columns of the rooms by their keys, and the audit trail with its
actors. -/
structure CampusConsole where
  db : Db
  details : Dict ℕ RoomDetails
  trail : List (ℕ × CampusEvent)

/-- Why a request is refused, with the message that is shown. -/
inductive CampusRefusal
  /-- "Enter a room code." -/
  | enterCode
  /-- "A room code is at most 30 characters." -/
  | longCode
  /-- "Room ... already exists." -/
  | roomExists (code : String)
  /-- "Select a floor." -/
  | selectFloor
  /-- "Capacity must be a whole number of seats (0 or more)." -/
  | capacity
  /-- "A room name is at most 120 characters." -/
  | longName
  /-- the page that names what blocks the delete -/
  | roomBlocked (blockers : List (RoomRelation × ℕ)) (byDatabase : Bool)
  /-- "A building code is required (for example, ACAD)." -/
  | buildingCode
  /-- "A building name is required." -/
  | buildingName
  /-- "A building with code ... already exists." -/
  | buildingExists (code : String)
  /-- "Code and name are both required. Not changed." -/
  | bothRequired
  /-- "Another building already uses code .... Not changed." -/
  | buildingTaken (code : String)
  /-- "... still has .... Remove those first." -/
  | buildingBlocked (code : String) (blockers : List (StructureRelation × ℕ))
  /-- "Enter a whole number for the floor." -/
  | wholeNumber
  /-- "... already has a floor ...." -/
  | floorExists (building : String) (number : ℤ)
  /-- "Floor ... still has ... room(s). Move or delete those first." -/
  | floorBlocked (number : ℤ) (rooms : ℕ)
  deriving DecidableEq

/-- The answer to a request: a redirect, a refusal, or an error page. -/
inductive CampusReply
  | done
  | refused (why : CampusRefusal)
  | notFound
  /-- `ManualCodeExhausted` -/
  | exhausted
  | failed (e : Err)
  deriving DecidableEq

/-! ### Blockers -/

section

variable (db : Db)

/-- The counts that are not zero. -/
def nonzero {κ : Type} (counts : List (κ × ℕ)) : List (κ × ℕ) := counts.filter fun p => p.2 != 0

/-- `room_delete_blockers` -/
def roomDeleteBlockers (room : ℕ) : List (RoomRelation × ℕ) :=
  nonzero
    [(.schedules, db.schedules.rows.countP fun s => s.room == room),
      (.sessions, db.sessions.rows.countP fun s => s.room == room),
      (.bookings, db.bookings.rows.countP fun b => b.room == room),
      (.validations, db.validations.rows.countP fun v => v.room == room),
      (.reservations, db.items.rows.countP fun i => i.assignedRoom == some room)]

/-- `floor_delete_blockers` -/
def floorDeleteBlockers (floor : ℕ) : List (StructureRelation × ℕ) :=
  nonzero [(.rooms, db.rooms.rows.countP fun r => r.floor == floor)]

/-- The floor of the room is in the building. -/
def roomIn (building : ℕ) (r : Room) : Bool :=
  db.floors.rows.any fun f => f.id == r.floor && f.building == building

/-- `building_delete_blockers` -/
def buildingDeleteBlockers (building : ℕ) : List (StructureRelation × ℕ) :=
  nonzero
    [(.floors, db.floors.rows.countP fun f => f.building == building),
      (.rooms, db.rooms.rows.countP (roomIn db building))]

/-! ### Deletes -/

/-- The flags of a room go with it. -/
def FlagTable.deleteRoom (t : FlagTable) (room : ℕ) : FlagTable where
  table := t.table.delete fun f => f.room == room
  oneOpen := t.oneOpen.sublist ((List.filter_sublist.filter _).map _)

/-- A row whose relation to the room protects it. -/
def protectsRoom (room : ℕ) : Bool :=
  db.schedules.rows.any (fun s => s.room == room) ||
    db.sessions.rows.any (fun s => s.room == room) ||
    db.bookings.rows.any (fun b => b.room == room) ||
    db.validations.rows.any fun v => v.room == room

/-- Items that prefer or have been assigned a room are left without it. -/
def vacate (room : ℕ) : Table ModalityShiftItem :=
  db.items.update (fun _ => true) fun i =>
    { i with
      preferredRoom := i.preferredRoom.filter fun r => r != room
      assignedRoom := i.assignedRoom.filter fun r => r != room }

/-- `room.delete()`: nothing where a row protects the room. -/
def deleteRoom (room : ℕ) : Option Db :=
  if protectsRoom db room then none
  else some { db with
    rooms := db.rooms.delete fun r => r.id == room
    items := vacate db room
    flags := db.flags.deleteRoom room }

/-- Postings lose the floors that are deleted. -/
def unpost (gone : ℕ → Bool) : Table Assignment :=
  db.assignments.update (fun _ => true) fun a =>
    { a with floors := a.floors.filter fun f => !gone f }

/-- `floor.delete()`: nothing where there is a room on it. -/
def deleteFloor (floor : ℕ) : Option Db :=
  if db.rooms.rows.any fun r => r.floor == floor then none
  else some { db with
    floors := db.floors.delete fun f => f.id == floor
    assignments := unpost db fun f => f == floor }

/-- `building.delete()`: nothing where there is a room in it. Its floors and its suspensions go
with it. -/
def deleteBuilding (building : ℕ) : Option Db :=
  if db.rooms.rows.any (roomIn db building) then none
  else some { db with
    buildings := db.buildings.delete fun b => b.id == building
    floors := db.floors.delete fun f => f.building == building
    suspensions := db.suspensions.delete fun s => s.building == some building
    assignments := unpost db fun f => db.floors.rows.any fun g =>
      g.id == f && g.building == building }

/-! ### Credentials -/

/-- `MANUAL_CODE_SPACE` -/
abbrev manualCodeSpace : ℕ := 1000000

/-- `MAX_ATTEMPTS` -/
def maxAttempts : ℕ := 10

/-- `f"{n:06d}"` -/
def sixDigits (n : Fin manualCodeSpace) : String :=
  let digits := Nat.toDigits 10 n
  String.ofList (List.replicate (6 - digits.length) '0' ++ digits)

/-- `generate_manual_code`, with the numbers that are drawn: the first that no room has. -/
def generateManualCode (draws : List (Fin manualCodeSpace)) : Option String :=
  ((draws.take maxAttempts).map sixDigits).find? fun code =>
    !db.rooms.rows.any fun r => r.manualCode == code

end

/-- `_deep_link`, the link on the poster of a room. -/
def deepLink (host : String) (r : Room) : String := "https://" ++ host ++ "/scan?t=" ++ r.qrToken

/-! ### Rooms -/

/-- The four fields that are posted for a room. -/
structure RoomFields where
  code : String
  name : String
  floor : String
  capacity : String

/-- The largest value of an integer column. -/
def maxInteger : ℕ := 2147483647

namespace CampusConsole

variable (c : CampusConsole) (texts : CampusTexts)

/-- `str(floor)` -/
def floorLabel (floor : ℕ) : String :=
  let f := (c.db.floors.get? floor).getD default
  (((c.db.buildings.get? f.building).map Building.code).getD "") ++ " F" ++ toString f.number

/-- The remaining columns of a room; those of a room that was made elsewhere have their defaults. -/
def detailsOf (room : ℕ) : RoomDetails := (c.details.lookup room).getD ⟨"", 0, none, none⟩

/-- `AuditLog.objects.create` -/
def log (user : ℕ) (event : CampusEvent) : CampusConsole :=
  { c with trail := c.trail ++ [(user, event)] }

/-- `get_object_or_404(Room, code=code)` -/
def roomByCode (code : String) : Option Room :=
  c.db.rooms.rows.find? fun r => texts.collate r.code == texts.collate code

/-- `_room_form_fields` -/
def roomFormFields (post : RoomFields) : RoomFields :=
  ⟨texts.upper (Py.strip post.code), Py.strip post.name, Py.strip post.floor,
    Py.strip post.capacity⟩

/-- `_room_field_errors` -/
def roomFieldErrors (fields : RoomFields) (editing : Bool) : Option CampusRefusal :=
  if !editing && fields.code == "" then some .enterCode
  else if !editing && decide (30 < fields.code.length) then some .longCode
  else if !editing && (c.roomByCode texts fields.code).isSome then some (.roomExists fields.code)
  else if !texts.isDigit fields.floor then some .selectFloor
  else if fields.capacity != "" && !texts.isDigit fields.capacity then some .capacity
  else if 120 < fields.name.length then some .longName
  else none

/-- The checks of the form, and the floor that is selected. -/
def checkedFloor (fields : RoomFields) (editing : Bool) : Except CampusReply Floor :=
  match c.roomFieldErrors texts fields editing with
  | some why => .error (.refused why)
  | none =>
    match texts.int fields.floor with
    -- a digit that is no number
    | none => .error (.failed .value)
    | some pk =>
      match c.db.floors.get? pk with
      | none => .error (.refused .selectFloor)
      | some floor => .ok floor

/-- `int(fields["capacity"] or 0)` -/
def capacityOf (fields : RoomFields) : Option ℕ :=
  if fields.capacity = "" then some 0 else texts.int fields.capacity

/-- Another room has the code, the token or the manual code. -/
def clashes (code qr manual : String) : Bool :=
  c.db.rooms.rows.any fun r => texts.collate r.code == texts.collate code || r.qrToken == qr ||
    r.manualCode == manual

/-- `Room.objects.create` -/
def createRoom (code name : String) (floor capacity : ℕ) (qr manual : String) :
    Except Err (ℕ × CampusConsole) :=
  let pk := c.db.rooms.nextKey
  if maxInteger < capacity then .error .data
  else if c.clashes texts code qr manual then .error .integrity
  else .ok (pk, { c with
    db := { c.db with rooms := c.db.rooms.insert fun pk => ⟨pk, floor, code, qr, manual, false, ""⟩ }
    details := c.details.insert pk ⟨name, capacity, none, none⟩ })

/-- `room_new` -/
def roomNew (user : ℕ) (post : RoomFields) (qr : String) (draws : List (Fin manualCodeSpace)) :
    CampusReply × CampusConsole :=
  let fields := roomFormFields texts post
  match c.checkedFloor texts fields false with
  | .error reply => (reply, c)
  | .ok floor =>
    match generateManualCode c.db draws with
    | none => (.exhausted, c)
    | some manual =>
      match capacityOf texts fields with
      | none => (.failed .value, c)
      | some capacity =>
        match c.createRoom texts fields.code fields.name floor.id capacity qr manual with
        | .error e => (.failed e, c)
        | .ok (pk, c) =>
          (.done, c.log user (.roomCreated pk fields.code fields.name floor.id
            (c.floorLabel floor.id) capacity))

/-- The previous value, if there is another now. -/
def ifChanged {α : Type} [DecidableEq α] (before now : α) : Option α :=
  if before = now then none else some before

/-- `room_edit` -/
def roomEdit (user : ℕ) (code : String) (post : RoomFields) : CampusReply × CampusConsole :=
  match c.roomByCode texts code with
  | none => (.notFound, c)
  | some room =>
    let fields := roomFormFields texts post
    match c.checkedFloor texts fields true with
    | .error reply => (reply, c)
    | .ok floor =>
      match capacityOf texts fields with
      | none => (.failed .value, c)
      | some capacity =>
        if maxInteger < capacity then (.failed .data, c)
        else
          let before := c.detailsOf room.id
          let c' : CampusConsole := { c with
            db := { c.db with
              rooms := c.db.rooms.update (fun r => r.id == room.id) fun r =>
                { r with floor := floor.id } }
            details := c.details.insert room.id
              { before with name := fields.name, capacity := capacity } }
          (.done, c'.log user (.roomUpdated room.id room.code (ifChanged before.name fields.name)
            (ifChanged before.capacity capacity) (ifChanged room.floor floor.id)))

/-- `room_toggle_service` -/
def roomToggleService (user : ℕ) (code reason : String) : CampusReply × CampusConsole :=
  match c.roomByCode texts code with
  | none => (.notFound, c)
  | some room =>
    let out := !room.outOfService
    let reason := if out then Py.truncate 200 (Py.strip reason) else ""
    let c' : CampusConsole := { c with
      db := { c.db with
        rooms := c.db.rooms.update (fun r => r.id == room.id) fun r =>
          { r with outOfService := out, outOfServiceReason := reason } } }
    (.done, c'.log user
      (if out then .roomOutOfService room.id room.code reason
      else .roomInService room.id room.code reason))

/-- `room_rotate` -/
def roomRotate (user : ℕ) (code qr : String) (draws : List (Fin manualCodeSpace)) (now : ℤ) :
    CampusReply × CampusConsole :=
  match c.roomByCode texts code with
  | none => (.notFound, c)
  | some room =>
    match generateManualCode c.db draws with
    | none => (.exhausted, c)
    | some manual =>
      -- the columns are unique, and the block is undone where they would not be
      if c.db.rooms.rows.any fun r => r.id != room.id && (r.qrToken == qr || r.manualCode == manual)
      then (.failed .integrity, c)
      else
        let c' : CampusConsole := { c with
          db := { c.db with
            rooms := c.db.rooms.update (fun r => r.id == room.id) fun r =>
              { r with qrToken := qr, manualCode := manual } }
          details := c.details.insert room.id
            { c.detailsOf room.id with codeRotatedAt := some now, codeRotatedBy := some user } }
        (.done, c'.log user (.roomCodeRotated room.id room.code (c.floorLabel room.floor) now))

/-- The refusal of a delete, which is audited too. -/
def refuseDelete (user : ℕ) (room : Room) (blockers : List (RoomRelation × ℕ))
    (byDatabase : Bool) : CampusReply × CampusConsole :=
  (.refused (.roomBlocked blockers byDatabase),
    c.log user (.roomDeleteRefused room.id room.code blockers byDatabase))

/-- `room_delete` -/
def roomDelete (user : ℕ) (code : String) : CampusReply × CampusConsole :=
  match c.roomByCode texts code with
  | none => (.notFound, c)
  | some room =>
    match roomDeleteBlockers c.db room.id with
    | [] =>
      match deleteRoom c.db room.id with
      -- a reference has appeared since; it is looked for again
      | none => c.refuseDelete user room (roomDeleteBlockers c.db room.id) true
      | some db =>
        let c' : CampusConsole := { c with db := db, details := c.details.erase room.id }
        (.done, c'.log user (.roomDeleted room.id room.code (c.floorLabel room.floor)))
    | blockers => c.refuseDelete user room blockers false

/-! ### Buildings and floors -/

/-- `_building_fields` -/
def buildingFields (code name : String) : String × String :=
  (texts.upper (Py.strip code), Py.strip name)

/-- Another building than `pk` has the code. -/
def buildingTaken (pk : Option ℕ) (code : String) : Bool :=
  c.db.buildings.rows.any fun b =>
    decide (some b.id ≠ pk) && texts.collate b.code == texts.collate code

/-- `building_create` -/
def buildingCreate (user : ℕ) (code name : String) : CampusReply × CampusConsole :=
  let (code, name) := buildingFields texts code name
  if code = "" then (.refused .buildingCode, c)
  else if name = "" then (.refused .buildingName, c)
  else if c.buildingTaken texts none code then (.refused (.buildingExists code), c)
  else
    -- the code that is stored may be shorter than the one looked for
    let (code, name) := (Py.truncate 20 code, Py.truncate 120 name)
    if c.buildingTaken texts none code then (.failed .integrity, c)
    else
      let pk := c.db.buildings.nextKey
      let c' : CampusConsole := { c with
        db := { c.db with buildings := c.db.buildings.insert fun pk => ⟨pk, code, name⟩ } }
      (.done, c'.log user (.buildingCreated pk code name))

/-- `building_edit` -/
def buildingEdit (user pk : ℕ) (code name : String) : CampusReply × CampusConsole :=
  match c.db.buildings.get? pk with
  | none => (.notFound, c)
  | some _ =>
    let (code, name) := buildingFields texts code name
    if code = "" ∨ name = "" then (.refused .bothRequired, c)
    else if c.buildingTaken texts (some pk) code then (.refused (.buildingTaken code), c)
    else
      let (code, name) := (Py.truncate 20 code, Py.truncate 120 name)
      if c.buildingTaken texts (some pk) code then (.failed .integrity, c)
      else
        let c' : CampusConsole := { c with
          db := { c.db with
            buildings := c.db.buildings.update (fun b => b.id == pk) fun b =>
              { b with code := code, name := name } } }
        (.done, c'.log user (.buildingUpdated pk code name))

/-- `building_delete` -/
def buildingDelete (user pk : ℕ) : CampusReply × CampusConsole :=
  match c.db.buildings.get? pk with
  | none => (.notFound, c)
  | some building =>
    match buildingDeleteBlockers c.db pk with
    | [] =>
      let c := c.log user (.buildingDeleted pk building.code building.name)
      match deleteBuilding c.db pk with
      | none => (.failed .protectedRows, c)
      | some db => (.done, { c with db := db })
    | blockers => (.refused (.buildingBlocked building.code blockers), c)

/-- `floor_create` -/
def floorCreate (user building : ℕ) (raw : String) : CampusReply × CampusConsole :=
  match c.db.buildings.get? building with
  | none => (.notFound, c)
  | some b =>
    match texts.integer (Py.strip raw) with
    | none => (.refused .wholeNumber, c)
    | some number =>
      if c.db.floors.rows.any fun f => f.building == building && f.number == number then
        (.refused (.floorExists b.code number), c)
      else if number < -maxInteger - 1 ∨ maxInteger < number then (.failed .data, c)
      else
        let pk := c.db.floors.nextKey
        let c' : CampusConsole := { c with
          db := { c.db with floors := c.db.floors.insert fun pk => ⟨pk, building, number⟩ } }
        (.done, c'.log user (.floorCreated pk b.code number))

/-- `floor_delete` -/
def floorDelete (user pk : ℕ) : CampusReply × CampusConsole :=
  match c.db.floors.get? pk with
  | none => (.notFound, c)
  | some floor =>
    let building := ((c.db.buildings.get? floor.building).map Building.code).getD ""
    match floorDeleteBlockers c.db pk with
    | [] =>
      let c := c.log user (.floorDeleted pk building floor.number)
      match deleteFloor c.db pk with
      | none => (.failed .protectedRows, c)
      | some db => (.done, { c with db := db })
    | blockers =>
      (.refused (.floorBlocked floor.number ((blockers.head?.map Prod.snd).getD 0)), c)

end CampusConsole

end FluxTrack
