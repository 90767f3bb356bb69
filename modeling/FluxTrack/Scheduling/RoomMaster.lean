import FluxTrack.Web.CampusStructure

/-!
# The room master

The command `load_room_master`: the rooms of the registrar's workbook, one tab a room, with their
names and capacities. A room that is there has its name and its capacity refreshed and is else left
alone.

## Main definitions

* `isRoomTab`, `masterRoom`, `parseMaster` — the tabs that are rooms
* `refresh`, `loadRoom` — one room
* `loadRoomMaster` — the command
-/

namespace FluxTrack

open Relational

/-- What the command reads off the interpreter. -/
structure MasterTexts extends CampusTexts where
  /-- `int(float(s))`, which may raise -/
  truncFloat : String → Except Err ℤ

/-- A tab of the workbook: its name and its cells. -/
abbrev MasterTab := String × List (List String)

/-- A room that has been parsed. -/
structure MasterRoom where
  code : String
  name : String
  capacity : ℤ
  info : RoomInfo

/-- What the command reports. -/
structure MasterReport where
  parsed : ℕ
  created : ℕ
  updated : ℕ
  perBuilding : Dict String ℕ
  skipped : List String
  unassigned : List String

/-! ### Parsing -/

/-- `is_room_tab` -/
def isRoomTab (tables : TextTables) (tab : String) : Bool :=
  let info := classifyRoom tables tab
  !info.isUnassigned || (info.isTypo || decide (0 < info.floor))

/-- `_cell` -/
def masterCell (grid : List (List String)) (row col : ℕ) : String :=
  (grid[row]?.bind fun cells => cells[col]?).getD ""

/-- `_parse_capacity` -/
def parseCapacity (texts : MasterTexts) (raw : String) : Except Err ℤ :=
  let s := Py.strip raw
  if s = "" then .ok 0
  else match texts.truncFloat s with
    | .error .value => .ok 0
    | result => result

/-- The room of a tab: its code is the name of the tab. -/
def masterRoom (texts : MasterTexts) (tab : MasterTab) : Except Err MasterRoom := do
  let code := Py.strip tab.1
  let name := Py.strip (masterCell tab.2 3 2)
  let capacity ← parseCapacity texts (masterCell tab.2 3 14)
  pure ⟨code, name, capacity, classifyRoom texts.toTextTables code⟩

/-- The tabs that are rooms, parsed before anything is written. -/
def parseMaster (texts : MasterTexts) (tabs : List MasterTab) : Except Err (List MasterRoom) :=
  (tabs.filter fun tab => isRoomTab texts.toTextTables tab.1).mapM (masterRoom texts)

/-- The five buildings that there always are: the values of `PREFIX_BUILDING`, and
`UNASSIGNED_BUILDING`. -/
def masterBuildings : List BuildingRef :=
  [⟨"ACAD", "Academic Building"⟩, ⟨"ADMIN", "Admin Building"⟩, ⟨"GYM", "Gym"⟩,
    ⟨"ONLINE", "Online (virtual)"⟩, unassignedBuilding]

/-! ### Loading -/

/-- The metadata of a room from the master: what is blank there stays. -/
def refresh (d : RoomDetails) (room : MasterRoom) : RoomDetails :=
  { d with
    name := if room.name = "" then d.name else room.name
    capacity := if room.capacity = 0 then d.capacity else room.capacity.toNat }

/-- The columns take the values that would be written. -/
def MasterRoom.columns (room : MasterRoom) (name capacity : Bool) : Option Err :=
  if name && decide (120 < room.name.length) then some .data
  else if capacity && decide ((maxInteger : ℤ) < room.capacity) then some .data
  else if capacity && decide (room.capacity < 0) then some .integrity
  else none

/-- The credentials that are drawn for a row. -/
abbrev Drawn := String × List (Fin manualCodeSpace)

theorem Floor.key_new (building : ℕ) (number : ℤ) (pk : ℕ) :
    key (⟨pk, building, number⟩ : Floor) = pk := rfl

namespace CampusConsole

variable (c : CampusConsole) (texts : CampusTexts)

/-- `Building.objects.get_or_create(code=...)` -/
def ensureBuilding (b : BuildingRef) : ℕ × CampusConsole :=
  match c.db.buildings.rows.find? fun x => texts.collate x.code == texts.collate b.code with
  | some x => (x.id, c)
  | none => (c.db.buildings.nextKey, { c with
      db := { c.db with buildings := c.db.buildings.insert fun pk => ⟨pk, b.code, b.name⟩ } })

/-- `Floor.objects.get_or_create(building=..., number=...)` -/
def ensureFloor (building : ℕ) (number : ℤ) : ℕ × CampusConsole :=
  match c.db.floors.rows.find? fun x => x.building == building && x.number == number with
  | some x => (x.id, c)
  | none => (c.db.floors.nextKey, { c with
      db := { c.db with
        floors := c.db.floors.insert (fun pk => ⟨pk, building, number⟩)
          (Floor.key_new building number) } })

/-- `Room.objects.get_or_create(code=...)` on a floor, and the refresh of a room that was there:
whether it was not, and the console after it. The credentials are minted in either case. -/
def storeRoom (floor : ℕ) (room : MasterRoom) (drawn : Drawn) :
    Except CampusReply (Bool × CampusConsole) :=
  match generateManualCode c.db drawn.2 with
  | none => .error .exhausted
  | some manual =>
    match c.roomByCode texts room.code with
    | none =>
      if 30 < room.code.length then .error (.failed .data)
      else
        match room.columns true true with
        | some e => .error (.failed e)
        | none =>
          match c.createRoom texts room.code room.name floor room.capacity.toNat drawn.1 manual with
          | .error e => .error (.failed e)
          | .ok (_, c) => .ok (true, c)
    | some r =>
      let d := c.detailsOf r.id
      let name := room.name != "" && d.name != room.name
      let capacity := room.capacity != 0 && (d.capacity : ℤ) != room.capacity
      match room.columns name capacity with
      | some e => .error (.failed e)
      | none =>
        .ok (false,
          if name || capacity then { c with details := c.details.insert r.id (refresh d room) } else c)

/-- One room of the master: its building, its floor and itself. -/
def loadRoom (room : MasterRoom) (drawn : Drawn) : Except CampusReply (Bool × CampusConsole) :=
  let building := c.ensureBuilding texts room.info.building
  let floor := building.2.ensureFloor building.1 room.info.floor
  floor.2.storeRoom texts floor.1 room drawn

/-- The rooms in turn, with the numbers of those created and of those updated. -/
def loadRooms : CampusConsole → List (MasterRoom × Drawn) →
    Except CampusReply ((ℕ × ℕ) × CampusConsole)
  | c, [] => .ok ((0, 0), c)
  | c, (room, drawn) :: rest =>
    match c.loadRoom texts room drawn with
    | .error e => .error e
    | .ok (isNew, c) =>
      match loadRooms c rest with
      | .error e => .error e
      | .ok (counts, c) =>
        .ok (if isNew then (counts.1 + 1, counts.2) else (counts.1, counts.2 + 1), c)

end CampusConsole

/-- The rooms of each building: `_preview_buildings`, and the counts of a load. -/
def countBuildings (rooms : List MasterRoom) : Dict String ℕ :=
  Dict.collect (fun room => room.info.building.code) (fun _ => 1) (fun n _ => n + 1) ∅ rooms

/-- `load_room_master`, with the credentials that are drawn for each row. -/
def loadRoomMaster (texts : MasterTexts) (tabs : List MasterTab) (dryRun : Bool) (mint : ℕ → Drawn)
    (c : CampusConsole) : Except CampusReply MasterReport × CampusConsole :=
  match parseMaster texts tabs with
  | .error e => (.error (.failed e), c)
  | .ok rooms =>
    let report : MasterReport :=
      { parsed := rooms.length, created := 0, updated := 0, perBuilding := countBuildings rooms
        skipped := (tabs.map Prod.fst).filter fun tab => !isRoomTab texts.toTextTables tab
        unassigned := ((rooms.filter fun room => room.info.isUnassigned).map
          MasterRoom.code).mergeSort fun a b => decide (a ≤ b) }
    if dryRun then (.ok report, c)
    else
      let c₀ := masterBuildings.foldl (fun c b => (c.ensureBuilding texts.toCampusTexts b).2) c
      match c₀.loadRooms texts.toCampusTexts (rooms.zipIdx.map fun p => (p.1, mint p.2)) with
      | .error e => (.error e, c)
      | .ok (counts, c') => (.ok { report with created := counts.1, updated := counts.2 }, c')

end FluxTrack
