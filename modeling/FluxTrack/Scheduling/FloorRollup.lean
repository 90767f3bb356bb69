import FluxTrack.Data.Grouping
import FluxTrack.Scheduling.RoomBreakdown
import Mathlib.Data.String.Basic

/-!
# Utilization by building and floor

`building_floor_rollup` of `scheduling/reporting.py`: the rows of the room breakdown are added up
in one pass, by building and within a building by floor, and listed building by building.

## Main definitions

* `ScopeTotals`, `BuildingScope` — what the pass adds up
* `Db.rollupRows` — the rows before their figures are rounded
* `Db.buildingFloorRollup` — the rows as published
-/

namespace FluxTrack

open Relational

/-- The counters of a scope. -/
@[ext]
structure ScopeTotals where
  rooms : ℕ
  used : ℤ
  booked : ℤ
  wasted : ℤ
  deriving DecidableEq

namespace ScopeTotals

/-- The counters of a new scope. -/
def zero : ScopeTotals := ⟨0, 0, 0, 0⟩

/-- Count a room. -/
def add (t : ScopeTotals) (room : RoomLoad) : ScopeTotals where
  rooms := t.rooms + 1
  used := t.used + room.usedSeconds
  booked := t.booked + room.bookedSeconds
  wasted := t.wasted + room.wastedSeconds

end ScopeTotals

/-- An entry of `buildings`. -/
structure BuildingScope where
  name : String
  totals : ScopeTotals
  floors : Dict ℤ ScopeTotals

/-- The entry of a building before its first room is counted. -/
def BuildingScope.empty (room : RoomLoad) : BuildingScope := ⟨room.buildingName, .zero, ∅⟩

/-- Count a room in its building and on its floor. -/
def BuildingScope.add (b : BuildingScope) (room : RoomLoad) : BuildingScope :=
  { b with
    totals := b.totals.add room
    floors := b.floors.update room.floorNumber .zero fun f => f.add room }

/-- `buildings` after the loop. -/
def rollUp (rooms : List RoomLoad) : Dict String BuildingScope :=
  (∅ : Dict String BuildingScope).collect RoomLoad.buildingCode .empty .add rooms

/-- `level`. -/
inductive ScopeLevel
  | building
  | floor
  deriving DecidableEq

/-- The arguments of `_row`. -/
structure ScopeRow where
  level : ScopeLevel
  label : String
  buildingCode : String
  floorNumber : Option ℤ
  totals : ScopeTotals
  deriving DecidableEq

/-- `ScopeLoad`. -/
structure ScopeLoad where
  level : ScopeLevel
  label : String
  buildingCode : String
  floorNumber : Option ℤ
  roomCount : ℕ
  usedHours : ℚ
  bookedHours : ℚ
  availableHours : ℚ
  wastedHours : ℚ
  utilizationPct : ℤ
  deriving DecidableEq

namespace ScopeRow

/-- The row of a building. -/
def ofBuilding (code : String) (b : BuildingScope) : ScopeRow :=
  ⟨.building, if b.name = "" then code else b.name, code, none, b.totals⟩

/-- The row of a floor. -/
def ofFloor (code : String) (floor : ℤ × ScopeTotals) : ScopeRow :=
  let number := floor.1
  ⟨.floor, s!"{code} floor {number}", code, some number, floor.2⟩

/-- `_row`. -/
def load (perRoomSeconds : ℤ) (row : ScopeRow) : ScopeLoad :=
  let available := row.totals.rooms * perRoomSeconds
  { level := row.level
    label := row.label
    buildingCode := row.buildingCode
    floorNumber := row.floorNumber
    roomCount := row.totals.rooms
    usedHours := hours row.totals.used
    bookedHours := hours row.totals.booked
    availableHours := hours available
    wastedHours := hours row.totals.wasted
    utilizationPct := hoursPct row.totals.used available }

end ScopeRow

/-- The rows of the buildings, each with those of its floors behind it. -/
def scopeRows (buildings : Dict String BuildingScope) : List ScopeRow :=
  buildings.sortedItems.flatMap fun entry =>
    .ofBuilding entry.1 entry.2 :: entry.2.floors.sortedItems.map (.ofFloor entry.1)

namespace Db

/-- The rows before their figures are rounded. -/
def rollupRows (db : Db) (scope : ReportScope) : List ScopeRow :=
  scopeRows (rollUp (db.roomBreakdown scope))

/-- `building_floor_rollup`. -/
def buildingFloorRollup (db : Db) (scope : ReportScope) : List ScopeLoad :=
  (db.rollupRows scope).map (ScopeRow.load (db.rangeCellShape scope).cellSeconds)

end Db

end FluxTrack
