import FluxTrack.Scheduling.RoomReporting

/-!
# Utilization by room

`room_breakdown` of `scheduling/reporting.py`: one row for each physical room in service, with
the time of the sessions that were held there. The sessions are those of the campus card.

## Main definitions

* `BreakdownAcc` — the accumulators, by room
* `Db.roomBreakdown` — the rows, least used rooms first
-/

namespace FluxTrack

open Calendar Relational

/-- The accumulators of `room_breakdown`. -/
structure BreakdownAcc where
  used : Tally ℕ
  booked : Tally ℕ
  wasted : Tally ℕ
  sessions : Tally ℕ
  absents : Tally ℕ

/-- The accumulators before the loop. -/
def BreakdownAcc.zero : BreakdownAcc := ⟨.zero, .zero, .zero, .zero, .zero⟩

/-- One round of the loop of `room_breakdown`. -/
def BreakdownAcc.add (acc : BreakdownAcc) (s : Session) : BreakdownAcc :=
  let c := s.contribution
  -- a session that still runs is counted nowhere
  if c.inFlight then acc
  else
    { booked := acc.booked.post (s.room, c.booked)
      used := acc.used.post (s.room, c.used)
      sessions := acc.sessions.post (s.room, 1)
      absents := if s.status = .absent then acc.absents.post (s.room, 1) else acc.absents
      -- an absence wastes all of its slot, a held session what is left of it
      wasted :=
        if s.status = .absent then acc.wasted.post (s.room, c.booked)
        else if s.status.isHeld then acc.wasted.post (s.room, max 0 (c.booked - c.used))
        else acc.wasted }

/-- `RoomLoad`. -/
structure RoomLoad where
  roomId : ℕ
  code : String
  buildingCode : String
  buildingName : String
  floorNumber : ℤ
  usedHours : ℚ
  bookedHours : ℚ
  availableHours : ℚ
  wastedHours : ℚ
  utilizationPct : ℤ
  sessionCount : ℤ
  absentSessions : ℤ
  usedSeconds : ℤ
  bookedSeconds : ℤ
  wastedSeconds : ℤ
  deriving DecidableEq

instance : Inhabited Building := ⟨⟨0, "", ""⟩⟩

namespace Db

/-- `room.floor`. -/
def floorOf (db : Db) (r : Room) : Floor := (db.floors.get? r.floor).getD default

/-- `room.floor.building`. -/
def buildingRow (db : Db) (r : Room) : Building :=
  (db.buildings.get? (db.floorOf r).building).getD default

/-- The accumulators after the loop. -/
def breakdownAcc (db : Db) (scope : ReportScope) : BreakdownAcc :=
  (db.roomSessions scope).foldl BreakdownAcc.add .zero

/-- The row of a room. -/
def roomLoad (db : Db) (acc : BreakdownAcc) (availableSeconds : ℤ) (r : Room) : RoomLoad where
  roomId := r.id
  code := r.code
  buildingCode := (db.buildingRow r).code
  buildingName := (db.buildingRow r).name
  floorNumber := (db.floorOf r).number
  usedHours := hours (acc.used r.id)
  bookedHours := hours (acc.booked r.id)
  availableHours := hours availableSeconds
  wastedHours := hours (acc.wasted r.id)
  utilizationPct := hoursPct (acc.used r.id) availableSeconds
  sessionCount := acc.sessions r.id
  absentSessions := acc.absents r.id
  usedSeconds := acc.used r.id
  bookedSeconds := acc.booked r.id
  wastedSeconds := acc.wasted r.id

/-- `order_by("floor__building__code", "floor__number", "code")`. -/
def roomOrder (db : Db) (a b : Room) : Prop :=
  (db.buildingRow a).code < (db.buildingRow b).code ∨
    (db.buildingRow a).code = (db.buildingRow b).code ∧
      ((db.floorOf a).number < (db.floorOf b).number ∨
        (db.floorOf a).number = (db.floorOf b).number ∧ a.code ≤ b.code)

instance (db : Db) : DecidableRel db.roomOrder := fun a b =>
  inferInstanceAs (Decidable ((db.buildingRow a).code < (db.buildingRow b).code ∨ _ ∧ (_ ∨ _ ∧ _)))

/-- `room_breakdown`: the rooms in service, the least used first. -/
def roomBreakdown (db : Db) (scope : ReportScope) : List RoomLoad :=
  ((db.physicalRooms.insertionSort db.roomOrder).map
      (db.roomLoad (db.breakdownAcc scope) (db.rangeCellShape scope).cellSeconds)).insertionSort
    fun a b => a.utilizationPct < b.utilizationPct ∨
      a.utilizationPct = b.utilizationPct ∧ a.code ≤ b.code

end Db

end FluxTrack
