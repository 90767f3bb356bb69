import FluxTrack.Scheduling.RoomReporting

/-!
# The live state of a room

`web/room_state.py`, shared by the room board of the IFO office and the floor monitor of the
guards: which sessions use a room, and the tile of a room at an instant.

## Main definitions

* `Db.occupies` — the session uses the room
* `RoomState`, `roomTile` — the tile of a room
-/

namespace FluxTrack

open Calendar Relational

/-- `occupies`: an online class uses a virtual room only. -/
def Db.occupies (db : Db) (s : Session) (room : Room) : Bool :=
  room.isVirtual || db.effectiveModality s != .online

/-- The states of a tile. -/
inductive RoomState
  | absent | starting | inSession | free | idle
  deriving DecidableEq, Repr

/-- The tile of a room. -/
structure RoomTile where
  room : Room
  session : Option Session
  next : Option Session
  count : ℕ
  state : RoomState
  deriving DecidableEq

/-- The state that the current session of a room gives its tile. -/
def tileState (current : Session) (now grace : ℤ) : RoomState :=
  match current.status with
  | .active => .inSession
  | .absent => .absent
  | .completed => .free
  | _ => if current.scheduledStart + grace < now then .absent else .starting

/-- `room_tile`, for the sessions of the room on the day by start. -/
def Db.roomTile (db : Db) (room : Room) (sessions : List Session) (now grace : ℤ) : RoomTile :=
  let sessions := sessions.filter fun s => db.occupies s room
  let current := sessions.find? fun s =>
    decide (s.scheduledStart ≤ now) && decide (now < s.scheduledEnd)
  { room := room
    session := current
    next := (sessions.filter fun s => decide (now < s.scheduledStart)).head?
    count := sessions.length
    state :=
      match current with
      | some s => tileState s now grace
      | none => if sessions.isEmpty then .idle else .free }

end FluxTrack
