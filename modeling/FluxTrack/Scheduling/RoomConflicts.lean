import FluxTrack.Scheduling.Jobs

/-!
# Room conflicts

`detect_room_conflicts` of `scheduling/jobs.py`: a room that two or more running sessions
hold is flagged once and the IFO office is told, and an open flag whose conflict has cleared
is resolved.

## Main definitions

* `Db.holdingSessions`, `Db.conflictingRooms` — the conflicts
* `detectRoomConflicts` — the job
-/

namespace FluxTrack

open Relational Process

/-- The running sessions of the term that hold a room. -/
def Db.holdingSessions (db : Db) (term : ℕ) : List Session :=
  db.sessions.rows.filter fun s =>
    s.status == .active && s.roomReleasedAt.isNone && db.inTerm term s

/-- The rooms that more than one of them holds. -/
def Db.conflictingRooms (db : Db) (term : ℕ) : List ℕ :=
  let rooms := (db.holdingSessions term).map Session.room
  rooms.dedup.filter fun room => decide (1 < rooms.count room)

/-- Resolve an open flag whose conflict has cleared. -/
def resolveFlag (current : List ℕ) (now : ℤ) (flag : RoomConflictFlag) : M Unit :=
  if current.contains flag.conflictKey then pure ()
  else Prog.modify fun db => { db with flags := db.flags.resolve flag.id now }

/-- `RoomConflictFlag.objects.create`. -/
def createFlag (room : ℕ) : M Unit := do
  let created ← Prog.modifyGet (fun db => (db.flags.insert? room).isSome)
    fun db => { db with flags := (db.flags.insert? room).getD db.flags }
  if created then pure () else .raise .integrity

/-- Flag one room unless an open flag covers it. Answers with the event for the guards. -/
def flagRoom (room : ℕ) : M (Option (GuardKind × ℕ)) := do
  if ← Prog.select fun db =>
      db.flags.table.rows.any fun f => f.conflictKey == room && f.isOpen then pure none
  else do
    let row ← Prog.select fun db => db.room room
    Prog.atomic do
      createFlag room
      notifyRole .ifoAdmin (.roomConflict row.code)
    pure (some (.conflict, row.floor))

/-- The loop over the conflicts, with the count of new flags and the events for the
guards. -/
def flagRooms : List ℕ → M (ℕ × List (GuardKind × ℕ))
  | [] => pure (0, [])
  | room :: rest => do
    let event ← flagRoom room
    let (flagged, events) ← flagRooms rest
    pure (match event with
      | some e => (flagged + 1, e :: events)
      | none => (flagged, events))

/-- `detect_room_conflicts`: answers with the number of new flags and the events appended to
`collect`. -/
def detectRoomConflicts (now : ℤ) : M (ℕ × List (GuardKind × ℕ)) := do
  match ← Prog.select Db.activeTerm with
  | none => pure (0, [])
  | some term => do
    let current ← Prog.select fun db => db.conflictingRooms term.id
    let flags ← Prog.select fun db => db.flags.table.rows.filter RoomConflictFlag.isOpen
    Prog.forEach flags (resolveFlag current now)
    flagRooms current

end FluxTrack
