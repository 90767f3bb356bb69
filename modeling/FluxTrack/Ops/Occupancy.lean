import FluxTrack.Db

/-!
# Releasing a room

`release_room` of `ops/occupancy.py`, the only writer of `room_released_at` and of
the audit row that goes with it.

## Main definitions

* `releaseRoom` — release the room a session holds
-/

namespace FluxTrack

open Calendar Relational Process

/-- The session with its room released. -/
def Session.release (now : ℤ) (s : Session) : Session := { s with roomReleasedAt := some now }

theorem Session.key_release (now : ℤ) (s : Session) : key (s.release now) = key s := rfl

/-- `release_room`. -/
def releaseRoom (session : ℕ) (actor : Option ℕ) (now : ℤ) : M Unit := do
  saveSession session (Session.release now) (Session.key_release now)
  createAudit actor (.sessionRoomReleased session now)

end FluxTrack
