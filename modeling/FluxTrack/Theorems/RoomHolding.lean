import FluxTrack.Ops.Occupants
import FluxTrack.Scheduling.RoomConflicts
import FluxTrack.System
import FluxTrack.Web.RoomState

/-!
# Who holds a room, four times over

A running session whose room has not been released is looked for in four places: a scan of the
room asks who is in the way, the conflict job counts who is there, the room query asks what
overlaps a slot, and the room board shows what uses the room. The first two ask for the active
term and not for the modality, the other two for the modality and not for the term.

## Main definitions

* `Db.scanOccupants` — the sessions among which a scan finds the one in its way
* `Db.inActiveTerm` — the session is of the active term
* `Db.HoldersAgree` — all four places count the session, or none does

## Main results

* `holdersAgree_iff` — when they agree
-/

namespace FluxTrack

open Calendar Relational Process

/-- The running sessions of other faculty members that hold the room. -/
def Db.scanOccupants (db : Db) (room user term : ℕ) : List Session :=
  db.sessionList.filter fun s =>
    s.room == room && s.status == .active && s.roomReleasedAt.isNone && db.inTerm term s &&
      s.faculty != user

/-- The session is of the active term. -/
def Db.inActiveTerm (db : Db) (s : Session) : Bool :=
  db.activeTerm.any fun term => db.inTerm term.id s

/-- A scan of its room by `user` finds the session in the way. -/
def Db.InScan (db : Db) (s : Session) (user : ℕ) : Prop :=
  ∃ term, db.activeTerm = some term ∧ s ∈ db.scanOccupants s.room user term.id

/-- The conflict job counts the session in its room. -/
def Db.InConflicts (db : Db) (s : Session) : Prop :=
  ∃ term, db.activeTerm = some term ∧ s ∈ db.holdingSessions term.id

/-- The session keeps its room from being free for the slot. -/
def Db.InAvailability (db : Db) (s : Session) (start finish : ℤ) : Prop :=
  s ∈ (db.sessionOccupants s.room start finish none).filter fun a =>
    db.effectiveModality a != .online

/-- A scan, the conflict job, the room query and the room board all count the session in its
room, or none of them does. -/
def Db.HoldersAgree (db : Db) (s : Session) (user : ℕ) (start finish : ℤ) : Prop :=
  (db.InScan s user ∧ db.InConflicts s ∧ db.InAvailability s start finish ∧
      db.occupies s (db.room s.room) = true) ∨
    (¬ db.InScan s user ∧ ¬ db.InConflicts s ∧ ¬ db.InAvailability s start finish ∧
      db.occupies s (db.room s.room) = false)

section

variable {db : Db} {s : Session}

theorem inActiveTerm_iff :
    db.inActiveTerm s = true ↔ ∃ term, db.activeTerm = some term ∧ db.inTerm term.id s = true := by
  rw [Db.inActiveTerm, Option.any_eq_true]

variable (hs : s ∈ db.sessions) (hactive : s.status = .active) (hheld : s.roomReleasedAt = none)

include hs hactive hheld

/-- A scan does not look at the modality. -/
theorem inScan_iff {user : ℕ} (huser : user ≠ s.faculty) :
    db.InScan s user ↔ db.inActiveTerm s = true := by
  rw [inActiveTerm_iff]
  refine exists_congr fun term => and_congr_right fun _ => ?_
  rw [Db.scanOccupants, List.mem_filter, Db.mem_sessionList]
  simp [hs, hactive, hheld, huser.symm]

/-- The conflict job does not look at the modality. -/
theorem inConflicts_iff : db.InConflicts s ↔ db.inActiveTerm s = true := by
  rw [inActiveTerm_iff]
  refine exists_congr fun term => and_congr_right fun _ => ?_
  rw [Db.holdingSessions, List.mem_filter]
  simp [hs, hactive, hheld]

/-- The room query does not look at the term. -/
theorem inAvailability_iff {start finish : ℤ}
    (hover : overlaps s.scheduledStart s.scheduledEnd start finish = true) :
    db.InAvailability s start finish ↔ db.effectiveModality s ≠ .online := by
  rw [Db.InAvailability, List.mem_filter, Db.sessionOccupants, List.mem_filter, Db.mem_sessionList,
    bne_iff_ne]
  refine and_iff_right ⟨hs, ?_⟩
  rw [hactive, hheld, hover]
  simp [SessionStatus.occupying]

end

/-- The room board does not look at the term. -/
theorem occupies_iff {db : Db} {s : Session} {room : Room} (hphysical : room.isVirtual = false) :
    db.occupies s room = true ↔ db.effectiveModality s ≠ .online := by
  rw [Db.occupies, hphysical, Bool.false_or, bne_iff_ne]

/-- The four places agree on a running session that holds a physical room iff it is both in
the active term and in person, or neither. -/
theorem holdersAgree_iff {db : Db} {s : Session} (hs : s ∈ db.sessions)
    (hactive : s.status = .active) (hheld : s.roomReleasedAt = none)
    (hphysical : (db.room s.room).isVirtual = false) {user : ℕ} (huser : user ≠ s.faculty)
    {start finish : ℤ} (hover : overlaps s.scheduledStart s.scheduledEnd start finish = true) :
    db.HoldersAgree s user start finish ↔
      (db.inActiveTerm s = true ↔ db.effectiveModality s ≠ .online) := by
  rw [Db.HoldersAgree, inScan_iff hs hactive hheld huser, inConflicts_iff hs hactive hheld,
    inAvailability_iff hs hactive hheld hover, ← Bool.not_eq_true, occupies_iff hphysical]
  tauto

namespace Campus

/-- The timetable with its nine o'clock class online. -/
def onlineTimetable : Db :=
  { timetable with
    schedules := ⟨[
      ⟨1, 1, "CS1", "A", 30, 1, 1, 0, hour 9, hour 10, .online, .active⟩,
      ⟨2, 1, "CS2", "B", 30, 2, 1, 0, hour 8, hour 9, .f2f, .active⟩], by decide⟩ }

/-- The teacher starts the online class at nine. -/
def onlineStarted : Db :=
  ((onlineStart 1 1 "https://teams.microsoft.com/l/meetup-join/1" (wallClock monday 9 0 0)
    (wallClock monday 9 0 0)).run ((materializeTerm term monday 1 false 0).run onlineTimetable).2).2

/-- The eight o'clock class, checked in by a scan. -/
def scannedAtEight : Db := ((scanAt 2 8 0 0).prog [] |>.run campus).2

end Campus

open Campus in
/-- A class that was checked in by a scan is counted everywhere. -/
theorem holdersAgree_scanned :
    ∃ s ∈ scannedAtEight.sessions, s.id = 2 ∧
      scannedAtEight.HoldersAgree s 1 (wallClock monday 8 30 0) (wallClock monday 8 31 0) := by
  obtain ⟨s, hs, hid, hactive, hheld, hphysical, huser, hover, hboth⟩ :
      ∃ s ∈ scannedAtEight.sessions.rows, s.id = 2 ∧ s.status = .active ∧
        s.roomReleasedAt = none ∧ (scannedAtEight.room s.room).isVirtual = false ∧ 1 ≠ s.faculty ∧
        overlaps s.scheduledStart s.scheduledEnd (wallClock monday 8 30 0)
          (wallClock monday 8 31 0) = true ∧
        (scannedAtEight.inActiveTerm s = true ↔ scannedAtEight.effectiveModality s ≠ .online) := by
    decide +kernel
  exact ⟨s, hs, hid, (holdersAgree_iff hs hactive hheld hphysical huser hover).mpr hboth⟩

open Campus in
/-- An online class that is timetabled in a physical room and was started is in the way of a
scan, and its room is free. -/
theorem holders_disagree :
    ¬ ∀ (db : Db) (s : Session) (user : ℕ) (start finish : ℤ), s ∈ db.sessions →
      s.status = .active → s.roomReleasedAt = none → (db.room s.room).isVirtual = false →
      user ≠ s.faculty → overlaps s.scheduledStart s.scheduledEnd start finish = true →
        db.HoldersAgree s user start finish := by
  intro h
  obtain ⟨s, hs, hactive, hheld, hphysical, huser, hover, hterm, honline⟩ :
      ∃ s ∈ onlineStarted.sessions.rows, s.status = .active ∧ s.roomReleasedAt = none ∧
        (onlineStarted.room s.room).isVirtual = false ∧ 2 ≠ s.faculty ∧
        overlaps s.scheduledStart s.scheduledEnd (wallClock monday 9 30 0)
          (wallClock monday 9 31 0) = true ∧
        onlineStarted.inActiveTerm s = true ∧ onlineStarted.effectiveModality s = .online := by
    decide +kernel
  have hscan := (inScan_iff hs hactive hheld huser).mpr hterm
  have hboard : onlineStarted.occupies s (onlineStarted.room s.room) ≠ true := fun hocc =>
    (occupies_iff hphysical).mp hocc honline
  rcases h onlineStarted s 2 _ _ hs hactive hheld hphysical huser hover with ⟨-, -, -, hocc⟩ | ⟨hno, -⟩
  · exact hboard hocc
  · exact hno hscan

end FluxTrack
