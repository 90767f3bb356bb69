import FluxTrack.Scheduling.Suspensions

/-!
# Room availability

`ops/availability.py`: whether a room is free for a half-open slot. A room is held
by a session that is scheduled or running there, by a booking, by an occurrence of
the timetable that has no session yet, and by the reservation of an approved
modality shift. These are queries only, so they are functions of the database.

## Main definitions

* `Shift`, `Db.approvedShifts` — the approved shifts of a schedule on a date
* `Db.sessionOccupants`, `Db.scheduleOccupies`, `Db.reservationOccupies` — the ways
  a room can be held
* `Db.roomIsFree`, `Db.facultyHasConflict`, `Db.freeRoomsInBuilding` — the queries
  of the services
* `Db.Holds`, `Db.Forecast`, `Db.Reserves` — a session, an occurrence without a session and
  an approved shift hold a room

## Main results

* `Db.roomIsFree_eq_false_iff` — the ways a room can be occupied
-/

namespace FluxTrack

open Calendar Relational Process

/-- `_OCCUPYING_STATUSES`. -/
def SessionStatus.occupying : SessionStatus → Bool
  | .scheduled | .active => true
  | _ => false

/-! ### Approved shifts -/

/-- A shift item with its request. -/
structure Shift where
  item : ModalityShiftItem
  request : ModalityShiftRequest
  deriving DecidableEq

/-- The order of nullable instants, `NULL` first. -/
def decidedLE : Option ℤ → Option ℤ → Prop
  | none, _ => True
  | some _, none => False
  | some a, some b => a ≤ b

instance : DecidableRel decidedLE := fun
  | none, _ => .isTrue trivial
  | some _, none => .isFalse id
  | some a, some b => inferInstanceAs (Decidable (a ≤ b))

/-- `order_by("-request__decided_at")`. -/
def Shift.newer (a b : Shift) : Prop := decidedLE b.request.decidedAt a.request.decidedAt

instance : DecidableRel Shift.newer := fun a b =>
  inferInstanceAs (Decidable (decidedLE b.request.decidedAt a.request.decidedAt))

/-- `order_by("-request__decided_at", "-pk")`. -/
def Shift.newerByKey (a b : Shift) : Prop :=
  a.newer b ∧ (b.newer a → b.item.id ≤ a.item.id)

instance : DecidableRel Shift.newerByKey := fun a b =>
  inferInstanceAs (Decidable (a.newer b ∧ (b.newer a → _)))

namespace Db

/-- The items of approved requests whose window contains a date. -/
def approvedOn (db : Db) (d : ℤ) : List Shift :=
  (db.items.rows.filterMap fun i => (db.requests.get? i.request).map (Shift.mk i)).filter
    fun sh => sh.request.status == .approved &&
      (decide (sh.request.windowStart ≤ d) && decide (d ≤ sh.request.windowEnd))

/-- The approved shifts of a schedule on a date. -/
def approvedShifts (db : Db) (schedule : ℕ) (d : ℤ) : List Shift :=
  (db.approvedOn d).filter fun sh => sh.item.schedule == schedule

/-- The shift that decides about an occurrence without a session. -/
def latestShift (db : Db) (schedule : ℕ) (d : ℤ) : Option Shift :=
  ((db.approvedShifts schedule d).insertionSort Shift.newerByKey).head?

/-! ### What holds a room -/

/-- `_session_occupants`: the sessions that hold the room and overlap the slot. -/
def sessionOccupants (db : Db) (room : ℕ) (start finish : ℤ) (excludeSession : Option ℕ) :
    List Session :=
  db.sessionList.filter fun s =>
    s.room == room && s.status.occupying && s.roomReleasedAt.isNone &&
      overlaps s.scheduledStart s.scheduledEnd start finish && excludeSession != some s.id

/-- An active booking of the room overlaps the slot. -/
def bookingOccupies (db : Db) (room : ℕ) (start finish : ℤ) : Bool :=
  db.bookings.rows.any fun b =>
    b.room == room && b.status == .active && overlaps b.startDatetime b.endDatetime start finish

/-- The reserved slot of a shift on a date: the moved time, else the schedule's own. -/
def reservedSlot (db : Db) (i : ModalityShiftItem) (d : ℤ) : ℤ × ℤ :=
  let sched := (db.schedules.get? i.schedule).getD default
  (makeAware d (i.newStartTime.getD sched.startTime),
    makeAware d (i.newEndTime.getD sched.endTime))

/-- `_reservation_occupies`: an approved shift into the room reserves an overlapping
slot on the date of the query. -/
def reservationOccupies (db : Db) (room : ℕ) (start finish : ℤ) (excludeSchedule : Option ℕ) :
    Bool :=
  (db.approvedOn (localDate start)).any fun sh =>
    sh.item.assignedRoom == some room &&
      ((db.schedules.get? sh.item.schedule).getD default).dayOfWeek ==
        weekday (localDate start) &&
      sh.request.targetModality != .online && excludeSchedule != some sh.item.schedule &&
      overlaps (db.reservedSlot sh.item (localDate start)).1
        (db.reservedSlot sh.item (localDate start)).2 start finish

/-- The schedule meets on a date: it is active, its term is active and contains the
date, and the weekday is right. -/
def meetsOn (db : Db) (sched : Schedule) (d : ℤ) : Bool :=
  sched.status == .active &&
    ((db.terms.table.get? sched.term).any fun t =>
      t.status == .active && (decide (t.startDate ≤ d) && decide (d ≤ t.endDate))) &&
    sched.dayOfWeek == weekday d

/-- The occurrence of a schedule on a date has a session. -/
def materialized (db : Db) (schedule : ℕ) (d : ℤ) : Bool :=
  db.sessions.rows.any fun s => s.schedule == schedule && s.date == d

/-- The occurrence of a schedule on a date would be held in the schedule's own room. -/
def heldInOwnRoom (db : Db) (sched : Schedule) (d : ℤ) : Bool :=
  match db.latestShift sched.id d with
  | some sh => sh.request.targetModality != .online && sh.item.assignedRoom.isNone
  | none => sched.modality != .online

/-- `_schedule_occupies`: an occurrence without a session holds the room. -/
def scheduleOccupies (db : Db) (room : ℕ) (start finish : ℤ) (excludeSchedule : Option ℕ) :
    Bool :=
  db.schedules.rows.any fun sched =>
    sched.room == room && db.meetsOn sched (localDate start) &&
      excludeSchedule != some sched.id && !db.materialized sched.id (localDate start) &&
      !db.excused sched.term (localDate start) (db.buildingOf sched.room) &&
      db.heldInOwnRoom sched (localDate start) &&
      overlaps (makeAware (localDate start) sched.startTime)
        (makeAware (localDate start) sched.endTime) start finish

/-! ### The queries -/

/-- `room_is_free`. -/
def roomIsFree (db : Db) (room : ℕ) (start finish : ℤ) (excludeSession : Option ℕ)
    (excludeSchedule : Option ℕ) : Bool :=
  !((db.sessionOccupants room start finish excludeSession).any
      fun s => db.effectiveModality s != .online) &&
    !db.bookingOccupies room start finish &&
    !db.scheduleOccupies room start finish excludeSchedule &&
    !db.reservationOccupies room start finish excludeSchedule

/-- `faculty_has_conflict`. -/
def facultyHasConflict (db : Db) (faculty : ℕ) (start finish : ℤ)
    (excludeSession : Option ℕ) : Bool :=
  db.sessions.rows.any fun s =>
    s.faculty == faculty && s.status.occupying &&
      overlaps s.scheduledStart s.scheduledEnd start finish && excludeSession != some s.id

/-- `free_rooms_in_building`: the free rooms by code, a free preferred room first. -/
def freeRoomsInBuilding (db : Db) (building : ℕ) (start finish : ℤ)
    (excludeSession : Option ℕ) (preferRoom : Option ℕ) : List ℕ :=
  let candidates := (db.rooms.rows.filter fun r => db.buildingOf r.id == building).insertionSort
    fun a b => a.code ≤ b.code
  let free := (candidates.map Room.id).filter fun r =>
    db.roomIsFree r start finish excludeSession none
  match preferRoom with
  | some p =>
    if free.contains p then free.filter (· == p) ++ free.filter (· != p) else free
  | none => free

/-! ### What the queries mean -/

variable {db : Db} {room : ℕ} {start finish : ℤ}

/-- The session holds the room at some time of the slot. -/
structure Holds (db : Db) (room : ℕ) (start finish : ℤ) (s : Session) : Prop where
  room : s.room = room
  status : s.status.occupying = true
  unreleased : s.roomReleasedAt = none
  overlaps : overlaps s.scheduledStart s.scheduledEnd start finish = true
  inPerson : db.effectiveModality s ≠ .online

/-- What it takes for an occurrence without a session to hold the room. -/
structure Forecast (db : Db) (room : ℕ) (start finish : ℤ) (sched : Schedule) : Prop where
  room : sched.room = room
  meets : db.meetsOn sched (localDate start) = true
  missing : db.materialized sched.id (localDate start) = false
  notExcused : db.excused sched.term (localDate start) (db.buildingOf sched.room) = false
  ownRoom : db.heldInOwnRoom sched (localDate start) = true
  overlaps : overlaps (makeAware (localDate start) sched.startTime)
    (makeAware (localDate start) sched.endTime) start finish = true

theorem scheduleOccupies_iff {excludeSchedule : Option ℕ} :
    db.scheduleOccupies room start finish excludeSchedule = true ↔
      ∃ sched ∈ db.schedules, db.Forecast room start finish sched ∧
        excludeSchedule ≠ some sched.id := by
  rw [scheduleOccupies, List.any_eq_true]
  refine exists_congr fun sched => and_congr_right fun _ => ?_
  simp only [Bool.and_eq_true, beq_iff_eq, Bool.not_eq_true', bne_iff_ne]
  constructor
  · rintro ⟨⟨⟨⟨⟨⟨hroom, hmeets⟩, hne⟩, hmissing⟩, hexcused⟩, hown⟩, hover⟩
    exact ⟨⟨hroom, hmeets, hmissing, hexcused, hown, hover⟩, hne⟩
  · rintro ⟨⟨hroom, hmeets, hmissing, hexcused, hown, hover⟩, hne⟩
    exact ⟨⟨⟨⟨⟨⟨hroom, hmeets⟩, hne⟩, hmissing⟩, hexcused⟩, hown⟩, hover⟩

theorem mem_approvedOn {d : ℤ} {sh : Shift} :
    sh ∈ db.approvedOn d ↔ sh.item ∈ db.items ∧
      db.requests.get? sh.item.request = some sh.request ∧ sh.request.status = .approved ∧
      sh.request.windowStart ≤ d ∧ d ≤ sh.request.windowEnd := by
  rw [approvedOn, List.mem_filter, List.mem_filterMap]
  simp only [Bool.and_eq_true, beq_iff_eq, decide_eq_true_eq, Option.map_eq_some_iff]
  constructor
  · rintro ⟨⟨i, hi, request, hget, rfl⟩, happroved, hwindow⟩
    exact ⟨hi, hget, happroved, hwindow⟩
  · rintro ⟨hi, hget, happroved, hwindow⟩
    exact ⟨⟨sh.item, hi, sh.request, hget, rfl⟩, happroved, hwindow⟩

/-- What it takes for an approved shift to reserve the room. -/
structure Reserves (db : Db) (room : ℕ) (start finish : ℤ) (sh : Shift) : Prop where
  approved : sh ∈ db.approvedOn (localDate start)
  room : sh.item.assignedRoom = some room
  weekday : ((db.schedules.get? sh.item.schedule).getD default).dayOfWeek =
    weekday (localDate start)
  inPerson : sh.request.targetModality ≠ .online
  overlaps : overlaps (db.reservedSlot sh.item (localDate start)).1
    (db.reservedSlot sh.item (localDate start)).2 start finish = true

theorem reservationOccupies_iff {excludeSchedule : Option ℕ} :
    db.reservationOccupies room start finish excludeSchedule = true ↔
      ∃ sh, db.Reserves room start finish sh ∧ excludeSchedule ≠ some sh.item.schedule := by
  rw [reservationOccupies, List.any_eq_true]
  refine exists_congr fun sh => ?_
  simp only [Bool.and_eq_true, beq_iff_eq, bne_iff_ne]
  constructor
  · rintro ⟨happroved, ⟨⟨⟨hroom, hday⟩, hmod⟩, hne⟩, hover⟩
    exact ⟨⟨happroved, hroom, hday, hmod, hover⟩, hne⟩
  · rintro ⟨⟨happroved, hroom, hday, hmod, hover⟩, hne⟩
    exact ⟨happroved, ⟨⟨⟨hroom, hday⟩, hmod⟩, hne⟩, hover⟩

/-- A room is occupied by a session, a booking, an occurrence of the timetable or a
reservation. -/
theorem roomIsFree_eq_false_iff {excludeSession excludeSchedule : Option ℕ} :
    db.roomIsFree room start finish excludeSession excludeSchedule = false ↔
      (∃ s ∈ db.sessions, db.Holds room start finish s ∧ excludeSession ≠ some s.id) ∨
      db.bookingOccupies room start finish = true ∨
      db.scheduleOccupies room start finish excludeSchedule = true ∨
      db.reservationOccupies room start finish excludeSchedule = true := by
  have hsessions : (db.sessionOccupants room start finish excludeSession).any
        (fun s => db.effectiveModality s != .online) = true ↔
      ∃ s ∈ db.sessions, db.Holds room start finish s ∧ excludeSession ≠ some s.id := by
    rw [List.any_eq_true]
    constructor
    · rintro ⟨s, hs, hmod⟩
      obtain ⟨hmem, hsel⟩ := List.mem_filter.mp hs
      simp only [Bool.and_eq_true, beq_iff_eq, bne_iff_ne, Option.isNone_iff_eq_none] at hsel hmod
      obtain ⟨⟨⟨⟨hroom, hstatus⟩, hreleased⟩, hover⟩, hne⟩ := hsel
      exact ⟨s, mem_sessionList.mp hmem, ⟨hroom, hstatus, hreleased, hover, hmod⟩, hne⟩
    · rintro ⟨s, hs, ⟨hroom, hstatus, hreleased, hover, hmod⟩, hne⟩
      refine ⟨s, List.mem_filter.mpr ⟨mem_sessionList.mpr hs, ?_⟩, bne_iff_ne.mpr hmod⟩
      simp only [hroom, hstatus, hreleased, hover, Option.isNone_none, beq_self_eq_true,
        Bool.true_and, bne_iff_ne]
      exact hne
  rw [roomIsFree, ← hsessions]
  simp only [Bool.and_eq_false_iff, Bool.not_eq_false', or_assoc]

/-- An offered room is free; a preference only reorders the offer. -/
theorem roomIsFree_of_mem_freeRooms {building r : ℕ} {excludeSession preferRoom : Option ℕ}
    (h : r ∈ db.freeRoomsInBuilding building start finish excludeSession preferRoom) :
    db.roomIsFree r start finish excludeSession none = true := by
  unfold freeRoomsInBuilding at h
  dsimp only at h
  split at h
  · split at h
    · rcases List.mem_append.mp h with h | h
      · exact (List.mem_filter.mp (List.mem_filter.mp h).1).2
      · exact (List.mem_filter.mp (List.mem_filter.mp h).1).2
    · exact (List.mem_filter.mp h).2
  · exact (List.mem_filter.mp h).2

/-- Without a preference the free rooms of the building are offered. -/
theorem mem_freeRoomsInBuilding_none {building r : ℕ} {excludeSession : Option ℕ} :
    r ∈ db.freeRoomsInBuilding building start finish excludeSession none ↔
      (∃ a ∈ db.rooms, db.buildingOf a.id = building ∧ a.id = r) ∧
        db.roomIsFree r start finish excludeSession none = true := by
  unfold freeRoomsInBuilding
  simp only [List.mem_filter, List.mem_map, List.mem_insertionSort, beq_iff_eq, and_assoc,
    Table.mem_rows]

/-- The teacher of a session has nothing else that overlaps the slot. -/
theorem facultyHasConflict_eq_false_iff {s : Session} :
    db.facultyHasConflict s.faculty start finish (some s.id) = false ↔
      ∀ t ∈ db.sessions, t.id ≠ s.id → t.faculty = s.faculty → t.status.occupying = true →
        overlaps start finish t.scheduledStart t.scheduledEnd = false := by
  rw [facultyHasConflict, List.any_eq_false]
  refine forall₂_congr fun t _ => ?_
  rw [overlaps_comm start finish]
  simp only [Bool.and_eq_true, beq_iff_eq, bne_iff_ne, ne_eq, Option.some.injEq]
  constructor
  · intro h hid hfaculty hocc
    exact Bool.eq_false_iff.mpr fun hover => h ⟨⟨⟨hfaculty, hocc⟩, hover⟩, fun heq => hid heq.symm⟩
  · rintro h ⟨⟨⟨hfaculty, hocc⟩, hover⟩, hid⟩
    rw [h (fun heq => hid heq.symm) hfaculty hocc] at hover
    cases hover

end Db

end FluxTrack
