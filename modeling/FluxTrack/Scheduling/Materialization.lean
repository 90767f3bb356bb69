import FluxTrack.Ops.Availability
import FluxTrack.Ops.Occupancy

/-!
# Materialization

`scheduling/materialization.py`: the dated sessions of a term are created from its
timetable, each born with the approved shift that covers it. A session is looked
up by schedule and date first and inserted only if it is missing.

## Main definitions

* `applyApprovedShift` — `_apply_approved_shift`
* `getOrCreateSession` — `Session.objects.get_or_create`
* `materializeTerm` — `materialize_term`
-/

namespace FluxTrack

open Calendar Relational Process

/-- `MaterializationResult`. -/
structure MaterializationResult where
  created : ℕ
  existing : ℕ
  skipped : ℕ
  deriving DecidableEq

namespace Session

/-- The session with a declared modality, as decided by a request. -/
def declare (target : Modality) (changedAt : Option ℤ) (changedBy : Option ℕ) (s : Session) :
    Session :=
  { s with
    declaredModality := some target, modalityChangedAt := changedAt,
    modalityChangedBy := changedBy }

/-- The session moved to a room and, for a time move, to a slot. -/
def place (room : ℕ) (slot : Option (ℤ × ℤ)) (s : Session) : Session :=
  { s with
    room := room
    scheduledStart := (slot.map Prod.fst).getD s.scheduledStart
    scheduledEnd := (slot.map Prod.snd).getD s.scheduledEnd }

theorem key_declare (target : Modality) (changedAt : Option ℤ) (changedBy : Option ℕ)
    (s : Session) : key (s.declare target changedAt changedBy) = key s := rfl

theorem key_declare_place (target : Modality) (changedAt : Option ℤ) (changedBy : Option ℕ)
    (room : ℕ) (slot : Option (ℤ × ℤ)) (s : Session) :
    key ((s.place room slot).declare target changedAt changedBy) = key s := rfl

end Session

/-- The slot a time move gives a date; a move has both ends or none. -/
def ModalityShiftItem.movedSlot (i : ModalityShiftItem) (d : ℤ) : Option (ℤ × ℤ) :=
  match i.newStartTime, i.newEndTime with
  | some st, some et => some (makeAware d st, makeAware d et)
  | _, _ => none

/-- The shift that a session of the schedule on a date is born with. -/
def Db.bornShift (db : Db) (schedule : ℕ) (d : ℤ) : Option Shift :=
  ((db.approvedShifts schedule d).insertionSort Shift.newer).head?

/-- `_apply_approved_shift` to a new session; `now` stands in for a missing decision
time. -/
def applyApprovedShift (session schedule : ℕ) (d : ℤ) (now : ℤ) : M Unit := do
  match ← Prog.select fun db => db.bornShift schedule d with
  | none => pure ()
  | some ⟨item, request⟩ =>
    if request.targetModality = .online then do
      saveSession session (Session.declare .online request.decidedAt request.decidedBy)
        (Session.key_declare _ _ _)
      releaseRoom session request.decidedBy (request.decidedAt.getD now)
    else
      match item.assignedRoom with
      | none => do
        notifyRole .ifoAdmin (.modalityMaterializeNoRoom schedule d)
        saveSession session
          (Session.declare request.targetModality request.decidedAt request.decidedBy)
          (Session.key_declare _ _ _)
      | some room =>
        saveSession session
          (fun s => (s.place room (item.movedSlot d)).declare request.targetModality
            request.decidedAt request.decidedBy)
          (Session.key_declare_place _ _ _ _ _)

/-- A new session of a schedule on a date. -/
def Schedule.session (sched : Schedule) (d : ℤ) (pk : ℕ) : Session where
  id := pk
  schedule := sched.id
  faculty := sched.faculty
  room := sched.room
  date := d
  scheduledStart := makeAware d sched.startTime
  scheduledEnd := makeAware d sched.endTime
  status := .scheduled
  actualStart := none
  actualEnd := none
  checkinMethod := none
  declaredModality := none
  modalityChangedAt := none
  modalityChangedBy := none
  handoverFrom := none
  teamsLink := ""
  onlineChecker := none
  endedEarly := false
  earlyEndReason := ""
  roomReleasedAt := none
  cancelledReason := ""

theorem Schedule.key_session (sched : Schedule) (d : ℤ) (pk : ℕ) :
    key (sched.session d pk) = pk := rfl

/-- `Session.objects.create`, answering with the new primary key. -/
def createSession (sched : Schedule) (d : ℤ) : M ℕ :=
  Prog.modifyGet (fun db => db.sessions.nextKey) fun db =>
    { db with sessions := db.sessions.insert (sched.session d) (sched.key_session d) }

/-- `Session.objects.get_or_create(schedule=..., date=...)`: a SELECT and, if it finds
nothing, an INSERT in a block of its own. Answers with the key of a created session. -/
def getOrCreateSession (sched : Schedule) (d : ℤ) : M (Option ℕ) := do
  match ← Prog.select fun db =>
      db.sessions.rows.filter fun s => s.schedule == sched.id && s.date == d with
  | [] => do
    let pk ← Prog.atomic (createSession sched d)
    pure (some pk)
  | [_] => pure none
  | _ => .raise .multipleObjects

/-- A schedule with the building of its room. -/
structure ScheduleRow where
  schedule : Schedule
  building : ℕ

/-- One round of the loop: a date and a schedule. -/
def materializeOne (excused : ℤ → ℕ → Bool) (now : ℤ) (d : ℤ) (row : ScheduleRow) :
    M MaterializationResult :=
  if row.schedule.dayOfWeek ≠ weekday d then pure ⟨0, 0, 0⟩
  else if excused d row.building then pure ⟨0, 0, 1⟩
  else do
    match ← getOrCreateSession row.schedule d with
    | some pk => do
      applyApprovedShift pk row.schedule.id d now
      pure ⟨1, 0, 0⟩
    | none => pure ⟨0, 1, 0⟩

/-- The loop over the dates and, for each, the schedules. -/
def materializeLoop (excused : ℤ → ℕ → Bool) (now : ℤ) :
    List (ℤ × ScheduleRow) → M MaterializationResult
  | [] => pure ⟨0, 0, 0⟩
  | (d, row) :: rest => do
    let one ← materializeOne excused now d row
    let more ← materializeLoop excused now rest
    pure ⟨one.created + more.created, one.existing + more.existing, one.skipped + more.skipped⟩

/-- The dates from `current` up to `finish`, the latter excluded. -/
def dateRange (current finish : ℤ) : List ℤ :=
  (List.range (finish - current).toNat).map fun i : ℕ => current + i

/-- `_validate_term`. -/
def validateTerm (term : AcademicTerm) (allowDraft : Bool) : M Unit :=
  match term.status with
  | .archived => .raise (.materialization "ARCHIVED terms cannot be materialized")
  | .draft =>
    if allowDraft then pure ()
    else .raise (.materialization "DRAFT terms cannot be materialized publicly")
  | .active => pure ()

/-- The active schedules of a term with their buildings. -/
def Db.scheduleRows (db : Db) (term : ℕ) : List ScheduleRow :=
  (db.schedules.rows.filter fun s => s.term == term && s.status == .active).map
    fun s => ⟨s, db.buildingOf s.room⟩

/-- The rounds of the loop in order. -/
def materializeRounds (dates : List ℤ) (rows : List ScheduleRow) : List (ℤ × ScheduleRow) :=
  dates.flatMap fun d => rows.map fun row => (d, row)

/-- `materialize_term`: create the missing sessions of a term from `start` for `days`
days, within the dates of the term. -/
def materializeTerm (term : AcademicTerm) (start days : ℤ) (allowDraft : Bool) (now : ℤ) :
    M MaterializationResult := do
  validateTerm term allowDraft
  if days < 1 then .raise (.materialization "materialization days must be positive")
  else
    let current := max start term.startDate
    let finish := min (start + days) (term.endDate + 1)
    if finish ≤ current then pure ⟨0, 0, 0⟩
    else do
      let excused ← excusedChecker term.id
      let rows ← Prog.select fun db => db.scheduleRows term.id
      materializeLoop excused now (materializeRounds (dateRange current finish) rows)

/-! ### The service run alone -/

/-- A new session with the shift it is born with. -/
def Session.born (shift : Option Shift) (d now : ℤ) (s : Session) : Session :=
  match shift with
  | none => s
  | some ⟨item, request⟩ =>
    if request.targetModality = .online then
      (s.declare .online request.decidedAt request.decidedBy).release
        (request.decidedAt.getD now)
    else
      match item.assignedRoom with
      | none => s.declare request.targetModality request.decidedAt request.decidedBy
      | some room =>
        (s.place room (item.movedSlot d)).declare request.targetModality request.decidedAt
          request.decidedBy

theorem Session.key_born (shift : Option Shift) (d now : ℤ) (s : Session) :
    key (s.born shift d now) = key s := by
  unfold Session.born
  split
  · rfl
  · split
    · rfl
    · split <;> rfl

/-- A session is born on the date of its occurrence. -/
theorem Session.occurrence_born (shift : Option Shift) (d now : ℤ) (s : Session) :
    (s.born shift d now).schedule = s.schedule ∧ (s.born shift d now).date = s.date := by
  unfold Session.born
  split
  · exact ⟨rfl, rfl⟩
  · split
    · exact ⟨rfl, rfl⟩
    · split <;> exact ⟨rfl, rfl⟩

section

variable {item : ModalityShiftItem} {request : ModalityShiftRequest} {d now : ℤ} (s : Session)

theorem Session.born_of_online (honline : request.targetModality = .online) :
    s.born (some ⟨item, request⟩) d now =
      (s.declare .online request.decidedAt request.decidedBy).release
        (request.decidedAt.getD now) :=
  if_pos honline

theorem Session.born_of_unassigned (honline : request.targetModality ≠ .online)
    (hroom : item.assignedRoom = none) :
    s.born (some ⟨item, request⟩) d now =
      s.declare request.targetModality request.decidedAt request.decidedBy := by
  simp [Session.born, honline, hroom]

theorem Session.born_of_assigned {room : ℕ} (honline : request.targetModality ≠ .online)
    (hroom : item.assignedRoom = some room) :
    s.born (some ⟨item, request⟩) d now =
      (s.place room (item.movedSlot d)).declare request.targetModality request.decidedAt
        request.decidedBy := by
  simp [Session.born, honline, hroom]

end

/-- The audit rows of a birth: one for a room that is released. -/
def bornAudit (shift : Option Shift) (pk : ℕ) (now : ℤ) : List AuditLog :=
  match shift with
  | none => []
  | some ⟨_, request⟩ =>
    if request.targetModality = .online then
      [⟨request.decidedBy, .sessionRoomReleased pk (request.decidedAt.getD now)⟩]
    else []

section

variable {db : Db} {now d : ℤ}

theorem update_born_none (db : Db) (d now : ℤ) (pk : ℕ) :
    db.sessions.update (fun s => s.id == pk) (Session.born none d now) (Session.key_born _ _ _) =
      db.sessions :=
  Table.update_of_fixed fun _ _ _ => rfl

/-- A birth under an online shift is a declaration and then a release. -/
theorem update_born_of_online (db : Db) (pk : ℕ) {item : ModalityShiftItem}
    {request : ModalityShiftRequest} (honline : request.targetModality = .online) :
    db.sessions.update (fun s => s.id == pk) (Session.born (some ⟨item, request⟩) d now)
        (Session.key_born _ _ _) =
      (db.sessions.update (fun s => s.id == pk)
        (Session.declare .online request.decidedAt request.decidedBy)
        (Session.key_declare _ _ _)).update (fun s => s.id == pk)
        (Session.release (request.decidedAt.getD now)) (Session.key_release _) := by
  have hpk : ∀ s : Session, ((s.declare .online request.decidedAt
      request.decidedBy).id == pk) = (s.id == pk) := fun _ => rfl
  rw [Table.update_update hpk]
  exact Table.update_congr fun s _ => by rw [s.born_of_online honline]

theorem update_born_of_unassigned (db : Db) (pk : ℕ) {item : ModalityShiftItem}
    {request : ModalityShiftRequest} (honline : request.targetModality ≠ .online)
    (hroom : item.assignedRoom = none) :
    db.sessions.update (fun s => s.id == pk) (Session.born (some ⟨item, request⟩) d now)
        (Session.key_born _ _ _) =
      db.sessions.update (fun s => s.id == pk)
        (Session.declare request.targetModality request.decidedAt
          request.decidedBy) (Session.key_declare _ _ _) :=
  Table.update_congr fun s _ => by rw [s.born_of_unassigned honline hroom]

theorem update_born_of_assigned (db : Db) (pk : ℕ) {item : ModalityShiftItem}
    {request : ModalityShiftRequest} {room : ℕ} (honline : request.targetModality ≠ .online)
    (hroom : item.assignedRoom = some room) :
    db.sessions.update (fun s => s.id == pk) (Session.born (some ⟨item, request⟩) d now)
        (Session.key_born _ _ _) =
      db.sessions.update (fun s => s.id == pk)
        (fun s => (s.place room (item.movedSlot d)).declare request.targetModality
          request.decidedAt request.decidedBy) (Session.key_declare_place _ _ _ _ _) :=
  Table.update_congr fun s _ => by rw [s.born_of_assigned honline hroom]

theorem run_applyApprovedShift (db : Db) (d now : ℤ) (pk schedule : ℕ) :
    ∃ notifications, (applyApprovedShift pk schedule d now).run db =
      (.ok (), { db with
        sessions := db.sessions.update (fun s => s.id == pk)
          (Session.born (db.bornShift schedule d) d now) (Session.key_born _ _ _)
        audit := db.audit ++ bornAudit (db.bornShift schedule d) pk now
        notifications := notifications }) := by
  rw [applyApprovedShift, Prog.run_select_bind]
  cases db.bornShift schedule d with
  | none =>
    refine ⟨db.notifications, ?_⟩
    rw [update_born_none]
    simp [bornAudit]
  | some shift =>
    obtain ⟨item, request⟩ := shift
    by_cases honline : request.targetModality = .online
    · refine ⟨db.notifications, ?_⟩
      simp only [if_pos honline, update_born_of_online db pk honline, bornAudit]
      rfl
    · -- a shift to a room writes no audit row, with or without a room assigned
      have haudit : bornAudit (some ⟨item, request⟩) pk now = [] := if_neg honline
      rw [haudit, List.append_nil]
      simp only [if_neg honline]
      cases hroom : item.assignedRoom with
      | none =>
        refine ⟨db.notifications ++ (db.usersOfRole .ifoAdmin).map
          fun u => ⟨u, .modalityMaterializeNoRoom schedule d⟩, ?_⟩
        rw [update_born_of_unassigned db pk honline hroom]
        rfl
      | some room =>
        refine ⟨db.notifications, ?_⟩
        rw [update_born_of_assigned db pk honline hroom]
        rfl

/-- The database after the session of an occurrence has been born. -/
def Db.bear (db : Db) (sched : Schedule) (d now : ℤ) (notifications : List Notification) : Db :=
  { db with
    sessions := db.sessions.insert
      (fun pk => (sched.session d pk).born (db.bornShift sched.id d) d now)
      fun pk => (Session.key_born _ _ _ _).trans (sched.key_session d pk)
    audit := db.audit ++ bornAudit (db.bornShift sched.id d) db.sessions.nextKey now
    notifications := notifications }

theorem Db.mem_sessions_bear {sched : Schedule} {notifications : List Notification} {s : Session} :
    s ∈ (db.bear sched d now notifications).sessions ↔ s ∈ db.sessions ∨
      s = (sched.session d db.sessions.nextKey).born (db.bornShift sched.id d) d now :=
  Table.mem_insert

/-- After a birth the occurrence has a session. -/
theorem Db.materialized_bear {sched : Schedule} {notifications : List Notification} {schedule : ℕ}
    {d' : ℤ} :
    (db.bear sched d now notifications).materialized schedule d' = true ↔
      db.materialized schedule d' = true ∨ sched.id = schedule ∧ d = d' := by
  simp only [Db.materialized, List.any_eq_true, Table.mem_rows, Db.mem_sessions_bear,
    Bool.and_eq_true, beq_iff_eq]
  obtain ⟨hsched, hdate⟩ := Session.occurrence_born (db.bornShift sched.id d) d now
    (sched.session d db.sessions.nextKey)
  constructor
  · rintro ⟨s, hs | rfl, hsel⟩
    · exact .inl ⟨s, hs, hsel⟩
    · rw [hsched, hdate] at hsel
      exact .inr hsel
  · rintro (⟨s, hs, hsel⟩ | hsel)
    · exact ⟨s, .inl hs, hsel⟩
    · refine ⟨_, .inr rfl, ?_⟩
      rw [hsched, hdate]
      exact hsel

theorem Db.materialized_mono {db' : Db} (h : ∀ s ∈ db.sessions, s ∈ db'.sessions) {schedule : ℕ}
    {d : ℤ} (hmat : db.materialized schedule d = true) : db'.materialized schedule d = true := by
  obtain ⟨s, hs, hsel⟩ := List.any_eq_true.mp hmat
  exact List.any_eq_true.mpr ⟨s, h s hs, hsel⟩

/-- The query for the session of an occurrence that has none. -/
theorem Db.filter_eq_nil_of_missing {schedule : ℕ} (h : db.materialized schedule d = false) :
    (db.sessions.rows.filter fun s => s.schedule == schedule && s.date == d) = [] :=
  List.filter_eq_nil_iff.mpr fun s hs hsel =>
    Bool.eq_false_iff.mp h (List.any_eq_true.mpr ⟨s, hs, hsel⟩)

/-- A round for an occurrence that is due and missing gives birth to its session. -/
theorem run_materializeOne_of_due {excused : ℤ → ℕ → Bool} {row : ScheduleRow} (db : Db) (now : ℤ)
    (hday : row.schedule.dayOfWeek = weekday d) (hexcused : excused d row.building = false)
    (hmissing : db.materialized row.schedule.id d = false) :
    ∃ notifications, (materializeOne excused now d row).run db =
      (.ok ⟨1, 0, 0⟩, db.bear row.schedule d now notifications) := by
  have hcreate : (getOrCreateSession row.schedule d).run db =
      (.ok (some db.sessions.nextKey), { db with
        sessions := db.sessions.insert (row.schedule.session d)
          (row.schedule.key_session d) }) := by
    rw [getOrCreateSession, Prog.run_select_bind, Db.filter_eq_nil_of_missing hmissing]
    rfl
  obtain ⟨notifications, happly⟩ := run_applyApprovedShift { db with
    sessions := db.sessions.insert (row.schedule.session d)
      (row.schedule.key_session d) } d now db.sessions.nextKey row.schedule.id
  refine ⟨notifications, ?_⟩
  rw [materializeOne, if_neg (not_not.mpr hday), if_neg (Bool.eq_false_iff.mp hexcused),
    Prog.run_bind_of_ok hcreate]
  refine (Prog.run_bind_of_ok happly).trans ?_
  -- the new row is the only one under the new key
  have hinsert : (db.sessions.insert (row.schedule.session d)
      (row.schedule.key_session d)).update (fun s => s.id == db.sessions.nextKey)
      (Session.born (db.bornShift row.schedule.id d) d now) (Session.key_born _ _ _) = _ :=
    Table.update_insert
      (fun s hs => beq_eq_false_iff_ne.mpr (Table.key_lt_nextKey hs).ne)
      (beq_self_eq_true _)
  exact congrArg (fun sessions => ((.ok ⟨1, 0, 0⟩ : Except Err MaterializationResult), { db with
    sessions := sessions
    audit := db.audit ++ bornAudit (db.bornShift row.schedule.id d)
      db.sessions.nextKey now
    notifications := notifications })) hinsert

/-- A round gives birth to the session of its occurrence, if that is due and missing,
and changes nothing otherwise. -/
theorem run_materializeOne_cases (db : Db) (d now : ℤ) (excused : ℤ → ℕ → Bool)
    (row : ScheduleRow) :
    (row.schedule.dayOfWeek = weekday d ∧ excused d row.building = false ∧
      db.materialized row.schedule.id d = false ∧
      ∃ notifications, (materializeOne excused now d row).run db =
        (.ok ⟨1, 0, 0⟩, db.bear row.schedule d now notifications)) ∨
    ∃ r, (materializeOne excused now d row).run db = (r, db) := by
  by_cases hday : row.schedule.dayOfWeek = weekday d
  · by_cases hexcused : excused d row.building = true
    · refine .inr ⟨.ok ⟨0, 0, 1⟩, ?_⟩
      rw [materializeOne, if_neg (not_not.mpr hday), if_pos hexcused]
      rfl
    · rw [Bool.not_eq_true] at hexcused
      cases hmat : db.materialized row.schedule.id d with
      | false => exact .inl ⟨hday, hexcused, rfl, run_materializeOne_of_due db now hday hexcused hmat⟩
      | true =>
        right
        rw [materializeOne, if_neg (not_not.mpr hday), if_neg (Bool.eq_false_iff.mp hexcused)]
        -- there is a session, so `get_or_create` finds it or finds too many
        cases hrows : db.sessions.rows.filter
            fun s => s.schedule == row.schedule.id && s.date == d with
        | nil =>
          obtain ⟨s, hs, hsel⟩ := List.any_eq_true.mp hmat
          exact absurd hsel (List.filter_eq_nil_iff.mp hrows s hs)
        | cons s rest =>
          cases rest with
          | nil =>
            have hget : (getOrCreateSession row.schedule d).run db = (.ok none, db) := by
              rw [getOrCreateSession, Prog.run_select_bind, hrows]
              rfl
            exact ⟨_, Prog.run_bind_of_ok hget⟩
          | cons s' rest =>
            have hget : (getOrCreateSession row.schedule d).run db =
                (.error .multipleObjects, db) := by
              rw [getOrCreateSession, Prog.run_select_bind, hrows]
              rfl
            exact ⟨_, Prog.run_bind_of_error hget⟩
  · refine .inr ⟨.ok ⟨0, 0, 0⟩, ?_⟩
    rw [materializeOne, if_pos hday]
    rfl

end

/-- The occurrence of a schedule on a date that materialization of a term has to create. -/
structure Db.Due (db : Db) (term : AcademicTerm) (sched : Schedule) (d : ℤ) : Prop where
  mem : sched ∈ db.schedules
  inTerm : sched.term = term.id
  active : sched.status = .active
  dates : term.startDate ≤ d ∧ d ≤ term.endDate
  weekday : sched.dayOfWeek = Calendar.weekday d
  notExcused : db.excused term.id d (db.buildingOf sched.room) = false
  missing : db.materialized sched.id d = false

theorem mem_dateRange {current finish d : ℤ} :
    d ∈ dateRange current finish ↔ current ≤ d ∧ d < finish := by
  constructor
  · intro h
    obtain ⟨i, hi, rfl⟩ := List.mem_map.mp h
    have hlt := List.mem_range.mp hi
    omega
  · rintro ⟨hlo, hhi⟩
    refine List.mem_map.mpr ⟨(d - current).toNat, List.mem_range.mpr ?_, ?_⟩ <;> omega

/-- The dates of a call, when its copy of the term lets it through. -/
def Reaches (term : AcademicTerm) (start days : ℤ) (allowDraft : Bool) (d : ℤ) : Prop :=
  (term.status = .active ∨ term.status = .draft ∧ allowDraft = true) ∧
    (start ≤ d ∧ d < start + days)

/-- The rule for materialization: what the birth of every due session within reach
preserves holds at the end, also when the service raises on the way. -/
theorem materializeTerm_invariant_of_reaches {P : Db → Prop} {term : AcademicTerm} {now : ℤ}
    {start days : ℤ} {allowDraft : Bool}
    (hbear : ∀ db sched d notifications, P db → db.Due term sched d →
      Reaches term start days allowDraft d → P (db.bear sched d now notifications))
    {db₀ : Db} (hP : P db₀) : P ((materializeTerm term start days allowDraft now).run db₀).2 := by
  -- births leave what decides about a round alone
  have hloop : ∀ (rounds : List (ℤ × ScheduleRow)) (db : Db),
      (∀ round ∈ rounds, term.startDate ≤ round.1 ∧ round.1 ≤ term.endDate ∧
        Reaches term start days allowDraft round.1 ∧ round.2 ∈ db₀.scheduleRows term.id) →
      (∃ sessions audit notifications, db = { db₀ with
        sessions := sessions, audit := audit, notifications := notifications }) → P db →
      P ((materializeLoop (db₀.excused term.id) now rounds).run db).2 := by
    intro rounds
    induction rounds with
    | nil => exact fun _ _ _ hP => hP
    | cons round rounds ih =>
      intro db hrounds hsame hP
      obtain ⟨d, row⟩ := round
      obtain ⟨hlo, hhi, hreach, hrow⟩ := hrounds _ List.mem_cons_self
      have hrest := fun r hr => hrounds r (List.mem_cons_of_mem _ hr)
      obtain ⟨sched, hsched, rfl⟩ := List.mem_map.mp hrow
      obtain ⟨hmem, hsel⟩ := List.mem_filter.mp hsched
      simp only [Bool.and_eq_true, beq_iff_eq] at hsel
      rw [materializeLoop]
      rcases run_materializeOne_cases db d now (db₀.excused term.id)
        ⟨sched, db₀.buildingOf sched.room⟩ with
        ⟨hday, hexcused, hmissing, notifications, hrun⟩ | ⟨r, hrun⟩
      · have hnext : P (db.bear sched d now notifications) := by
          refine hbear db sched d notifications hP ?_ hreach
          obtain ⟨sessions, audit, notifications, rfl⟩ := hsame
          exact ⟨hmem, hsel.1, hsel.2, ⟨hlo, hhi⟩, hday, hexcused, hmissing⟩
        have hsame' : ∃ sessions audit notifications', db.bear sched d now notifications =
            { db₀ with
              sessions := sessions, audit := audit, notifications := notifications' } := by
          obtain ⟨sessions, audit, notifications, rfl⟩ := hsame
          exact ⟨_, _, _, rfl⟩
        rw [Prog.run_bind_of_ok hrun]
        have hdone := ih _ hrest hsame' hnext
        rw [Prog.run_bind]
        rcases hmore : (materializeLoop (db₀.excused term.id) now rounds).run
          (db.bear sched d now notifications) with ⟨_ | _, db'⟩ <;> rw [hmore] at hdone <;>
          exact hdone
      · have hdone := ih db hrest hsame hP
        cases r with
        | error e =>
          rw [Prog.run_bind_of_error hrun]
          exact hP
        | ok one =>
          rw [Prog.run_bind_of_ok hrun, Prog.run_bind]
          rcases hmore : (materializeLoop (db₀.excused term.id) now rounds).run db
            with ⟨_ | _, db'⟩ <;> rw [hmore] at hdone <;> exact hdone
  unfold materializeTerm
  have hvalid : (∃ e, (validateTerm term allowDraft).run db₀ = (.error e, db₀)) ∨
      (validateTerm term allowDraft).run db₀ = (.ok (), db₀) ∧
        (term.status = .active ∨ term.status = .draft ∧ allowDraft = true) := by
    unfold validateTerm
    split
    · exact .inl ⟨_, rfl⟩
    · split
      · exact .inr ⟨rfl, .inr ⟨‹_›, ‹_›⟩⟩
      · exact .inl ⟨_, rfl⟩
    · exact .inr ⟨rfl, .inl ‹_›⟩
  rcases hvalid with ⟨e, hraise⟩ | ⟨hok, hthrough⟩
  · rw [Prog.run_bind_of_error hraise]
    exact hP
  · rw [Prog.run_bind_of_ok hok]
    split
    · exact hP
    · dsimp only
      split
      · exact hP
      · refine hloop _ db₀ (fun round hround => ?_) ⟨_, _, _, rfl⟩ hP
        obtain ⟨d, hd, hround⟩ := List.mem_flatMap.mp hround
        obtain ⟨row, hrow, rfl⟩ := List.mem_map.mp hround
        obtain ⟨hlo, hhi⟩ := mem_dateRange.mp hd
        exact ⟨by omega, by omega, ⟨hthrough, by omega, by omega⟩, hrow⟩

/-- The rule without regard to the dates of the call. -/
theorem materializeTerm_invariant {P : Db → Prop} {term : AcademicTerm} {now : ℤ}
    (hbear : ∀ db sched d notifications, P db → db.Due term sched d →
      P (db.bear sched d now notifications))
    {db₀ : Db} (hP : P db₀) (start days : ℤ) (allowDraft : Bool) :
    P ((materializeTerm term start days allowDraft now).run db₀).2 :=
  materializeTerm_invariant_of_reaches
    (fun db sched d notifications hdb hdue _ => hbear db sched d notifications hdb hdue) hP

end FluxTrack
