import FluxTrack.Scheduling.Materialization
import FluxTrack.Scheduling.ScheduleOps

/-!
# Adding and editing a class

`schedule_new` of `web/ifo.py` with the command that it calls,
`scheduling/management/commands/materialize_sessions.py`, and `schedule_edit`. Nothing that
`schedule_new` does is undone when a later part raises.

## Main definitions

* `materializeSessions` — the command with its defaults
* `scheduleNew`, `scheduleEdit` — the views
-/

namespace FluxTrack

open Calendar Relational Process

/-- The posted fields as they are read: a key or a number only where there are digits, a time
only where it parses, no number of students where `int` raises, and a modality only where it is
one of the choices. -/
structure ScheduleForm where
  courseCode : String
  sectionName : String
  faculty : Option ℕ
  room : Option ℕ
  dayOfWeek : Option ℕ
  startTime : Option TimeOfDay
  endTime : Option TimeOfDay
  enrolledCount : Option ℕ
  modality : Option Modality

/-- The form with an error, or the redirect to the room of the new class. -/
inductive ScheduleReply
  | refused (error : String)
  | added (schedule : ℕ)
  deriving DecidableEq

/-- The posted fields once they have passed the checks. -/
structure ScheduleFields where
  courseCode : String
  sectionName : String
  faculty : User
  room : Room
  dayOfWeek : ℕ
  startTime : TimeOfDay
  endTime : TimeOfDay
  modality : Modality

/-- The checks of `schedule_new` in their order. -/
def Db.checkSchedule (db : Db) (term : AcademicTerm) (form : ScheduleForm) :
    Except String ScheduleFields := do
  if term.status = .archived then .error "Archived terms are read-only."
  if form.courseCode = "" ∨ form.sectionName = "" then
    .error "Course code and section are required."
  let some faculty := (form.faculty.bind db.users.get?).filter fun u => u.role == .faculty
    | .error "Select a faculty member."
  let some room := form.room.bind db.rooms.get? | .error "Select a room."
  let some startTime := form.startTime | .error "Enter valid start and end times."
  let some endTime := form.endTime | .error "Enter valid start and end times."
  if endTime.ticks ≤ startTime.ticks then .error "The end time must be after the start time."
  let some dayOfWeek := form.dayOfWeek | .error "Select a day of week."
  return ⟨form.courseCode, form.sectionName, faculty, room, dayOfWeek, startTime, endTime,
    form.modality.getD .f2f⟩

/-- The row of the new class. -/
def ScheduleFields.schedule (f : ScheduleFields) (term enrolled pk : ℕ) : Schedule where
  id := pk
  term := term
  courseCode := Py.truncate 30 f.courseCode
  sectionName := Py.truncate 30 f.sectionName
  enrolledCount := enrolled
  faculty := f.faculty.id
  room := f.room.id
  dayOfWeek := f.dayOfWeek
  startTime := f.startTime
  endTime := f.endTime
  modality := f.modality
  status := .active

theorem ScheduleFields.key_schedule (f : ScheduleFields) (term enrolled pk : ℕ) :
    key (f.schedule term enrolled pk) = pk := rfl

/-- `materialize_sessions` with its defaults: the active term, from today on, seven days. Of an
active term this raises no `MaterializationError`. -/
def materializeSessions (today now : ℤ) : M Unit := do
  match ← Prog.select Db.activeTerm with
  | none => .raise (.command .noActiveTerm)
  | some term => do
    let _ ← materializeTerm term today 7 false now

/-- `schedule_new` on a post. -/
def scheduleNew (user : ℕ) (form : ScheduleForm) (today now : ℤ) : M ScheduleReply := do
  match ← Prog.select Db.activeTerm with
  | none => pure (.refused "No active term. Import a term first.")
  | some term => do
    match ← Prog.select fun db => db.checkSchedule term form with
    | .error message => pure (.refused message)
    | .ok fields =>
      match form.enrolledCount with
      | none => .raise .value
      | some enrolled => do
        -- nothing asks whether the room is taken
        let pk ← Prog.modifyGet (fun db => db.schedules.nextKey) fun db =>
          { db with schedules := db.schedules.insert (fields.schedule term.id enrolled) }
        createAudit (some user) (.scheduleCreated pk (Py.truncate 30 fields.courseCode)
          (Py.truncate 30 fields.sectionName) fields.room.code)
        materializeSessions today now
        pure (.added pk)

/-! ### Editing -/

/-- The form with an error, or the redirect to the room of the edited class. -/
inductive EditReply
  | refused (error : String)
  /-- "The room is occupied on <date> during that time." -/
  | occupied (date : ℤ)
  | updated (sessions : ℕ)
  deriving DecidableEq

/-- The checks of `schedule_edit` in their order, but for the number of students. -/
def Db.checkEdit (db : Db) (form : ScheduleForm) : Except String (ℕ → ScheduleEdit) := do
  let some faculty := (form.faculty.bind db.users.get?).filter fun u => u.role == .faculty
    | .error "Select a faculty member."
  let some room := form.room.bind db.rooms.get? | .error "Select a room."
  let some startTime := form.startTime | .error "Enter valid start and end times."
  let some endTime := form.endTime | .error "Enter valid start and end times."
  if endTime.ticks ≤ startTime.ticks then .error "The end time must be after the start time."
  return fun enrolled =>
    ⟨some faculty.id, some room.id, some startTime, some endTime, some enrolled⟩

/-- `schedule_edit` on a post. -/
def scheduleEdit (user pk : ℕ) (form : ScheduleForm) (today : ℤ) : M EditReply := do
  match ← Prog.select Db.activeTerm with
  | none => .raise .http404
  | some term => do
    match ← Prog.select fun db => (db.schedules.get? pk).filter fun s => s.term == term.id with
    | none => .raise .http404
    | some sched => do
      match ← Prog.select fun db => db.checkEdit form with
      | .error message => pure (.refused message)
      | .ok edit =>
        match form.enrolledCount with
        | none => .raise .value
        | some enrolled =>
          (updateSchedule sched.id (edit enrolled) (some user) today).elim
            (fun n => pure (.updated n)) fun
              | .scheduleConflict date => pure (.occupied date)
              | e => .raise e

/-- An edit that passes the checks gives a start and an end after it. -/
theorem Db.checkEdit_eq_ok {db : Db} {form : ScheduleForm} {edit : ℕ → ScheduleEdit}
    (h : db.checkEdit form = .ok edit) (enrolled : ℕ) :
    ∃ st et, (edit enrolled).startTime = some st ∧ (edit enrolled).endTime = some et ∧
      st.ticks < et.ticks := by
  unfold Db.checkEdit at h
  split at h
  · split at h
    · split at h
      · split at h
        · rename_i st _ _ et _
          by_cases hback : et.ticks ≤ st.ticks
          · rw [if_pos hback] at h
            cases h
          · rw [if_neg hback] at h
            cases h
            exact ⟨st, et, rfl, rfl, not_le.mp hback⟩
        · cases h
      · cases h
    · cases h
  · cases h

/-- What the view leaves: nothing new, or what `update_schedule` leaves. -/
theorem snd_run_scheduleEdit_cases (user pk : ℕ) (form : ScheduleForm) (today : ℤ) (db : Db) :
    ((scheduleEdit user pk form today).run db).2 = db ∨
    ∃ sched edit enrolled, db.checkEdit form = .ok edit ∧
      ((scheduleEdit user pk form today).run db).2 =
        ((updateSchedule sched (edit enrolled) (some user) today).run db).2 := by
  rw [scheduleEdit, Prog.run_select_bind]
  split
  · exact .inl rfl
  rw [Prog.run_select_bind]
  split
  · exact .inl rfl
  rename_i sched _
  rw [Prog.run_select_bind]
  split
  · exact .inl rfl
  rename_i edit hedit
  split
  · exact .inl rfl
  rename_i enrolled _
  refine .inr ⟨sched.id, edit, enrolled, hedit, Prog.snd_run_elim (fun _ _ => rfl) fun e t => ?_⟩
  cases e <;> rfl

end FluxTrack
