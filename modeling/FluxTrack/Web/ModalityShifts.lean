import FluxTrack.Ops.SlotSearch
import FluxTrack.Scheduling.ShiftRequests

/-!
# The form for modality shifts

`modality_new` and `modality_rooms` of `web/faculty.py`. The form reads its texts before it asks
the database for anything; that a class must end after it starts is not among its checks.

## Main definitions

* `Posted` — a posted text as it is read
* `ShiftForm.check` — the checks of the form
* `modalityNew` — the view on a post
* `Db.modalityRooms` — the picker of rooms and times

## Main results

* `times_of_check` — the times that are passed on are the posted ones
* `modalityRooms_ends_iff` — the picker is shown iff the sessions in it have a positive length
-/

namespace FluxTrack

open Calendar Relational Process

/-! ### Reading the form -/

/-- A posted text as `int`, `parse_date` or `parse_time` reads it. -/
inductive Posted (α : Type)
  | blank
  /-- other characters than digits, or an answer `None` -/
  | unreadable
  /-- `ValueError` -/
  | raising
  | value (a : α)
  deriving DecidableEq

/-- What ends a post early: a message in the form, or `ValueError`. -/
inductive PostFailure
  | shown (error : String)
  | value
  deriving DecidableEq

namespace Posted

variable {α : Type}

/-- The value of a text that has to have one. -/
def read (error : String) : Posted α → Except PostFailure α
  | .blank | .unreadable => .error (.shown error)
  | .raising => .error .value
  | .value a => .ok a

/-- `isdigit`, for a text that is read as a number. -/
def isDigit : Posted α → Bool
  | .blank | .unreadable => false
  | .raising | .value _ => true

end Posted

/-- `window_mode` with the field that goes with it. -/
inductive PostedWindow
  | single (onDate : Posted ℤ)
  | weeks (n : Posted ℕ)

/-- The posted fields; a schedule with the text that named it. -/
structure ShiftForm where
  target : Option Modality
  schedules : List (String × Posted ℕ)
  window : PostedWindow
  newStartTime : Posted TimeOfDay
  newEndTime : Posted TimeOfDay
  preferredRoom : ℕ → Posted ℕ

/-- `_MAX_WEEKS`. -/
def maxWeeks : ℕ := 16

/-- `weeks_window`. -/
def Db.weeksWindow (db : Db) (n : ℕ) (now : ℤ) : ℤ × ℤ :=
  let start := localDate now + db.policy.modalityShiftLeadDays + 1
  (start, start + n * 7 - 1)

/-- The window that is asked for. -/
def Db.readWindow (db : Db) (now : ℤ) : PostedWindow → Except PostFailure (ℤ × ℤ)
  | .single onDate => do
    let d ← onDate.read "Pick a valid date for the single session."
    return (d, d)
  | .weeks n => do
    let n ← n.read "Choose how many weeks (1 to 16)."
    if 1 ≤ n ∧ n ≤ maxWeeks then return db.weeksWindow n now
    else .error (.shown "Choose how many weeks (1 to 16).")

/-- The alternative times, if any are given; nothing compares them. -/
def readTimes (start finish : Posted TimeOfDay) :
    Except PostFailure (Option (TimeOfDay × TimeOfDay)) :=
  if start = .blank ∧ finish = .blank then .ok none
  else do
    let st ← start.read "Enter a valid alternative start and end time."
    let et ← finish.read "Enter a valid alternative start and end time."
    return some (st, et)

/-- The posted fields once they have passed the checks. -/
structure ShiftFields where
  target : Modality
  schedules : List Schedule
  window : ℤ × ℤ
  time : Option (TimeOfDay × TimeOfDay)
  preferred : ℕ → Option ℕ

/-- The preferred rooms that exist, with their schedules. -/
def Db.readPreferred (db : Db) (preferredRoom : ℕ → Posted ℕ) :
    List Schedule → Except PostFailure (List (ℕ × ℕ))
  | [] => .ok []
  | sched :: rest =>
    if preferredRoom sched.id = .blank then db.readPreferred preferredRoom rest
    else do
      let pk ← (preferredRoom sched.id).read "Invalid room selection."
      let more ← db.readPreferred preferredRoom rest
      match db.rooms.get? pk with
      | some room => return (sched.id, room.id) :: more
      | none => return more

/-- The checks of `modality_new` in their order. -/
def ShiftForm.check (form : ShiftForm) (db : Db) (user : ℕ) (now : ℤ) :
    Except PostFailure ShiftFields := do
  let some target := form.target | .error (.shown "Select a valid target modality.")
  if form.schedules.isEmpty then .error (.shown "Select at least one class.")
  if !form.schedules.all fun s => s.2.isDigit then .error (.shown "Invalid class selection.")
  let window ← db.readWindow now form.window
  let time ← readTimes form.newStartTime form.newEndTime
  let ids ← form.schedules.mapM fun s => s.2.read "Invalid class selection."
  let schedules := db.schedules.rows.filter fun s =>
    ids.contains s.id && s.faculty == user && s.status == .active
  if schedules.length ≠ (form.schedules.map Prod.fst).dedup.length then
    .error (.shown "One or more selected classes are not yours.")
  let preferred ← db.readPreferred form.preferredRoom schedules
  return ⟨target, schedules, window, time, lastEntry preferred⟩

/-! ### The views -/

/-- The form with an error, or the redirect to the requests of the teacher. -/
inductive ShiftReply
  | refused (error : String)
  | submitted (request : ℕ)
  deriving DecidableEq

/-- `modality_new` on a post: the form is read at `readAt`, the service is called at `now`, and
`pk` is the key that the database hands out for the request. -/
def modalityNew (pk : ℕ) (user : User) (form : ShiftForm) (readAt now : ℤ) : M ShiftReply := do
  match ← Prog.select fun db => form.check db user.id readAt with
  | .error (.shown message) => pure (.refused message)
  | .error .value => .raise .value
  | .ok fields =>
    (submitModalityShift pk user fields.schedules (some fields.target) fields.window.1
        fields.window.2 fields.preferred fields.time now).elim
      (fun pk => pure (.submitted pk)) fun
        | .modalityShift message => pure (.refused message)
        | e => .raise e

/-! ### What the form passes on -/

section

variable {start finish : Posted TimeOfDay} {form : ShiftForm} {db : Db}

/-- A check that passes after another has passed. -/
theorem eq_ok_of_bind {ε α β : Type} {x : Except ε α} {f : α → Except ε β} {b : β}
    (h : (x >>= f) = .ok b) : ∃ a, x = .ok a ∧ f a = .ok b := by
  cases x with
  | error e => cases h
  | ok a => exact ⟨a, rfl, h⟩

theorem Posted.read_eq_ok {α : Type} {p : Posted α} {error : String} {a : α}
    (h : p.read error = .ok a) : p = .value a := by
  cases p <;> cases h
  rfl

theorem readTimes_eq_ok {time : TimeOfDay × TimeOfDay}
    (h : readTimes start finish = .ok (some time)) :
    start = .value time.1 ∧ finish = .value time.2 := by
  unfold readTimes at h
  split at h
  · cases h
  · obtain ⟨st, hst, hrest⟩ := eq_ok_of_bind h
    obtain ⟨et, het, hpair⟩ := eq_ok_of_bind hrest
    cases hpair
    exact ⟨Posted.read_eq_ok hst, Posted.read_eq_ok het⟩

/-- The times that are passed on are the posted ones. -/
theorem times_of_check {user : ℕ} {now : ℤ} {fields : ShiftFields}
    (h : form.check db user now = .ok fields) {time : TimeOfDay × TimeOfDay}
    (htime : fields.time = some time) :
    form.newStartTime = .value time.1 ∧ form.newEndTime = .value time.2 := by
  unfold ShiftForm.check at h
  split at h
  · dsimp only at h
    split at h
    · cases h
    split at h
    · cases h
    obtain ⟨window, -, h⟩ := eq_ok_of_bind h
    obtain ⟨posted, hposted, h⟩ := eq_ok_of_bind h
    obtain ⟨ids, -, h⟩ := eq_ok_of_bind h
    split at h
    · cases h
    obtain ⟨preferred, -, h⟩ := eq_ok_of_bind h
    cases h
    exact readTimes_eq_ok (htime ▸ hposted)
  · cases h

/-- What the view leaves: nothing new, or what the service leaves. -/
theorem snd_run_modalityNew_cases (pk : ℕ) (user : User) (form : ShiftForm) (readAt now : ℤ)
    (db : Db) :
    ((modalityNew pk user form readAt now).run db).2 = db ∨
    ∃ fields, form.check db user.id readAt = .ok fields ∧
      ((modalityNew pk user form readAt now).run db).2 =
        ((submitModalityShift pk user fields.schedules (some fields.target) fields.window.1
          fields.window.2 fields.preferred fields.time now).run db).2 := by
  rw [modalityNew, Prog.run_select_bind]
  split
  · exact .inl rfl
  · exact .inl rfl
  · rename_i fields hcheck
    refine .inr ⟨fields, hcheck, Prog.snd_run_elim (fun _ _ => rfl) fun e t => ?_⟩
    cases e <;> rfl

end

/-! ### The picker -/

/-- A row of the picker: a class, its next session, and the rooms and the times there are. -/
structure PickerRow where
  schedule : Schedule
  next : Option Session
  rooms : List ℕ
  times : List (ℤ × ℤ)

namespace Db

/-- The next scheduled or running session of a schedule. -/
def nextSession (db : Db) (schedule : ℕ) (today : ℤ) : Option Session :=
  ((db.sessions.rows.filter fun s =>
      s.schedule == schedule && decide (today ≤ s.date) && s.status.occupying).insertionSort
    Session.earlier).head?

/-- The row of a class, if the search for its times ends. -/
def pickerRow (db : Db) (fuel : ℕ) (today : ℤ) (sched : Schedule) : Option PickerRow :=
  match db.nextSession sched.id today with
  | none => some ⟨sched, none, [], []⟩
  | some s => (db.availableTimesFor fuel s).map fun times =>
    ⟨sched, some s, db.availableRoomsFor s, times⟩

/-- The classes that the picker is asked for. -/
def pickedSchedules (db : Db) (user : ℕ) (ids : List ℕ) : List Schedule :=
  match db.activeTerm with
  | none => []
  | some term =>
    (db.schedules.rows.filter fun s =>
      ids.contains s.id && s.faculty == user && s.status == .active &&
        s.term == term.id).insertionSort fun a b =>
      a.dayOfWeek < b.dayOfWeek ∨ a.dayOfWeek = b.dayOfWeek ∧ a.startTime.ticks ≤ b.startTime.ticks

/-- `modality_rooms`, if the searches for the times end. -/
def modalityRooms (db : Db) (fuel user : ℕ) (ids : List ℕ) (today : ℤ) : Option (List PickerRow) :=
  (db.pickedSchedules user ids).mapM (db.pickerRow fuel today)

end Db

section

variable {db : Db} {today : ℤ}

/-- The row of a class is made iff its next session has a positive length. -/
theorem pickerRow_ends_iff {sched : Schedule} :
    (∃ fuel row, db.pickerRow fuel today sched = some row) ↔
      ∀ s, db.nextSession sched.id today = some s → s.scheduledStart < s.scheduledEnd := by
  unfold Db.pickerRow
  cases db.nextSession sched.id today with
  | none => exact iff_of_true ⟨0, _, rfl⟩ fun s h => absurd h (Option.some_ne_none s).symm
  | some s =>
    simp only [Option.map_eq_some_iff, Option.some.injEq, forall_eq']
    rw [← @availableTimesFor_ends_iff db]
    constructor
    · rintro ⟨fuel, _, slots, hslots, -⟩
      exact ⟨fuel, slots, hslots⟩
    · rintro ⟨fuel, slots, hslots⟩
      exact ⟨fuel, _, slots, hslots, rfl⟩

/-- The picker is shown iff the next session of every class in it has a positive length. -/
theorem modalityRooms_ends_iff {user : ℕ} {ids : List ℕ} :
    (∃ fuel rows, db.modalityRooms fuel user ids today = some rows) ↔
      ∀ sched ∈ db.pickedSchedules user ids, ∀ s, db.nextSession sched.id today = some s →
        s.scheduledStart < s.scheduledEnd := by
  refine (Strides.mapM_ends_iff fun fuel n sched row h => ?_).trans
    (forall₂_congr fun sched _ => pickerRow_ends_iff)
  unfold Db.pickerRow at h ⊢
  split at h
  · exact h
  · obtain ⟨slots, hslots, rfl⟩ := Option.map_eq_some_iff.mp h
    exact Option.map_eq_some_iff.mpr ⟨slots, Strides.walk_add hslots n, rfl⟩

end

end FluxTrack
